import Mathlib.Data.List.Basic

namespace Vppsb.Dialogue

/-- A computation that makes calls of `C` and gets an `A` for each of them. It is stuck
where it has no result. -/
inductive Comp (C A α : Type) where
  | ret (a : α)
  | call (c : C) (k : A → Comp C A α)
  | stuck

variable {C A α β : Type}

def Comp.bind : Comp C A α → (α → Comp C A β) → Comp C A β
  | .ret a, f => f a
  | .call c k, f => .call c fun a => (k a).bind f
  | .stuck, _ => .stuck

instance : Monad (Comp C A) where
  pure := .ret
  bind := .bind

def ask (c : C) : Comp C A A := .call c .ret

/-- The computation again until its result is final, some number of times at most. -/
def again (final : α → Bool) (m : Comp C A α) : Nat → Comp C A α
  | 0 => .stuck
  | n + 1 => m >>= fun a => if final a then pure a else again final m n

/-- The result, and the calls that were made with the answers that were given. -/
def talk : Comp C A α → List A → Option (α × List (C × A))
  | .ret a, _ => some (a, [])
  | .call _ _, [] => none
  | .call c k, a :: as => (talk (k a) as).map fun r => (r.1, (c, a) :: r.2)
  | .stuck, _ => none

/-- Each call is allowed, and the result meets the condition if the answers are those
that such calls get. -/
def Ensures (allowed : C → Prop) (answers : C → A → Prop) (post : α → Prop) :
    Comp C A α → Prop
  | .ret a => post a
  | .call c k => allowed c ∧ ∀ a, answers c a → Ensures allowed answers post (k a)
  | .stuck => True

section

variable {allowed : C → Prop} {answers : C → A → Prop} {post post' : α → Prop}
variable {m : Comp C A α}

theorem ensures_ask {c : C} {post : A → Prop} (hc : allowed c) (h : ∀ a, answers c a → post a) :
    Ensures allowed answers post (ask c) := ⟨hc, h⟩

theorem ensures_bind {f : α → Comp C A β} {post : β → Prop}
    (h : Ensures allowed answers (fun a => Ensures allowed answers post (f a)) m) :
    Ensures allowed answers post (m >>= f) := by
  induction m with
  | ret a => exact h
  | call c k ih => exact ⟨h.1, fun a ha => ih a (h.2 a ha)⟩
  | stuck => exact trivial

theorem ensures_mono (h : Ensures allowed answers post m) (hp : ∀ a, post a → post' a) :
    Ensures allowed answers post' m := by
  induction m with
  | ret a => exact hp a h
  | call c k ih => exact ⟨h.1, fun a ha => ih a (h.2 a ha)⟩
  | stuck => exact trivial

theorem ensures_ask_bind {c : C} {f : A → Comp C A β} {post : β → Prop} (hc : allowed c)
    (h : ∀ a, answers c a → Ensures allowed answers post (f a)) :
    Ensures allowed answers post (ask c >>= f) :=
  ensures_bind (ensures_ask hc h)

theorem ensures_ite {p : Prop} [Decidable p] {m' : Comp C A α}
    (h : p → Ensures allowed answers post m) (h' : ¬ p → Ensures allowed answers post m') :
    Ensures allowed answers post (if p then m else m') := by
  by_cases hp : p
  · rw [if_pos hp]
    exact h hp
  · rw [if_neg hp]
    exact h' hp

theorem ensures_again {final : α → Bool} (h : Ensures allowed answers post m) (n : Nat) :
    Ensures allowed answers post (again final m n) := by
  induction n with
  | zero => exact trivial
  | succ n ih =>
    refine ensures_bind (ensures_mono h fun a ha => ?_)
    exact ensures_ite (fun _ => ha) fun _ => ih

/-- What is ensured holds of the calls that are really made. -/
theorem talk_ensured (h : Ensures allowed answers post m) {as : List A} {a : α}
    {log : List (C × A)} (ht : talk m as = some (a, log)) (ha : ∀ x ∈ log, answers x.1 x.2) :
    post a ∧ ∀ x ∈ log, allowed x.1 := by
  induction m generalizing as log with
  | ret b =>
    cases ht
    exact ⟨h, fun x hx => absurd hx List.not_mem_nil⟩
  | stuck => cases ht
  | call c k ih =>
    cases as with
    | nil => cases ht
    | cons b as =>
      obtain ⟨⟨a', log'⟩, hk, he⟩ := Option.map_eq_some_iff.mp ht
      cases he
      obtain ⟨hp, hl⟩ := ih b (h.2 b (ha _ List.mem_cons_self)) hk fun x hx =>
        ha x (List.mem_cons_of_mem _ hx)
      refine ⟨hp, fun x hx => ?_⟩
      cases hx with
      | head => exact h.1
      | tail _ hx => exact hl x hx

end

end Vppsb.Dialogue
