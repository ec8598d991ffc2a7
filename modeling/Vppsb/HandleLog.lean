import Mathlib.Data.List.Count

namespace Vppsb.HandleLog

/-- What a program does with handles. Where it passes on a handle that it never
got, that is `none`. -/
inductive Action where
  | acquire (k : Nat)
  | release (k : Option Nat)
  | use (k : Option Nat)
  | other
deriving DecidableEq

/-- The handle was acquired and not released since. The log has the newest action
first. -/
def Held (k : Nat) (log : List Action) : Prop :=
  .acquire k ∈ log ∧ .release (some k) ∉ log

/-- Handles are new when they are acquired, and held when they are used and
released. -/
def Allowed (older : List Action) : Action → Prop
  | .acquire k => .acquire k ∉ older
  | .release i | .use i => ∃ k, i = some k ∧ Held k older
  | .other => True

def Legal : List Action → Prop
  | [] => True
  | a :: older => Allowed older a ∧ Legal older

theorem Legal.count_release_le_one {log : List Action} (h : Legal log) (k : Nat) :
    log.count (.release (some k)) ≤ 1 := by
  induction log with
  | nil => exact Nat.zero_le 1
  | cons a older ih =>
    obtain ⟨ha, h⟩ := h
    have ih := ih h
    by_cases he : a = .release (some k)
    · rw [he] at ha ⊢
      obtain ⟨l, hl, hheld⟩ := ha
      obtain rfl := Option.some.inj hl
      apply Nat.le_of_eq
      rw [List.count_cons_self, List.count_eq_zero.mpr hheld.2]
    · rw [List.count_cons_of_ne he]
      exact ih

theorem Legal.acquired {log : List Action} (h : Legal log) {k : Nat}
    (hk : .release (some k) ∈ log) : .acquire k ∈ log := by
  induction log with
  | nil => exact absurd hk List.not_mem_nil
  | cons a older ih =>
    obtain ⟨ha, h⟩ := h
    apply List.mem_cons_of_mem
    cases List.mem_cons.mp hk with
    | inl he =>
      rw [← he] at ha
      obtain ⟨l, hl, hheld⟩ := ha
      obtain rfl := Option.some.inj hl
      exact hheld.1
    | inr hk => exact ih h hk

/-- The log is legal, has handles below `n` only, and just the current one is
held. -/
structure Disciplined (n : Nat) (cur : Option Nat) (log : List Action) : Prop where
  legal : Legal log
  bound : ∀ k, .acquire k ∈ log → k < n
  current : ∀ k, cur = some k ↔ Held k log

variable {n : Nat} {cur : Option Nat} {log : List Action}

theorem disciplined_nil (n : Nat) : Disciplined n none [] :=
  ⟨trivial, fun _ h => absurd h List.not_mem_nil,
    fun _ => iff_of_false (fun h => nomatch h) (fun h => List.not_mem_nil h.1)⟩

theorem Disciplined.weaken (h : Disciplined n cur log) : Disciplined (n + 1) cur log :=
  ⟨h.legal, fun k hk => Nat.lt_succ_of_lt (h.bound k hk), h.current⟩

theorem Disciplined.other (h : Disciplined n cur log) : Disciplined n cur (.other :: log) :=
  ⟨⟨trivial, h.legal⟩, fun k hk => h.bound k (by simpa using hk),
    fun k => (h.current k).trans (by simp [Held])⟩

theorem Disciplined.use {k : Nat} (h : Disciplined n (some k) log) :
    Disciplined n (some k) (.use (some k) :: log) :=
  ⟨⟨⟨k, rfl, (h.current k).mp rfl⟩, h.legal⟩, fun l hl => h.bound l (by simpa using hl),
    fun l => (h.current l).trans (by simp [Held])⟩

theorem Disciplined.acquire (h : Disciplined n none log) :
    Disciplined (n + 1) (some n) (.acquire n :: log) := by
  have hnew : .acquire n ∉ log := fun hn => Nat.lt_irrefl n (h.bound n hn)
  have hnot : .release (some n) ∉ log := fun hr => hnew (h.legal.acquired hr)
  refine ⟨⟨hnew, h.legal⟩, fun k hk => ?_, fun k => ?_⟩
  · cases List.mem_cons.mp hk with
    | inl he =>
      cases he
      exact Nat.lt_succ_self n
    | inr hk => exact Nat.lt_succ_of_lt (h.bound k hk)
  · constructor
    · intro he
      obtain rfl := Option.some.inj he
      exact ⟨List.mem_cons_self, by simpa using hnot⟩
    · intro ⟨hk, hr⟩
      cases List.mem_cons.mp hk with
      | inl he =>
        cases he
        rfl
      | inr hk =>
        have := (h.current k).mpr ⟨hk, fun hm => hr (List.mem_cons_of_mem _ hm)⟩
        cases this

theorem Disciplined.release {k : Nat} (h : Disciplined n (some k) log) :
    Disciplined n none (.release (some k) :: log) := by
  refine ⟨⟨⟨k, rfl, (h.current k).mp rfl⟩, h.legal⟩, fun l hl => h.bound l (by simpa using hl),
    fun l => iff_of_false (fun he => nomatch he) ?_⟩
  intro ⟨hl, hr⟩
  have hl : .acquire l ∈ log := by simpa using hl
  have hne : .release (some l) ∉ log := fun hm => hr (List.mem_cons_of_mem _ hm)
  obtain rfl := Option.some.inj ((h.current l).mpr ⟨hl, hne⟩)
  exact hr List.mem_cons_self

/-- Each handle but the current one was released exactly once. -/
theorem Disciplined.count_release (h : Disciplined n cur log) {k : Nat} (hk : .acquire k ∈ log) :
    log.count (.release (some k)) = if cur = some k then 0 else 1 := by
  by_cases hc : cur = some k
  · rw [if_pos hc]
    exact List.count_eq_zero.mpr ((h.current k).mp hc).2
  · rw [if_neg hc]
    have hm : .release (some k) ∈ log := by
      by_contra hm
      exact hc ((h.current k).mpr ⟨hk, hm⟩)
    exact Nat.le_antisymm (h.legal.count_release_le_one k) (List.count_pos_iff.mpr hm)

end Vppsb.HandleLog
