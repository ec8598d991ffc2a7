import Mathlib.Data.List.Nodup
import Mathlib.Logic.Function.Basic

namespace Vppsb.PoolStore

variable {α : Type}

/-- A growing vector of slots with a stack of free indices. A freed slot keeps
its contents, and the next `get` hands it out again. -/
structure Pool (α : Type) where
  elt : Nat → α
  len : Nat
  free : List Nat

def empty (a : α) : Pool α := ⟨fun _ => a, 0, []⟩

/-- Index of the slot that the next `get` hands out. -/
def fresh (p : Pool α) : Nat := p.free.headD p.len

/-- The pool after `get`. The slot still holds what it held before. -/
def get (p : Pool α) : Pool α :=
  match p.free with
  | [] => { p with len := p.len + 1 }
  | _ :: rest => { p with free := rest }

def put (p : Pool α) (i : Nat) : Pool α := { p with free := i :: p.free }

def set (p : Pool α) (i : Nat) (a : α) : Pool α := { p with elt := Function.update p.elt i a }

def Live (p : Pool α) (i : Nat) : Prop := i < p.len ∧ i ∉ p.free

instance (p : Pool α) (i : Nat) : Decidable (Live p i) := inferInstanceAs (Decidable (_ ∧ _))

/-- Indices of the live slots, in the order in which `pool_foreach` visits them. -/
def liveIndices (p : Pool α) : List Nat := (List.range p.len).filter (fun i => decide (Live p i))

structure WF (p : Pool α) : Prop where
  nodup : p.free.Nodup
  bound : ∀ i ∈ p.free, i < p.len

@[simp] theorem elt_get (p : Pool α) : (get p).elt = p.elt := by
  unfold get
  split <;> rfl

@[simp] theorem elt_put (p : Pool α) (i : Nat) : (put p i).elt = p.elt := rfl

@[simp] theorem elt_set (p : Pool α) (i : Nat) (a : α) :
    (set p i a).elt = Function.update p.elt i a := rfl

theorem set_set (p : Pool α) (i : Nat) (a b : α) : set (set p i a) i b = set p i b := by
  simp only [set, Function.update_idem]

@[simp] theorem mem_liveIndices (p : Pool α) (i : Nat) : i ∈ liveIndices p ↔ Live p i := by
  simp only [liveIndices, List.mem_filter, List.mem_range, decide_eq_true_eq]
  exact ⟨fun h => h.2, fun h => ⟨h.1, h⟩⟩

theorem nodup_liveIndices (p : Pool α) : (liveIndices p).Nodup := List.nodup_range.filter _

theorem wf_empty (a : α) : WF (empty a) := ⟨List.nodup_nil, fun _ h => by simp [empty] at h⟩

theorem wf_set {p : Pool α} (hp : WF p) (i : Nat) (a : α) : WF (set p i a) := ⟨hp.nodup, hp.bound⟩

theorem not_live_fresh {p : Pool α} : ¬ Live p (fresh p) := by
  unfold Live fresh
  cases p.free <;> simp

theorem ne_fresh {p : Pool α} {i : Nat} (hi : Live p i) : i ≠ fresh p := by
  rintro rfl
  exact not_live_fresh hi

theorem live_get {p : Pool α} (hp : WF p) (i : Nat) : Live (get p) i ↔ Live p i ∨ i = fresh p := by
  obtain ⟨hn, hb⟩ := hp
  unfold Live get fresh
  cases hf : p.free with
  | nil => simp; omega
  | cons j rest =>
    rw [hf] at hn hb
    have hj := hb j (by simp)
    have hm := (List.nodup_cons.mp hn).1
    simp only [List.headD_cons, List.mem_cons, not_or]
    constructor
    · rintro ⟨hi, hr⟩
      by_cases h : i = j
      · exact Or.inr h
      · exact Or.inl ⟨hi, h, hr⟩
    · rintro (⟨hi, _, hr⟩ | rfl)
      · exact ⟨hi, hr⟩
      · exact ⟨hj, hm⟩

theorem wf_get {p : Pool α} (hp : WF p) : WF (get p) := by
  obtain ⟨hn, hb⟩ := hp
  unfold get
  split
  · rename_i hf
    exact ⟨hn, fun i hi => absurd hi (by simp [hf])⟩
  · rename_i j rest hf
    rw [hf] at hn hb
    exact ⟨hn.of_cons, fun i hi => hb i (by simp [hi])⟩

@[simp] theorem live_put (p : Pool α) (i j : Nat) : Live (put p i) j ↔ Live p j ∧ j ≠ i := by
  simp only [Live, put, List.mem_cons, not_or]
  tauto

theorem wf_put {p : Pool α} (hp : WF p) {i : Nat} (hi : Live p i) : WF (put p i) := by
  refine ⟨List.nodup_cons.mpr ⟨hi.2, hp.nodup⟩, fun j hj => ?_⟩
  obtain rfl | hj := List.mem_cons.mp hj
  · exact hi.1
  · exact hp.bound j hj

theorem wf_put_get {p : Pool α} (hp : WF p) : WF (put (get p) (fresh p)) :=
  wf_put (wf_get hp) ((live_get hp _).mpr (Or.inr rfl))

theorem live_put_get {p : Pool α} (hp : WF p) (i : Nat) :
    Live (put (get p) (fresh p)) i ↔ Live p i := by
  rw [live_put, live_get hp]
  constructor
  · rintro ⟨hi | hi, hne⟩
    · exact hi
    · exact absurd hi hne
  · exact fun hi => ⟨Or.inl hi, ne_fresh hi⟩

theorem liveIndices_get {p : Pool α} (hp : WF p) :
    (liveIndices (get p)).Perm (fresh p :: liveIndices p) := by
  have hn : (fresh p :: liveIndices p).Nodup :=
    List.nodup_cons.mpr ⟨by simpa using not_live_fresh, nodup_liveIndices p⟩
  refine (List.perm_ext_iff_of_nodup (nodup_liveIndices _) hn).mpr fun i => ?_
  rw [mem_liveIndices, live_get hp, List.mem_cons, mem_liveIndices, or_comm]

theorem liveIndices_put {p : Pool α} {i : Nat} (hi : Live p i) :
    (liveIndices p).Perm (i :: liveIndices (put p i)) := by
  have hn : (i :: liveIndices (put p i)).Nodup :=
    List.nodup_cons.mpr ⟨by simp, nodup_liveIndices _⟩
  refine (List.perm_ext_iff_of_nodup (nodup_liveIndices _) hn).mpr fun j => ?_
  rw [mem_liveIndices, List.mem_cons, mem_liveIndices, live_put]
  by_cases hj : j = i
  · simp [hj, hi]
  · simp [hj]

def liveCount (p : Pool α) : Nat := (liveIndices p).length

theorem liveCount_get {p : Pool α} (hp : WF p) : liveCount (get p) = liveCount p + 1 :=
  (liveIndices_get hp).length_eq

theorem liveCount_put {p : Pool α} {i : Nat} (hi : Live p i) :
    liveCount p = liveCount (put p i) + 1 := (liveIndices_put hi).length_eq

end Vppsb.PoolStore
