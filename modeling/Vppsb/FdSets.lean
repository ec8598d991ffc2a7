import Mathlib.Data.List.Count
import Mathlib.Data.List.Range
import Mathlib.Logic.Function.Basic

namespace Vppsb.FdSets

/-- The three sets that a `select` call watches. -/
inductive FdKind where
  | read
  | write
  | except
deriving DecidableEq

/-- The bits of an `fd_set`. A number from `FD_SETSIZE` on has none: what uses such a number as a
bit is undefined. -/
abbrev FdSet := Nat → Bool

abbrev SelectSets := FdKind → Option FdSet

def isSet (s : SelectSets) (k : FdKind) (fd : Nat) : Bool := (s k).any (fun f => f fd)

def present (s : SelectSets) (k : FdKind) : Bool := (s k).isSome

def zeroSets (s : SelectSets) : SelectSets := fun k => (s k).map (fun _ _ => false)

def setBit (s : SelectSets) (k : FdKind) (fd : Nat) (v : Bool) : SelectSets :=
  Function.update s k ((s k).map (fun f => Function.update f fd v))

/-- The passes of a loop over the first `n` descriptors that looks at each of
the three sets in turn. -/
def fdLoop (n : Nat) : List (FdKind × Nat) :=
  (List.range n).flatMap (fun fd => [(.read, fd), (.write, fd), (.except, fd)])

/-- Sets that a loop fills, with the largest number it has put in (-1 for none)
and the count of the bits. -/
structure Marks where
  sets : SelectSets
  maxFd : Int
  nfd : Nat

def emptyMarks (s : SelectSets) : Marks := ⟨s, -1, 0⟩

def mark (m : Marks) (k : FdKind) (fd : Nat) : Marks :=
  if present m.sets k then
    ⟨setBit m.sets k fd true, if (fd : Int) > m.maxFd then fd else m.maxFd, m.nfd + 1⟩
  else m

/-- `max_fd != -1 ? max_fd + 1 : 0`. -/
def nfdsOf (maxFd : Int) : Nat := if maxFd ≠ -1 then (maxFd + 1).toNat else 0

/-- A loop that marks at `t fd` whatever satisfies the test. -/
def markAll (p : FdKind → Nat → Bool) (t : Nat → Nat) (xs : List (FdKind × Nat)) (m : Marks) :
    Marks :=
  xs.foldl (fun m x => if p x.1 x.2 then mark m x.1 (t x.2) else m) m

def restrict (s : SelectSets) (p : FdKind → Nat → Bool) : SelectSets :=
  fun k => (s k).map (fun f fd => f fd && p k fd)

def bitCount (n : Nat) (s : SelectSets) : Nat := (fdLoop n).countP (fun x => isSet s x.1 x.2)

@[simp] theorem mem_fdLoop {n fd : Nat} {k : FdKind} : (k, fd) ∈ fdLoop n ↔ fd < n := by
  cases k <;> simp [fdLoop]

theorem isSet_le_present {s : SelectSets} {k : FdKind} {fd : Nat} (h : isSet s k fd = true) :
    present s k = true := by
  unfold isSet at h
  unfold present
  cases hs : s k with
  | none => simp [hs] at h
  | some f => rfl

theorem ext {s s' : SelectSets} (hp : ∀ k, present s k = present s' k)
    (hb : ∀ k fd, isSet s k fd = isSet s' k fd) : s = s' := by
  funext k
  have hp := hp k
  have hb := hb k
  unfold present at hp
  unfold isSet at hb
  cases hs : s k <;> cases hs' : s' k <;> simp_all
  funext fd
  exact hb fd

@[simp] theorem present_zeroSets (s : SelectSets) (k : FdKind) :
    present (zeroSets s) k = present s k := by simp [present, zeroSets]

@[simp] theorem isSet_zeroSets (s : SelectSets) (k : FdKind) (fd : Nat) :
    isSet (zeroSets s) k fd = false := by
  unfold isSet zeroSets
  cases s k <;> rfl

@[simp] theorem present_restrict (s : SelectSets) (p : FdKind → Nat → Bool) (k : FdKind) :
    present (restrict s p) k = present s k := by simp [present, restrict]

@[simp] theorem isSet_restrict (s : SelectSets) (p : FdKind → Nat → Bool) (k : FdKind) (fd : Nat) :
    isSet (restrict s p) k fd = (isSet s k fd && p k fd) := by
  unfold isSet restrict
  cases s k <;> rfl

@[simp] theorem present_setBit (s : SelectSets) (k j : FdKind) (fd : Nat) (v : Bool) :
    present (setBit s k fd v) j = present s j := by
  by_cases h : j = k
  · subst h
    simp [present, setBit]
  · simp [present, setBit, h]

theorem isSet_setBit (s : SelectSets) (k j : FdKind) (fd i : Nat) (v : Bool) :
    isSet (setBit s k fd v) j i =
      if j = k ∧ i = fd then present s k && v else isSet s j i := by
  by_cases h : j = k
  · subst h
    unfold isSet setBit present
    cases hs : s j with
    | none => simp
    | some f =>
      by_cases hi : i = fd
      · simp [hi]
      · simp [hi]
  · simp [isSet, setBit, h]

theorem mark_absent {m : Marks} {k : FdKind} (h : ¬ present m.sets k = true) (fd : Nat) :
    mark m k fd = m := if_neg h

@[simp] theorem present_mark (m : Marks) (k j : FdKind) (fd : Nat) :
    present (mark m k fd).sets j = present m.sets j := by
  unfold mark
  split
  · simp
  · rfl

theorem isSet_mark (m : Marks) (k j : FdKind) (fd i : Nat) :
    isSet (mark m k fd).sets j i = true ↔
      isSet m.sets j i = true ∨ present m.sets k = true ∧ j = k ∧ i = fd := by
  unfold mark
  split
  · rename_i hp
    rw [isSet_setBit, hp]
    by_cases h : j = k ∧ i = fd
    · simp [h]
    · simp [h]
  · rename_i hp
    simp [hp]

section MarkAll

variable (p : FdKind → Nat → Bool) (t : Nat → Nat) (xs : List (FdKind × Nat)) (m : Marks)

theorem markAll_cons (x : FdKind × Nat) : markAll p t (x :: xs) m =
    markAll p t xs (if p x.1 x.2 then mark m x.1 (t x.2) else m) := rfl

@[simp] theorem present_markAll (k : FdKind) :
    present (markAll p t xs m).sets k = present m.sets k := by
  induction xs generalizing m with
  | nil => rfl
  | cons x xs ih =>
    rw [markAll_cons, ih]
    split <;> simp

theorem isSet_markAll (k : FdKind) (i : Nat) :
    isSet (markAll p t xs m).sets k i = true ↔ isSet m.sets k i = true ∨
      present m.sets k = true ∧ ∃ fd, (k, fd) ∈ xs ∧ p k fd = true ∧ t fd = i := by
  induction xs generalizing m with
  | nil => simp [markAll]
  | cons x xs ih =>
    obtain ⟨j, fd⟩ := x
    rw [markAll_cons, ih]
    by_cases hp : p j fd = true
    · simp only [hp, if_true, isSet_mark, present_mark, List.mem_cons, Prod.mk.injEq]
      grind
    · simp only [hp, List.mem_cons, Prod.mk.injEq]
      grind

theorem nfd_markAll : (markAll p t xs m).nfd =
    m.nfd + xs.countP (fun x => p x.1 x.2 && present m.sets x.1) := by
  induction xs generalizing m with
  | nil => rfl
  | cons x xs ih =>
    rw [markAll_cons, ih, List.countP_cons]
    by_cases hp : p x.1 x.2 = true
    · by_cases hs : present m.sets x.1 = true
      · simp [hp, hs, mark]
        omega
      · simp [hp, hs, mark]
    · simp [hp]

theorem le_maxFd_mark (k : FdKind) (fd : Nat) : m.maxFd ≤ (mark m k fd).maxFd := by
  unfold mark
  split
  · show m.maxFd ≤ ite _ _ _
    split <;> omega
  · exact Int.le_refl _

theorem le_maxFd_markAll : m.maxFd ≤ (markAll p t xs m).maxFd := by
  induction xs generalizing m with
  | nil => exact Int.le_refl _
  | cons x xs ih =>
    rw [markAll_cons]
    refine Int.le_trans ?_ (ih _)
    split
    · exact le_maxFd_mark m x.1 (t x.2)
    · exact Int.le_refl _

theorem maxFd_markAll_ge {k : FdKind} {fd : Nat} (hx : (k, fd) ∈ xs) (hp : p k fd = true)
    (hs : present m.sets k = true) : (t fd : Int) ≤ (markAll p t xs m).maxFd := by
  induction xs generalizing m with
  | nil => cases hx
  | cons x xs ih =>
    rw [markAll_cons]
    obtain rfl | hx := List.mem_cons.mp hx
    · refine Int.le_trans ?_ (le_maxFd_markAll p t xs _)
      simp only [hp, if_true, mark, hs]
      split <;> omega
    · refine ih _ hx ?_
      split <;> simp [hs]

theorem maxFd_markAll_cases : (markAll p t xs m).maxFd = m.maxFd ∨
    ∃ k fd, (k, fd) ∈ xs ∧ p k fd = true ∧ present m.sets k = true ∧
      (markAll p t xs m).maxFd = t fd := by
  induction xs generalizing m with
  | nil => exact Or.inl rfl
  | cons x xs ih =>
    obtain ⟨j, i⟩ := x
    rw [markAll_cons]
    by_cases hp : p j i = true
    · simp only [hp, if_true]
      obtain h | ⟨k, fd, hx, hk, hs, h⟩ := ih (mark m j (t i))
      · rw [h]
        by_cases hj : present m.sets j = true
        · by_cases hgt : (t i : Int) > m.maxFd
          · refine Or.inr ⟨j, i, by simp, hp, hj, ?_⟩
            simp [mark, hj, hgt]
          · refine Or.inl ?_
            simp [mark, hj, hgt]
        · exact Or.inl (by simp [mark, hj])
      · exact Or.inr ⟨k, fd, List.mem_cons_of_mem _ hx, hk, by simpa using hs, h⟩
    · simp only [hp, Bool.false_eq_true, if_false]
      obtain h | ⟨k, fd, hx, hk, hs, h⟩ := ih m
      · exact Or.inl h
      · exact Or.inr ⟨k, fd, List.mem_cons_of_mem _ hx, hk, hs, h⟩

end MarkAll

theorem nfdsOf_markAll_le {p : FdKind → Nat → Bool} {n : Nat} {s : SelectSets} :
    nfdsOf (markAll p id (fdLoop n) (emptyMarks s)).maxFd ≤ n := by
  unfold nfdsOf
  obtain h | ⟨k, fd, hx, _, _, h⟩ := maxFd_markAll_cases p id (fdLoop n) (emptyMarks s)
  · rw [h]
    simp [emptyMarks]
  · have := mem_fdLoop.mp hx
    rw [h]
    split
    · simp
      omega
    · omega

theorem lt_nfdsOf_markAll {p : FdKind → Nat → Bool} {t : Nat → Nat} {xs : List (FdKind × Nat)}
    {m : Marks} {k : FdKind} {fd : Nat} (hx : (k, fd) ∈ xs) (hp : p k fd = true)
    (hs : present m.sets k = true) : t fd < nfdsOf (markAll p t xs m).maxFd := by
  have := maxFd_markAll_ge p t xs m hx hp hs
  unfold nfdsOf
  split <;> omega

theorem fdLoop_add (n m : Nat) : fdLoop (n + m) =
    fdLoop n ++ ((List.range m).map (n + ·)).flatMap (fun fd => [(.read, fd), (.write, fd), (.except, fd)]) := by
  rw [fdLoop, List.range_add, List.flatMap_append, fdLoop]

theorem countP_fdLoop_of_le {q : FdKind × Nat → Bool} {n m : Nat} (hnm : n ≤ m)
    (hq : ∀ k fd, n ≤ fd → q (k, fd) = false) : (fdLoop m).countP q = (fdLoop n).countP q := by
  obtain ⟨d, rfl⟩ := Nat.exists_eq_add_of_le hnm
  rw [fdLoop_add, List.countP_append, Nat.add_eq_left, List.countP_eq_zero]
  intro x hx
  simp only [List.mem_flatMap, List.mem_map, List.mem_range] at hx
  obtain ⟨fd, ⟨i, _, rfl⟩, hx⟩ := hx
  obtain ⟨k, j⟩ := x
  have hj : j = n + i := by
    simp only [List.mem_cons, Prod.mk.injEq, List.not_mem_nil, or_false] at hx
    obtain h | h | h := hx <;> exact h.2
  simp [hq k j (by omega)]

def AnySet (s : SelectSets) : Prop := ∃ k fd, isSet s k fd = true

def Below (n : Nat) (s : SelectSets) : Prop := ∀ k fd, isSet s k fd = true → fd < n

theorem bitCount_pos {n : Nat} {s : SelectSets} (hs : Below n s) : 0 < bitCount n s ↔ AnySet s := by
  rw [bitCount, List.countP_pos_iff]
  constructor
  · rintro ⟨⟨k, fd⟩, _, h⟩
    exact ⟨k, fd, h⟩
  · rintro ⟨k, fd, h⟩
    exact ⟨(k, fd), mem_fdLoop.mpr (hs k fd h), h⟩

theorem Below.restrict {n : Nat} {s : SelectSets} (hs : Below n s) (p : FdKind → Nat → Bool) :
    Below n (restrict s p) := by
  intro k fd h
  rw [isSet_restrict, Bool.and_eq_true] at h
  exact hs k fd h.1

theorem AnySet.of_restrict {s : SelectSets} {p : FdKind → Nat → Bool} (h : AnySet (restrict s p)) :
    AnySet s := by
  obtain ⟨k, fd, h⟩ := h
  rw [isSet_restrict, Bool.and_eq_true] at h
  exact ⟨k, fd, h.1⟩

theorem eq_zeroSets {s s' : SelectSets} (hp : ∀ k, present s k = present s' k) (h : ¬ AnySet s) :
    s = zeroSets s' := by
  refine ext (fun k => by rw [hp, present_zeroSets]) fun k fd => ?_
  rw [isSet_zeroSets]
  cases hs : isSet s k fd with
  | false => rfl
  | true => exact absurd ⟨k, fd, hs⟩ h

theorem not_anySet_zeroSets (s : SelectSets) : ¬ AnySet (zeroSets s) := by
  rintro ⟨k, fd, h⟩
  simp at h

theorem markAll_zeroSets (s : SelectSets) (q : FdKind → Nat → Bool) (n : Nat) :
    (markAll (fun k fd => isSet s k fd && q k fd) id (fdLoop n) (emptyMarks (zeroSets s))).sets =
      restrict s (fun k fd => decide (fd < n) && q k fd) := by
  refine ext (fun k => by simp [emptyMarks]) fun k fd => ?_
  rw [Bool.eq_iff_iff, isSet_markAll, isSet_restrict]
  simp only [emptyMarks, isSet_zeroSets, present_zeroSets, mem_fdLoop, Bool.and_eq_true,
    decide_eq_true_eq, id]
  constructor
  · rintro (h | ⟨_, i, hi, hs, rfl⟩)
    · cases h
    · exact ⟨hs.1, hi, hs.2⟩
  · rintro ⟨hs, hi, hq⟩
    exact Or.inr ⟨isSet_le_present hs, fd, hi, ⟨hs, hq⟩, rfl⟩

theorem countP_or {α : Type} (xs : List α) (p q : α → Bool) (h : ∀ x ∈ xs, p x = true → q x = false) :
    xs.countP (fun x => p x || q x) = xs.countP p + xs.countP q := by
  induction xs with
  | nil => rfl
  | cons x xs ih =>
    have ht := ih fun y hy => h y (List.mem_cons_of_mem _ hy)
    have hx := h x (by simp)
    simp only [List.countP_cons, ht]
    cases hp : p x <;> cases hq : q x <;> simp_all <;> omega

end Vppsb.FdSets
