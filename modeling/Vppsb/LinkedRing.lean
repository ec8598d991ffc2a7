import Mathlib.Data.List.Nodup
import Mathlib.Logic.Function.Basic

namespace Vppsb.LinkedRing

variable {ι ν : Type}

/-- Element of a doubly linked list. An absent link is an index that denotes
no element; an element without value is a list head. -/
@[ext] structure Node (ι ν : Type) where
  next : Option ι
  prev : Option ι
  value : Option ν
deriving DecidableEq

abbrev Mem (ι ν : Type) := ι → Node ι ν

/-- `Seg m a xs b`: following the links both ways from `a` through `xs` to `b`. -/
def Seg (m : Mem ι ν) : ι → List ι → ι → Prop
  | a, [], b => (m a).next = some b ∧ (m b).prev = some a
  | a, x :: xs, b => ((m a).next = some x ∧ (m x).prev = some a) ∧ Seg m x xs b

theorem seg_append (m : Mem ι ν) (a x b : ι) (xs ys : List ι) :
    Seg m a (xs ++ x :: ys) b ↔ Seg m a xs x ∧ Seg m x ys b := by
  induction xs generalizing a with
  | nil => exact Iff.rfl
  | cons y xs ih => simp only [List.cons_append, Seg, ih, and_assoc]

/-- A segment reads the forward links of all its elements but the last and the
backward links of all but the first. -/
theorem Seg.congr {m m' : Mem ι ν} {a b : ι} {xs : List ι} (h : Seg m a xs b)
    (hn : ∀ y ∈ a :: xs, (m' y).next = (m y).next)
    (hp : ∀ y ∈ xs ++ [b], (m' y).prev = (m y).prev) : Seg m' a xs b := by
  induction xs generalizing a with
  | nil => exact ⟨(hn a (by simp)).trans h.1, (hp b (by simp)).trans h.2⟩
  | cons x xs ih =>
    obtain ⟨⟨h1, h2⟩, h3⟩ := h
    refine ⟨⟨(hn a (by simp)).trans h1, (hp x (by simp)).trans h2⟩, ih h3 ?_ ?_⟩
    · exact fun y hy => hn y (List.mem_cons_of_mem _ hy)
    · exact fun y hy => hp y (List.mem_cons_of_mem _ hy)

theorem Seg.next_eq {m : Mem ι ν} {a b : ι} {xs : List ι} (h : Seg m a xs b) :
    (m a).next = some (xs.headD b) := by
  cases xs with
  | nil => exact h.1
  | cons x xs => exact h.1.1

theorem Seg.prev_eq {m : Mem ι ν} {a b : ι} {xs : List ι} (h : Seg m a xs b) :
    (m b).prev = some (xs.getLastD a) := by
  induction xs generalizing a with
  | nil => exact h.2
  | cons x xs ih => rw [List.getLastD_cons, ih h.2]

/-- The list whose head is `h` and whose elements are `xs`. An empty list has
its head linked to itself or to nothing. -/
structure Ring (m : Mem ι ν) (h : ι) (xs : List ι) : Prop where
  links : Seg m h xs h ∨ xs = [] ∧ (m h).next = none
  nodup : (h :: xs).Nodup
  head : (m h).value = none
  elems : ∀ x ∈ xs, (m x).value ≠ none

theorem Ring.seg_of_ne_nil {m : Mem ι ν} {h : ι} {xs : List ι} (hr : Ring m h xs)
    (hx : xs ≠ []) : Seg m h xs h := hr.links.resolve_right (fun he => hx he.1)

theorem Ring.nil_of_unlinked {m : Mem ι ν} {h : ι} {xs : List ι} (hr : Ring m h xs)
    (hn : (m h).next = none) : xs = [] := by
  by_contra hx
  have := (hr.seg_of_ne_nil hx).next_eq
  simp [hn] at this

theorem Seg.unique {m : Mem ι ν} {a b : ι} {xs ys : List ι} (hx : Seg m a xs b)
    (hy : Seg m a ys b) (hbx : b ∉ xs) (hby : b ∉ ys) : xs = ys := by
  induction xs generalizing a ys with
  | nil =>
    cases ys with
    | nil => rfl
    | cons y ys =>
      have hyb : y = b := Option.some.inj (hy.1.1.symm.trans hx.1)
      exact absurd (List.mem_cons.mpr (Or.inl hyb.symm)) hby
  | cons x xs ih =>
    cases ys with
    | nil =>
      have hxb : x = b := Option.some.inj (hx.1.1.symm.trans hy.1)
      exact absurd (List.mem_cons.mpr (Or.inl hxb.symm)) hbx
    | cons y ys =>
      obtain rfl : x = y := Option.some.inj (hx.1.1.symm.trans hy.1.1)
      rw [ih hx.2 hy.2 (List.not_mem_of_not_mem_cons hbx) (List.not_mem_of_not_mem_cons hby)]

/-- The links tell which elements the list of a head has. -/
theorem Ring.unique {m : Mem ι ν} {h : ι} {xs ys : List ι} (hx : Ring m h xs)
    (hy : Ring m h ys) : xs = ys := by
  obtain hsx | ⟨rfl, hnx⟩ := hx.links
  · obtain hsy | ⟨rfl, hny⟩ := hy.links
    · exact hsx.unique hsy (List.nodup_cons.mp hx.nodup).1 (List.nodup_cons.mp hy.nodup).1
    · exact hx.nil_of_unlinked hny
  · exact (hy.nil_of_unlinked hnx).symm
theorem Ring.congr {m m' : Mem ι ν} {h : ι} {xs : List ι} (hr : Ring m h xs)
    (hm : ∀ y ∈ h :: xs, m' y = m y) : Ring m' h xs := by
  have hh := hm h (by simp)
  refine ⟨?_, hr.nodup, by rw [hh]; exact hr.head, fun x hx => ?_⟩
  · obtain hs | ⟨he, hn⟩ := hr.links
    · refine Or.inl (hs.congr (fun y hy => by rw [hm y hy]) fun y hy => ?_)
      rw [hm y (by simpa [or_comm] using hy)]
    · exact Or.inr ⟨he, by rw [hh]; exact hn⟩
  · rw [hm x (List.mem_cons_of_mem _ hx)]
    exact hr.elems x hx

variable [DecidableEq ι]

def setNext (m : Mem ι ν) (i : ι) (j : Option ι) : Mem ι ν :=
  Function.update m i { m i with next := j }

def setPrev (m : Mem ι ν) (i : ι) (j : Option ι) : Mem ι ν :=
  Function.update m i { m i with prev := j }

def setValue (m : Mem ι ν) (i : ι) (v : Option ν) : Mem ι ν :=
  Function.update m i { m i with value := v }

section Fields

variable (m : Mem ι ν) (i j : ι) (k : Option ι) (v : Option ν)

@[simp] theorem setNext_next : (setNext m i k j).next = if j = i then k else (m j).next := by
  by_cases h : j = i
  · subst h; simp [setNext]
  · simp [setNext, h]

@[simp] theorem setNext_prev : (setNext m i k j).prev = (m j).prev := by
  by_cases h : j = i
  · subst h; simp [setNext]
  · simp [setNext, h]

@[simp] theorem setNext_value : (setNext m i k j).value = (m j).value := by
  by_cases h : j = i
  · subst h; simp [setNext]
  · simp [setNext, h]

@[simp] theorem setPrev_next : (setPrev m i k j).next = (m j).next := by
  by_cases h : j = i
  · subst h; simp [setPrev]
  · simp [setPrev, h]

@[simp] theorem setPrev_prev : (setPrev m i k j).prev = if j = i then k else (m j).prev := by
  by_cases h : j = i
  · subst h; simp [setPrev]
  · simp [setPrev, h]

@[simp] theorem setPrev_value : (setPrev m i k j).value = (m j).value := by
  by_cases h : j = i
  · subst h; simp [setPrev]
  · simp [setPrev, h]

@[simp] theorem setValue_value :
    (setValue m i v j).value = if j = i then v else (m j).value := by
  by_cases h : j = i
  · subst h; simp [setValue]
  · simp [setValue, h]

end Fields

/-- `clib_dlist_init`: an element with no links and no value. -/
def init (m : Mem ι ν) (h : ι) : Mem ι ν := Function.update m h ⟨none, none, none⟩

/-- `clib_dlist_addtail`. Undefined where an absent link is followed. -/
def addtail (m : Mem ι ν) (h x : ι) : Option (Mem ι ν) :=
  if (m h).next = none then
    let m := setPrev (setNext m h (some x)) h (some x)
    some (setPrev (setNext m x (some h)) x (some h))
  else do
    let last ← (m h).prev
    let m := setPrev (setNext m x (m last).next) x (some last)
    some (setPrev (setNext m last (some x)) h (some x))

def addhead (m : Mem ι ν) (h x : ι) : Option (Mem ι ν) :=
  match (m h).next with
  | none =>
    let m := setPrev (setNext m h (some x)) h (some x)
    some (setPrev (setNext m x (some h)) x (some h))
  | some first =>
    let m := setPrev (setNext m x (some first)) x (m first).prev
    some (setNext (setPrev m first (some x)) h (some x))

def remove (m : Mem ι ν) (i : ι) : Option (Mem ι ν) := do
  let next ← (m i).next
  let prev ← (m i).prev
  let m := setNext (setPrev m next (some prev)) prev (some next)
  some (setNext (setPrev m i none) i none)

theorem ring_init (m : Mem ι ν) (h : ι) : Ring (init m h) h [] :=
  ⟨Or.inr ⟨rfl, by simp [init]⟩, by simp, by simp [init], by simp⟩

/-- Only the links of the named elements change, and no value does. -/
def Frame (m m' : Mem ι ν) (ys : List ι) : Prop :=
  (∀ y, y ∉ ys → m' y = m y) ∧ ∀ y, (m' y).value = (m y).value

end Vppsb.LinkedRing
