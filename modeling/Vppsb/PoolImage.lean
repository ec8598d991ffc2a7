import Mathlib.Data.Finset.Insert
import Vppsb.KeyedPool

namespace Vppsb.PoolImage

open Vppsb.PoolStore Vppsb.KeyedPool

variable {α β : Type}

/-- What the live entries stand for, where an entry need not stand for anything. -/
def image (g : α → Option β) (p : Pool α) : Set β := {b | ∃ i, Live p i ∧ g (p.elt i) = some b}

def imageBut (g : α → Option β) (p : Pool α) (i : Nat) : Set β :=
  {b | ∃ j, Live p j ∧ j ≠ i ∧ g (p.elt j) = some b}

variable {g f : α → Option β} {p : Pool α} {i : Nat} {a : α} {b : β}

theorem image_empty (a : α) : image g (empty a) = ∅ := by
  ext b
  exact iff_of_false (fun ⟨i, hi, _⟩ => Nat.not_lt_zero i hi.1) id

theorem mem_image_iff (hi : Live p i) : b ∈ image g p ↔ b ∈ imageBut g p i ∨ g (p.elt i) = some b := by
  constructor
  · rintro ⟨j, hj, hg⟩
    by_cases h : j = i
    · exact Or.inr (h ▸ hg)
    · exact Or.inl ⟨j, hj, h, hg⟩
  · rintro (⟨j, hj, _, hg⟩ | hg)
    · exact ⟨j, hj, hg⟩
    · exact ⟨i, hi, hg⟩

theorem mem_image_insert (hp : WF p) : b ∈ image g (insert p a) ↔ b ∈ image g p ∨ g a = some b := by
  constructor
  · rintro ⟨j, hj, hg⟩
    cases (live_insert hp j).mp hj with
    | inl hj => exact Or.inl ⟨j, hj, by rwa [elt_insert_old hj] at hg⟩
    | inr hj =>
      rw [hj, elt_insert_fresh] at hg
      exact Or.inr hg
  · rintro (⟨j, hj, hg⟩ | hg)
    · exact ⟨j, (live_insert hp j).mpr (Or.inl hj), by rwa [elt_insert_old hj]⟩
    · exact ⟨fresh p, (live_insert hp _).mpr (Or.inr rfl), by rwa [elt_insert_fresh]⟩

theorem image_put : image g (put p i) = imageBut g p i := by
  ext b
  constructor
  · rintro ⟨j, hj, hg⟩
    obtain ⟨hj, hne⟩ := (live_put _ _ _).mp hj
    exact ⟨j, hj, hne, hg⟩
  · rintro ⟨j, hj, hne, hg⟩
    exact ⟨j, (live_put _ _ _).mpr ⟨hj, hne⟩, hg⟩

theorem mem_image_set (hi : Live p i) :
    b ∈ image g (set p i a) ↔ b ∈ imageBut g p i ∨ g a = some b := by
  have hi' : Live (set p i a) i := hi
  rw [mem_image_iff hi', elt_set_self]
  apply or_congr_left
  constructor
  · rintro ⟨j, hj, hne, hg⟩
    exact ⟨j, hj, hne, by rwa [elt_set_of_ne hne] at hg⟩
  · rintro ⟨j, hj, hne, hg⟩
    exact ⟨j, hj, hne, by rwa [elt_set_of_ne hne]⟩

theorem image_set (hi : Live p i) (h : g a = g (p.elt i)) : image g (set p i a) = image g p := by
  ext b
  rw [mem_image_set hi, mem_image_iff hi, h]

def Stands [DecidableEq β] (g : α → Option β) (p : Pool α) (s : Finset β) : Prop :=
  ∀ b, b ∈ s ↔ b ∈ image g p

variable [DecidableEq β] {q : Pool α} {s t : Finset β} {o : Option β}

/-- The set gains what one entry stands for. It goes on standing for the live
entries if nothing they stood for is lost. -/
theorem stands_extended (h : Stands g p s) (ht : ∀ b, b ∈ t ↔ b ∈ s ∨ o = some b)
    (hnew : ∀ b, b ∈ image g q → b ∈ image g p ∨ o = some b)
    (ho : ∀ b, o = some b → b ∈ image g p ∨ b ∈ image g q) :
    Stands g q t ↔ image g p ⊆ image g q := by
  constructor
  · intro hq b hb
    exact (hq b).mp ((ht b).mpr (Or.inl ((h b).mpr hb)))
  · intro hsub b
    rw [ht, h b]
    constructor
    · rintro (hb | hb)
      · exact hsub hb
      · exact (ho b hb).elim (fun hp => hsub hp) id
    · exact hnew b

/-- The set loses what one entry stood for, which must not be what others stand
for as well. -/
theorem stands_reduced (h : Stands g p s) (ht : ∀ b, b ∈ t ↔ b ∈ s ∧ o ≠ some b)
    (hp : ∀ b, b ∈ image g p ↔ b ∈ image g q ∨ o = some b) :
    Stands g q t ↔ ∀ b, o = some b → b ∉ image g q := by
  constructor
  · intro hq b hb hm
    exact ((ht b).mp ((hq b).mpr hm)).2 hb
  · intro hno b
    rw [ht, h b, hp]
    constructor
    · rintro ⟨hb | hb, hne⟩
      · exact hb
      · exact absurd hb hne
    · exact fun hb => ⟨Or.inl hb, fun ho => hno b ho hb⟩

end Vppsb.PoolImage
