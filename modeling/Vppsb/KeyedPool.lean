import Vppsb.PoolStore

namespace Vppsb.KeyedPool

open Vppsb.PoolStore

variable {α κ : Type}

def findLive (test : α → Bool) (p : Pool α) : Option Nat :=
  (liveIndices p).find? (fun i => test (p.elt i))

theorem findLive_some {test : α → Bool} {p : Pool α} {i : Nat} (h : findLive test p = some i) :
    Live p i ∧ test (p.elt i) = true :=
  ⟨(mem_liveIndices _ _).mp (List.mem_of_find?_eq_some h), by simpa using List.find?_some h⟩

theorem findLive_none {test : α → Bool} {p : Pool α} (h : findLive test p = none) {i : Nat}
    (hi : Live p i) : test (p.elt i) = false := by
  have := List.find?_eq_none.mp h i ((mem_liveIndices _ _).mpr hi)
  simpa using this

theorem findLive_eq_none_iff {test : α → Bool} {p : Pool α} :
    findLive test p = none ↔ ∀ i, Live p i → ¬ test (p.elt i) = true := by
  constructor
  · intro h i hi
    rw [findLive_none h hi]
    exact Bool.false_ne_true
  · intro h
    cases hf : findLive test p with
    | none => rfl
    | some i =>
      obtain ⟨hi, ht⟩ := findLive_some hf
      exact absurd ht (h i hi)

variable (key : α → κ)

def Unique (p : Pool α) : Prop :=
  ∀ i j, Live p i → Live p j → key (p.elt i) = key (p.elt j) → i = j

def Holds (p : Pool α) (k : κ) : Prop := ∃ i, Live p i ∧ key (p.elt i) = k

variable {key} {p : Pool α} {i : Nat} {a : α}

theorem unique_empty (a : α) : Unique key (empty a) :=
  fun i _ hi => absurd hi.1 (Nat.not_lt_zero i)

theorem not_holds_empty (a : α) (k : κ) : ¬ Holds key (empty a) k :=
  fun ⟨i, hi, _⟩ => Nat.not_lt_zero i hi.1

theorem Unique.put (hu : Unique key p) (i : Nat) : Unique key (put p i) := by
  intro j k hj hk h
  exact hu j k ((live_put _ _ _).mp hj).1 ((live_put _ _ _).mp hk).1 h

theorem elt_set_of_ne {j : Nat} (h : j ≠ i) : (set p i a).elt j = p.elt j := by
  rw [elt_set, Function.update_of_ne h]

theorem elt_set_self : (set p i a).elt i = a := by
  rw [elt_set, Function.update_self]

theorem key_set (hk : key a = key (p.elt i)) (j : Nat) :
    key ((set p i a).elt j) = key (p.elt j) := by
  by_cases h : j = i
  · rw [h, elt_set_self, hk]
  · rw [elt_set_of_ne h]

theorem Unique.set (hu : Unique key p) (hk : key a = key (p.elt i)) : Unique key (set p i a) := by
  intro j k hj hk' h
  rw [key_set hk, key_set hk] at h
  exact hu j k hj hk' h

theorem holds_set (hk : key a = key (p.elt i)) (k : κ) :
    Holds key (PoolStore.set p i a) k ↔ Holds key p k := by
  constructor
  · rintro ⟨j, hj, h⟩
    exact ⟨j, hj, by rwa [key_set hk] at h⟩
  · rintro ⟨j, hj, h⟩
    exact ⟨j, hj, by rwa [key_set hk]⟩

theorem holds_put (hu : Unique key p) (hi : Live p i) (k : κ) :
    Holds key (PoolStore.put p i) k ↔ Holds key p k ∧ k ≠ key (p.elt i) := by
  constructor
  · rintro ⟨j, hj, rfl⟩
    obtain ⟨hl, hne⟩ := (live_put _ _ _).mp hj
    exact ⟨⟨j, hl, rfl⟩, fun h => hne (hu j i hl hi h)⟩
  · rintro ⟨⟨j, hj, rfl⟩, hne⟩
    apply Exists.intro j
    refine ⟨(live_put _ _ _).mpr ⟨hj, ?_⟩, rfl⟩
    rintro rfl
    exact hne rfl

def insert (p : Pool α) (a : α) : Pool α := set (get p) (fresh p) a

theorem live_insert (hp : WF p) (j : Nat) : Live (insert p a) j ↔ Live p j ∨ j = fresh p :=
  live_get hp j

theorem elt_insert_old {j : Nat} (hj : Live p j) : (insert p a).elt j = p.elt j := by
  have hne : j ≠ fresh p := ne_fresh hj
  rw [insert, elt_set_of_ne hne, elt_get]

theorem elt_insert_fresh : (insert p a).elt (fresh p) = a := elt_set_self

theorem wf_insert (hp : WF p) : WF (insert p a) := wf_set (wf_get hp) _ _

theorem Unique.insert (hu : Unique key p) (hp : WF p) (hk : ¬ Holds key p (key a)) :
    Unique key (insert p a) := by
  intro j k hj hk' h
  cases (live_insert hp j).mp hj with
  | inl hj =>
    cases (live_insert hp k).mp hk' with
    | inl hk' =>
      rw [elt_insert_old hj, elt_insert_old hk'] at h
      exact hu j k hj hk' h
    | inr hk' =>
      rw [hk', elt_insert_old hj, elt_insert_fresh] at h
      exact absurd ⟨j, hj, h⟩ hk
  | inr hj =>
    cases (live_insert hp k).mp hk' with
    | inl hk' =>
      rw [hj, elt_insert_old hk', elt_insert_fresh] at h
      exact absurd ⟨k, hk', h.symm⟩ hk
    | inr hk' => rw [hj, hk']

theorem holds_insert (hp : WF p) (k : κ) :
    Holds key (KeyedPool.insert p a) k ↔ Holds key p k ∨ k = key a := by
  constructor
  · rintro ⟨j, hj, rfl⟩
    cases (live_insert hp j).mp hj with
    | inl hj => exact Or.inl ⟨j, hj, by rw [elt_insert_old hj]⟩
    | inr hj => exact Or.inr (by rw [hj, elt_insert_fresh])
  · rintro (⟨j, hj, rfl⟩ | rfl)
    · exact ⟨j, (live_insert hp j).mpr (Or.inl hj), by rw [elt_insert_old hj]⟩
    · exact ⟨fresh p, (live_insert hp _).mpr (Or.inr rfl), by rw [elt_insert_fresh]⟩

end Vppsb.KeyedPool
