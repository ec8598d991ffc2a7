import Vppsb.RingEdits

namespace Vppsb.RingFamily

open Vppsb.LinkedRing Vppsb.RingEdits

variable {ι ν κ : Type} {m m' : Mem ι ν} {head : κ → Option ι} {nodes : κ → List ι}

/-- Disjoint rings in one memory, at most one for each key. -/
structure Rings (m : Mem ι ν) (head : κ → Option ι) (nodes : κ → List ι) : Prop where
  ring : ∀ k h, head k = some h → Ring m h (nodes k)
  absent : ∀ k, head k = none → nodes k = []
  heads : ∀ k k' h, head k = some h → head k' = some h → k = k'
  disjoint : ∀ k k' x, x ∈ nodes k → x ∈ nodes k' → k = k'

def Unused (head : κ → Option ι) (nodes : κ → List ι) (x : ι) : Prop :=
  (∀ k, head k ≠ some x) ∧ ∀ k, x ∉ nodes k

namespace Rings

theorem head_of_mem (hr : Rings m head nodes) {k : κ} {x : ι} (hx : x ∈ nodes k) :
    ∃ h, head k = some h ∧ Ring m h (nodes k) := by
  cases hk : head k with
  | none => rw [hr.absent k hk] at hx; simp at hx
  | some h => exact ⟨h, rfl, hr.ring k h hk⟩

theorem value_of_mem (hr : Rings m head nodes) {k : κ} {x : ι} (hx : x ∈ nodes k) :
    (m x).value ≠ none := by
  obtain ⟨h, _, hh⟩ := hr.head_of_mem hx
  exact hh.elems x hx

theorem not_mem_of_head (hr : Rings m head nodes) {k : κ} {h : ι} (hk : head k = some h)
    (k' : κ) : h ∉ nodes k' :=
  fun hx => hr.value_of_mem hx (hr.ring k h hk).head

theorem apart (hr : Rings m head nodes) {k l : κ} {c d x : ι} (hk : head k = some c)
    (hl : head l = some d) (hkl : k ≠ l) (hx : x ∈ c :: nodes k) : x ∉ d :: nodes l := by
  intro hxd
  obtain rfl | hx := List.mem_cons.mp hx <;> obtain rfl | hxd := List.mem_cons.mp hxd
  · exact hkl (hr.heads _ _ _ hk hl)
  · exact hr.not_mem_of_head hk l hxd
  · exact hr.not_mem_of_head hl k hx
  · exact hkl (hr.disjoint _ _ _ hx hxd)

theorem congr (hr : Rings m head nodes)
    (hm : ∀ x, ¬ Unused head nodes x → m' x = m x) : Rings m' head nodes := by
  refine ⟨fun k h hk => (hr.ring k h hk).congr fun y hy => hm y ?_, hr.absent, hr.heads, hr.disjoint⟩
  rintro ⟨h1, h2⟩
  obtain rfl | hy := List.mem_cons.mp hy
  · exact h1 k hk
  · exact h2 k hy

variable [DecidableEq κ]

/-- One ring of the family may be rewritten at will, as long as the memory
outside of it is kept and its elements are its own old ones or unused ones. -/
theorem edit (hr : Rings m head nodes) {k : κ} {h : ι} {xs ys : List ι} (hk : head k = some h)
    (hring : Ring m' h xs) (hf : Frame m m' ys)
    (hys : ∀ y ∈ ys, y = h ∨ y ∈ nodes k ∨ Unused head nodes y)
    (hxs : ∀ x ∈ xs, x ∈ nodes k ∨ Unused head nodes x) :
    Rings m' head (Function.update nodes k xs) := by
  have hkeep : ∀ k' h', k' ≠ k → head k' = some h' → ∀ x ∈ h' :: nodes k', m' x = m x := by
    intro k' h' hne hk' x hx
    apply hf.1
    intro hxy
    have hout := hr.apart hk' hk hne hx
    obtain hxh | hmem | hu := hys x hxy
    · exact hout (List.mem_cons.mpr (Or.inl hxh))
    · exact hout (List.mem_cons_of_mem _ hmem)
    · obtain rfl | hx := List.mem_cons.mp hx
      · exact hu.1 k' hk'
      · exact hu.2 k' hx
  refine ⟨fun k' h' hk' => ?_, fun k' hk' => ?_, hr.heads, fun k₁ k₂ x h₁ h₂ => ?_⟩
  · by_cases hne : k' = k
    · subst hne
      rw [hk] at hk'
      cases hk'
      rwa [Function.update_self]
    · rw [Function.update_of_ne hne]
      exact (hr.ring k' h' hk').congr (hkeep k' h' hne hk')
  · by_cases hne : k' = k
    · subst hne; simp [hk] at hk'
    · rw [Function.update_of_ne hne]; exact hr.absent k' hk'
  · by_cases hne₁ : k₁ = k <;> by_cases hne₂ : k₂ = k
    · rw [hne₁, hne₂]
    · subst hne₁
      rw [Function.update_self] at h₁
      rw [Function.update_of_ne hne₂] at h₂
      obtain h₁ | hu := hxs x h₁
      · exact hr.disjoint _ _ _ h₁ h₂
      · exact absurd h₂ (hu.2 k₂)
    · subst hne₂
      rw [Function.update_self] at h₂
      rw [Function.update_of_ne hne₁] at h₁
      obtain h₂ | hu := hxs x h₂
      · exact hr.disjoint _ _ _ h₁ h₂
      · exact absurd h₁ (hu.2 k₁)
    · rw [Function.update_of_ne hne₁] at h₁
      rw [Function.update_of_ne hne₂] at h₂
      exact hr.disjoint _ _ _ h₁ h₂

/-- All elements of the ring of `k` go over to the ring of `l`. -/
theorem merge (hr : Rings m head nodes) {k l : κ} {c d : ι} (hk : head k = some c)
    (hl : head l = some d) (hkl : k ≠ l) (hc : Ring m' c [])
    (hd : Ring m' d (nodes k ++ nodes l))
    (hf : ∀ y, y ∉ c :: nodes k → y ∉ d :: nodes l → m' y = m y) :
    Rings m' head (Function.update (Function.update nodes k []) l (nodes k ++ nodes l)) := by
  have hmem : ∀ i x, x ∈ Function.update (Function.update nodes k []) l (nodes k ++ nodes l) i →
      i ≠ k ∧ (x ∈ nodes i ∨ i = l ∧ x ∈ nodes k) := by
    intro i x hx
    by_cases hil : i = l
    · subst hil
      rw [Function.update_self] at hx
      exact ⟨hkl.symm, (List.mem_append.mp hx).symm.imp id fun h => ⟨rfl, h⟩⟩
    · rw [Function.update_of_ne hil] at hx
      by_cases hik : i = k
      · subst hik; simp at hx
      · rw [Function.update_of_ne hik] at hx
        exact ⟨hik, Or.inl hx⟩
  refine ⟨fun i h hi => ?_, fun i hi => ?_, hr.heads, fun i j x hx hx' => ?_⟩
  · by_cases hil : i = l
    · subst hil
      rw [hl] at hi
      cases hi
      rwa [Function.update_self]
    · rw [Function.update_of_ne hil]
      by_cases hik : i = k
      · subst hik
        rw [hk] at hi
        cases hi
        rwa [Function.update_self]
      · rw [Function.update_of_ne hik]
        refine (hr.ring i h hi).congr fun y hy => hf y ?_ ?_
        · exact hr.apart hi hk hik hy
        · exact hr.apart hi hl hil hy
  · have hil : i ≠ l := by
      rintro rfl
      simp [hl] at hi
    have hik : i ≠ k := by
      rintro rfl
      simp [hk] at hi
    rw [Function.update_of_ne hil, Function.update_of_ne hik, hr.absent i hi]
  · obtain ⟨hik, hxi⟩ := hmem i x hx
    obtain ⟨hjk, hxj⟩ := hmem j x hx'
    obtain hxi | ⟨hil, hxi⟩ := hxi <;> obtain hxj | ⟨hjl, hxj⟩ := hxj
    · exact hr.disjoint _ _ _ hxi hxj
    · exact absurd (hr.disjoint _ _ _ hxi hxj) hik
    · exact absurd (hr.disjoint _ _ _ hxi hxj).symm hjk
    · rw [hil, hjl]

variable [DecidableEq ι]

theorem addtail (hr : Rings m head nodes) {k : κ} {h x : ι} (hk : head k = some h)
    (hx : Unused head nodes x) (hv : (m x).value ≠ none) :
    ∃ m', LinkedRing.addtail m h x = some m' ∧
      Rings m' head (Function.update nodes k (nodes k ++ [x])) ∧
      ∀ y, (m' y).value = (m y).value := by
  have hxh : x ∉ h :: nodes k :=
    List.not_mem_cons_of_ne_of_not_mem (fun he => hx.1 k (he ▸ hk)) (hx.2 k)
  obtain ⟨m', hm', hring, hf⟩ := addtail_ring (hr.ring k h hk) hxh hv
  refine ⟨m', hm', hr.edit hk hring hf (fun y hy => ?_) (fun y hy => ?_), hf.2⟩
  · simp only [List.mem_cons] at hy
    obtain rfl | rfl | hy := hy
    · exact Or.inl rfl
    · exact Or.inr (Or.inr hx)
    · exact Or.inr (Or.inl hy)
  · obtain hy | hy := List.mem_append.mp hy
    · exact Or.inl hy
    · exact Or.inr (List.mem_singleton.mp hy ▸ hx)

theorem addhead (hr : Rings m head nodes) {k : κ} {h x : ι} (hk : head k = some h)
    (hx : Unused head nodes x) (hv : (m x).value ≠ none) :
    ∃ m', LinkedRing.addhead m h x = some m' ∧
      Rings m' head (Function.update nodes k (x :: nodes k)) ∧
      ∀ y, (m' y).value = (m y).value := by
  have hxh : x ∉ h :: nodes k :=
    List.not_mem_cons_of_ne_of_not_mem (fun he => hx.1 k (he ▸ hk)) (hx.2 k)
  obtain ⟨m', hm', hring, hf⟩ := addhead_ring (hr.ring k h hk) hxh hv
  refine ⟨m', hm', hr.edit hk hring hf (fun y hy => ?_) (fun y hy => ?_), hf.2⟩
  · simp only [List.mem_cons] at hy
    obtain rfl | rfl | hy := hy
    · exact Or.inl rfl
    · exact Or.inr (Or.inr hx)
    · exact Or.inr (Or.inl hy)
  · obtain rfl | hy := List.mem_cons.mp hy
    · exact Or.inr hx
    · exact Or.inl hy

theorem remove (hr : Rings m head nodes) {k : κ} {x : ι} (hx : x ∈ nodes k) :
    ∃ m', LinkedRing.remove m x = some m' ∧
      Rings m' head (Function.update nodes k ((nodes k).erase x)) ∧
      ∀ y, (m' y).value = (m y).value := by
  obtain ⟨h, hk, hring⟩ := hr.head_of_mem hx
  obtain ⟨as, bs, hxs⟩ := List.append_of_mem hx
  rw [hxs] at hring
  obtain ⟨m', hm', hring', hf⟩ := remove_ring hring
  have hxas : x ∉ as := by
    have hn := hring.nodup
    simp only [List.nodup_cons, List.nodup_append, List.mem_cons] at hn
    exact fun hm => hn.2.2.2 x hm x (Or.inl rfl) rfl
  have he : (nodes k).erase x = as ++ bs := by
    rw [hxs, List.erase_append_right _ hxas, List.erase_cons_head]
  rw [← he] at hring'
  refine ⟨m', hm', hr.edit hk hring' hf (fun y hy => ?_) (fun y hy => ?_), hf.2⟩
  · rw [← hxs] at hy
    obtain rfl | hy := List.mem_cons.mp hy
    · exact Or.inl rfl
    · exact Or.inr (Or.inl hy)
  · exact Or.inl (List.mem_of_mem_erase hy)

theorem openHead (hr : Rings m head nodes) {k : κ} {h : ι} (hk : head k = none)
    (hh : Unused head nodes h) :
    Rings (LinkedRing.init m h) (Function.update head k (some h)) nodes := by
  have hm : ∀ k' h', k' ≠ k → head k' = some h' → ∀ x ∈ h' :: nodes k',
      LinkedRing.init m h x = m x := by
    intro k' h' _ hk' x hx
    refine Function.update_of_ne ?_ _ _
    rintro rfl
    obtain rfl | hx := List.mem_cons.mp hx
    · exact hh.1 k' hk'
    · exact hh.2 k' hx
  refine ⟨fun k' h' hk' => ?_, fun k' hk' => ?_, fun k₁ k₂ h' h₁ h₂ => ?_, hr.disjoint⟩
  · by_cases hne : k' = k
    · subst hne
      rw [Function.update_self] at hk'
      cases hk'
      rw [hr.absent k' hk]
      exact ring_init m h
    · rw [Function.update_of_ne hne] at hk'
      exact (hr.ring k' h' hk').congr (hm k' h' hne hk')
  · by_cases hne : k' = k
    · subst hne; simp at hk'
    · rw [Function.update_of_ne hne] at hk'
      exact hr.absent k' hk'
  · by_cases hne₁ : k₁ = k <;> by_cases hne₂ : k₂ = k
    · rw [hne₁, hne₂]
    · subst hne₁
      simp only [Function.update_self, Function.update_of_ne hne₂, Option.some.injEq] at h₁ h₂
      exact absurd h₂ (h₁ ▸ hh.1 k₂)
    · subst hne₂
      simp only [Function.update_self, Function.update_of_ne hne₁, Option.some.injEq] at h₁ h₂
      exact absurd h₁ (h₂ ▸ hh.1 k₁)
    · simp only [Function.update_of_ne hne₁, Function.update_of_ne hne₂] at h₁ h₂
      exact hr.heads _ _ _ h₁ h₂

omit [DecidableEq ι] in
theorem closeHead (hr : Rings m head nodes) {k : κ} (hk : nodes k = []) :
    Rings m (Function.update head k none) nodes := by
  refine ⟨fun k' h' hk' => ?_, fun k' hk' => ?_, fun k₁ k₂ h' h₁ h₂ => ?_, hr.disjoint⟩
  · by_cases hne : k' = k
    · subst hne; simp at hk'
    · rw [Function.update_of_ne hne] at hk'
      exact hr.ring k' h' hk'
  · by_cases hne : k' = k
    · rw [hne, hk]
    · rw [Function.update_of_ne hne] at hk'
      exact hr.absent k' hk'
  · by_cases hne₁ : k₁ = k
    · subst hne₁; simp at h₁
    · by_cases hne₂ : k₂ = k
      · subst hne₂; simp at h₂
      · simp only [Function.update_of_ne hne₁, Function.update_of_ne hne₂] at h₁ h₂
        exact hr.heads _ _ _ h₁ h₂

end Rings

end Vppsb.RingFamily
