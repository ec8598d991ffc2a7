import Vppsb.LinkedRing

namespace Vppsb.RingEdits

open Vppsb.LinkedRing

variable {ι ν : Type} {m m' : Mem ι ν} {a b c h x : ι} {xs ys zs : List ι}

theorem last_next (hs : Seg m a xs b) : (m (xs.getLastD a)).next = some b := by
  induction xs generalizing a with
  | nil => exact hs.1
  | cons y ys ih => rw [List.getLastD_cons]; exact ih hs.2

theorem first_prev (hs : Seg m a xs b) : (m (xs.headD b)).prev = some a := by
  cases xs with
  | nil => exact hs.2
  | cons y ys => exact hs.1.2

/-- Replacing the end of a segment needs only the two links at that end. -/
theorem Seg.relink_end (hs : Seg m a xs b) (hn : (a :: xs).Nodup)
    (h1 : (m' (xs.getLastD a)).next = some c) (h2 : (m' c).prev = some (xs.getLastD a))
    (h3 : ∀ y ∈ a :: xs, y ≠ xs.getLastD a → (m' y).next = (m y).next)
    (h4 : ∀ y ∈ xs, (m' y).prev = (m y).prev) : Seg m' a xs c := by
  induction xs generalizing a with
  | nil => exact ⟨h1, h2⟩
  | cons y ys ih =>
    obtain ⟨⟨hy1, hy2⟩, hys⟩ := hs
    obtain ⟨ha, hn'⟩ := List.nodup_cons.mp hn
    rw [List.getLastD_cons] at h1 h2 h3
    have hne : a ≠ ys.getLastD y := fun he => ha (he ▸ List.getLastD_mem_cons)
    refine ⟨⟨(h3 a (by simp) hne).trans hy1, (h4 y (by simp)).trans hy2⟩, ih hys hn' h1 h2 ?_ ?_⟩
    · exact fun z hz => h3 z (List.mem_cons_of_mem _ hz)
    · exact fun z hz => h4 z (List.mem_cons_of_mem _ hz)

theorem Seg.relink_start (hs : Seg m a xs b) (hn : (xs ++ [b]).Nodup)
    (h1 : (m' c).next = some (xs.headD b)) (h2 : (m' (xs.headD b)).prev = some c)
    (h3 : ∀ y ∈ xs, (m' y).next = (m y).next)
    (h4 : ∀ y ∈ xs ++ [b], y ≠ xs.headD b → (m' y).prev = (m y).prev) : Seg m' c xs b := by
  cases xs with
  | nil => exact ⟨h1, h2⟩
  | cons y ys =>
    have hy : y ∉ ys ++ [b] := (List.nodup_cons.mp hn).1
    refine ⟨⟨h1, h2⟩, hs.2.congr h3 fun z hz => h4 z (List.mem_cons_of_mem _ hz) ?_⟩
    rintro rfl
    exact hy hz

/-- Two segments that meet in an element become one without it, when the last
element `b` before it and the first one `c` after it are linked. -/
theorem Seg.join {d : ι} (h1 : Seg m a xs x) (h2 : Seg m x ys d) (hn1 : (a :: xs).Nodup)
    (hn2 : (ys ++ [d]).Nodup) (hd1 : ∀ y ∈ xs, y ∉ ys ++ [d]) (hd2 : ∀ y ∈ ys, y ∉ a :: xs)
    (hb : xs.getLastD a = b) (hc : ys.headD d = c) (hnext : (m' b).next = some c)
    (hprev : (m' c).prev = some b)
    (h3 : ∀ y ∈ a :: (xs ++ ys), y ≠ b → (m' y).next = (m y).next)
    (h4 : ∀ y ∈ xs ++ (ys ++ [d]), y ≠ c → (m' y).prev = (m y).prev) : Seg m' a (xs ++ ys) d := by
  have hbm : b ∈ a :: xs := hb ▸ List.getLastD_mem_cons
  have hcm : c ∈ ys ++ [d] := by
    rw [← hc]
    cases ys <;> simp
  have hleft : Seg m' a xs c := by
    refine Seg.relink_end h1 hn1 (hb ▸ hnext) (hb ▸ hprev) (fun y hy hne => ?_) fun y hy => ?_
    · refine h3 y ?_ (hb ▸ hne)
      exact (List.mem_cons.mp hy).elim (fun h => by simp [h]) fun h => by simp [h]
    · exact h4 y (List.mem_append_left _ hy) fun he => hd1 y hy (he ▸ hcm)
  cases ys with
  | nil =>
    have hd : d = c := hc
    rw [List.append_nil, hd]
    exact hleft
  | cons z ys =>
    have hz : z = c := hc
    subst hz
    refine (seg_append _ _ _ _ _ _).mpr ⟨hleft, h2.2.congr (fun y hy => ?_) fun y hy => ?_⟩
    · exact h3 y (List.mem_cons_of_mem _ (List.mem_append_right _ hy))
        fun he => hd2 y hy (he ▸ hbm)
    · exact h4 y (List.mem_append_right _ (List.mem_cons_of_mem _ hy))
        fun he => (List.nodup_cons.mp hn2).1 (he ▸ hy)

variable [DecidableEq ι]

theorem setNext_of_ne (m : Mem ι ν) {i j : ι} (k : Option ι) (hj : j ≠ i) :
    setNext m i k j = m j := by simp [setNext, hj]

theorem setPrev_of_ne (m : Mem ι ν) {i j : ι} (k : Option ι) (hj : j ≠ i) :
    setPrev m i k j = m j := by simp [setPrev, hj]

theorem single_ring (hr : Ring m h []) (hx : x ≠ h) (hv : (m x).value ≠ none) :
    Ring (setPrev (setNext (setPrev (setNext m h (some x)) h (some x)) x (some h)) x (some h)) h [x] ∧
      Frame m (setPrev (setNext (setPrev (setNext m h (some x)) h (some x)) x (some h)) x (some h))
        [h, x] := by
  refine ⟨⟨Or.inl ?_, ?_, ?_, ?_⟩, ?_, ?_⟩
  · simp [Seg, hx.symm]
  · simp [hx.symm]
  · simpa using hr.head
  · simpa using hv
  · intro y hy
    simp only [List.mem_cons, not_or] at hy
    rw [setPrev_of_ne _ _ hy.2.1, setNext_of_ne _ _ hy.2.1, setPrev_of_ne _ _ hy.1,
      setNext_of_ne _ _ hy.1]
  · simp

theorem addtail_ring (hr : Ring m h xs) (hx : x ∉ h :: xs) (hv : (m x).value ≠ none) :
    ∃ m', addtail m h x = some m' ∧ Ring m' h (xs ++ [x]) ∧ Frame m m' (h :: x :: xs) := by
  have hxh : x ≠ h := fun he => hx (by simp [he])
  have hn : (h :: (xs ++ [x])).Nodup := by
    have := hr.nodup
    simp only [List.nodup_cons, List.mem_cons, not_or, List.nodup_append, List.mem_append] at *
    grind
  by_cases he : (m h).next = none
  · obtain rfl := hr.nil_of_unlinked he
    exact ⟨_, by rw [addtail, if_pos he], single_ring hr hxh hv⟩
  · have hs : Seg m h xs h := hr.links.resolve_right (fun hl => he hl.2)
    have hl := hs.prev_eq
    have hln := last_next hs
    have hlm : xs.getLastD h ∈ h :: xs := List.getLastD_mem_cons
    generalize hd : xs.getLastD h = last at hl hln hlm
    have hlx : last ≠ x := fun h' => hx (h' ▸ hlm)
    refine ⟨_, by rw [addtail, if_neg he, hl]; rfl, ⟨Or.inl ?_, hn, ?_, ?_⟩, ?_, ?_⟩
    · refine (seg_append _ _ _ _ _ _).mpr ⟨?_, ?_⟩
      · refine Seg.relink_end hs hr.nodup (by rw [hd]; simp) (by rw [hd]; simp [hxh]) ?_ ?_
        · intro y hy hyl
          rw [hd] at hyl
          have : y ≠ x := fun h' => hx (h' ▸ hy)
          simp [hyl, this]
        · intro y hy
          have h1 : y ≠ x := fun h' => hx (by simp [← h', hy])
          have h2 : y ≠ h := fun h' => (List.nodup_cons.mp hr.nodup).1 (h' ▸ hy)
          simp [h1, h2]
      · simp [Seg, hlx.symm, hln]
    · simpa using hr.head
    · intro y hy
      obtain hy | hy := List.mem_append.mp hy
      · simpa using hr.elems y hy
      · simpa [List.mem_singleton.mp hy] using hv
    · intro y hy
      simp only [List.mem_cons, not_or] at hy
      have hyl : y ≠ last := by
        rintro rfl
        exact (List.mem_cons.mp hlm).elim hy.1 hy.2.2
      rw [setPrev_of_ne _ _ hy.1, setNext_of_ne _ _ hyl, setPrev_of_ne _ _ hy.2.1,
        setNext_of_ne _ _ hy.2.1]
    · simp

theorem addhead_ring (hr : Ring m h xs) (hx : x ∉ h :: xs) (hv : (m x).value ≠ none) :
    ∃ m', addhead m h x = some m' ∧ Ring m' h (x :: xs) ∧ Frame m m' (h :: x :: xs) := by
  have hxh : x ≠ h := fun he => hx (by simp [he])
  have hn : (h :: x :: xs).Nodup := by
    have := hr.nodup
    simp only [List.nodup_cons, List.mem_cons, not_or] at *
    exact ⟨⟨hxh.symm, this.1⟩, hx.2, this.2⟩
  by_cases he : (m h).next = none
  · obtain rfl := hr.nil_of_unlinked he
    exact ⟨_, by rw [addhead, he], single_ring hr hxh hv⟩
  · have hs : Seg m h xs h := hr.links.resolve_right (fun hl => he hl.2)
    have hf := hs.next_eq
    have hfp := first_prev hs
    have hfm : xs.headD h ∈ h :: xs := by cases xs <;> simp
    generalize hd : xs.headD h = first at hf hfp hfm
    have hfx : first ≠ x := fun h' => hx (h' ▸ hfm)
    refine ⟨_, by rw [addhead, hf], ⟨Or.inl ?_, hn, ?_, ?_⟩, ?_, ?_⟩
    · refine ⟨by simp [hfx.symm, hfp], Seg.relink_start hs ?_ ?_ ?_ ?_ ?_⟩
      · exact (List.perm_append_singleton h xs).nodup_iff.mpr hr.nodup
      · rw [hd]; simp [hxh]
      · rw [hd]; simp
      · intro y hy
        have h1 : y ≠ x := fun h' => hx (by simp [← h', hy])
        have h2 : y ≠ h := fun h' => (List.nodup_cons.mp hr.nodup).1 (h' ▸ hy)
        simp [h1, h2]
      · intro y hy hyf
        rw [hd] at hyf
        have : y ≠ x := fun h' => hx (h' ▸ by simpa [or_comm] using hy)
        simp [hyf, this]
    · simpa using hr.head
    · intro y hy
      obtain rfl | hy := List.mem_cons.mp hy
      · simpa using hv
      · simpa using hr.elems y hy
    · intro y hy
      simp only [List.mem_cons, not_or] at hy
      have hyf : y ≠ first := by
        rintro rfl
        exact (List.mem_cons.mp hfm).elim hy.1 hy.2.2
      rw [setNext_of_ne _ _ hy.1, setPrev_of_ne _ _ hyf, setPrev_of_ne _ _ hy.2.1,
        setNext_of_ne _ _ hy.2.1]
    · simp

theorem remove_ring (hr : Ring m h (xs ++ x :: ys)) :
    ∃ m', remove m x = some m' ∧ Ring m' h (xs ++ ys) ∧ Frame m m' (h :: (xs ++ x :: ys)) := by
  have hs := hr.seg_of_ne_nil (by simp)
  obtain ⟨h1, h2⟩ := (seg_append _ _ _ _ _ _).mp hs
  have hn := hr.nodup
  have hpx := h1.prev_eq
  have hnx := h2.next_eq
  have hpm : xs.getLastD h ∈ h :: xs := List.getLastD_mem_cons
  have hnm : ys.headD h ∈ ys ++ [h] := by cases ys <;> simp
  have hxm : x ∉ h :: xs ∧ x ∉ ys ++ [h] ∧ (h :: xs).Nodup ∧ (ys ++ [h]).Nodup ∧
      (∀ y ∈ xs, y ∉ ys ++ [h]) ∧ ∀ y ∈ ys, y ∉ h :: xs := by
    simp only [List.nodup_cons, List.nodup_append, List.mem_append, List.mem_cons] at hn ⊢
    grind
  obtain ⟨hx1, hx2, hn1, hn2, hd1, hd2⟩ := hxm
  generalize hp : xs.getLastD h = p at hpx hpm
  generalize hq : ys.headD h = q at hnx hnm
  have hpx' : p ≠ x := fun he => hx1 (he ▸ hpm)
  have hqx' : q ≠ x := fun he => hx2 (he ▸ hnm)
  refine ⟨_, by rw [remove, hnx, hpx]; rfl, ⟨Or.inl ?_, ?_, ?_, ?_⟩, ?_, ?_⟩
  · refine Seg.join h1 h2 hn1 hn2 hd1 hd2 hp hq (by simp [hpx']) (by simp [hqx']) ?_ ?_
    · intro y hy hyp
      have hyx : y ≠ x := by
        rintro rfl
        obtain hy | hy := List.mem_append.mp (List.cons_append ▸ hy : y ∈ (h :: xs) ++ ys)
        · exact hx1 hy
        · exact hx2 (List.mem_append_left _ hy)
      simp [hyp, hyx]
    · intro y hy hyq
      have hyx : y ≠ x := by
        rintro rfl
        obtain hy | hy := List.mem_append.mp hy
        · exact hx1 (List.mem_cons_of_mem _ hy)
        · exact hx2 hy
      simp [hyq, hyx]
  · simp only [List.nodup_cons, List.nodup_append, List.mem_append, List.mem_cons] at hn ⊢
    grind
  · simpa using hr.head
  · intro y hy
    simpa using hr.elems y (by simp only [List.mem_append, List.mem_cons] at *; tauto)
  · intro y hy
    simp only [List.mem_append, List.mem_cons, not_or] at hy
    have hyp : y ≠ p := by
      rintro rfl
      exact (List.mem_cons.mp hpm).elim hy.1 hy.2.1
    have hyq : y ≠ q := by
      rintro rfl
      obtain hm | hm := List.mem_append.mp hnm
      · exact hy.2.2.2 hm
      · exact hy.1 (List.mem_singleton.mp hm)
    rw [setNext_of_ne _ _ hy.2.2.1, setPrev_of_ne _ _ hy.2.2.1, setNext_of_ne _ _ hyp,
      setPrev_of_ne _ _ hyq]
  · simp

end Vppsb.RingEdits
