import Vppsb.FlowExpire

namespace Vppsb.FlowWheel

open Vppsb.PoolStore Vppsb.LinkedRing Vppsb.RingEdits Vppsb.RingFamily Vppsb.FlowSignature
  Vppsb.FlowTable Vppsb.FlowInvariant Vppsb.FlowCreate Vppsb.FlowExpire

variable {fm : FlowtableMain} {lines : BitVec 64 → List Nat} {slots : Nat → List Nat}
variable {m m' : Mem Nat Nat} {c d x y z : Nat} {xs ys : List Nat}

/-- The links after a splice of `x :: xs` from the list of `c` to that of `d`,
where `z` is the old first element of the latter or `d` itself. -/
structure Spliced (m m' : Mem Nat Nat) (c d x z last : Nat) : Prop where
  next : ∀ w, w ≠ c →
    (m' w).next = if w = last then some z else if w = d then some x else (m w).next
  prev : ∀ w, w ≠ c →
    (m' w).prev = if w = x then some d else if w = z then some last else (m w).prev
  head : m' c = ⟨none, none, none⟩
  value : ∀ w, w ≠ c → (m' w).value = (m w).value

theorem spliceSlots_eq (hc : Seg m c (x :: xs) c) (hd : Ring m d ys)
    (hn : (c :: (x :: xs) ++ d :: ys).Nodup) :
    ∃ m', spliceSlots m c d = some m' ∧ Spliced m m' c d x (ys.headD d) (xs.getLastD x) := by
  have hp := hc.prev_eq
  rw [List.getLastD_cons] at hp
  have hlast : xs.getLastD x ∈ x :: xs := List.getLastD_mem_cons
  generalize xs.getLastD x = last at hp hlast
  have hdc : d ≠ c := by
    rintro rfl
    simp at hn
  have hld : last ≠ d := by
    rintro rfl
    exact (List.nodup_append.mp hn).2.2 last (List.mem_cons_of_mem _ hlast) last (by simp) rfl
  have hxd : x ≠ d := by
    rintro rfl
    exact (List.nodup_append.mp hn).2.2 x (by simp) x (by simp) rfl
  cases ys with
  | nil =>
    have he := (dlistIsEmpty_iff hd).mpr rfl
    refine ⟨_, by
      simp only [spliceSlots, hp, hc.1.1, he, if_true, Option.bind_eq_bind, Option.bind_some]; rfl,
      fun w hw => ?_, fun w hw => ?_, ?_, fun w hw => ?_⟩
    · simp [init, hw]
    · simp [init, hw]
    · simp [init]
    · simp [init, hw]
  | cons y ys =>
    have he : dlistIsEmpty m d ≠ true := fun he => by simpa using (dlistIsEmpty_iff hd).mp he
    have hy := (hd.seg_of_ne_nil (by simp)).1.1
    refine ⟨_, by
      simp only [spliceSlots, hp, hc.1.1, he, hy, Option.bind_eq_bind, Option.bind_some]; rfl,
      fun w hw => ?_, fun w hw => ?_, ?_, fun w hw => ?_⟩
    · simp [init, hw]
      grind
    · simp [init, hw]
    · simp [init]
    · simp [init, hw]

section Moved

variable (hs : Spliced m m' c d x (ys.headD d) (xs.getLastD x))
  (hn : (c :: (x :: xs) ++ d :: ys).Nodup)

include hs hn

/-- The head of the new slot is in front of the old elements, which lead on to
what it had. -/
theorem Spliced.moved (hc : Seg m x xs c) : Seg m' d (x :: xs) (ys.headD d) := by
  have hlast : xs.getLastD x ∈ x :: xs := List.getLastD_mem_cons
  obtain ⟨hcn, hn'⟩ := List.nodup_cons.mp hn
  obtain ⟨hxs, hys, hdis⟩ := List.nodup_append.mp hn'
  have hcx : ∀ w ∈ x :: xs, w ≠ c := fun w hw he => hcn (he ▸ List.mem_append_left _ hw)
  have hcy : ∀ w ∈ d :: ys, w ≠ c := fun w hw he => hcn (he ▸ List.mem_append_right _ hw)
  have hzm : ys.headD d ∈ d :: ys := by cases ys <;> simp
  have hseg : Seg m' x xs (ys.headD d) := by
    refine Seg.relink_end hc hxs ?_ ?_ (fun w hw hne => ?_) (fun w hw => ?_)
    · rw [hs.next _ (hcx _ hlast), if_pos rfl]
    · rw [hs.prev _ (hcy _ hzm), if_neg (fun he => hdis x (by simp) _ hzm he.symm), if_pos rfl]
    · rw [hs.next _ (hcx _ hw), if_neg hne, if_neg (hdis w hw d (by simp))]
    · have hwx : w ≠ x := fun he => (List.nodup_cons.mp hxs).1 (he ▸ hw)
      have hw' := List.mem_cons_of_mem x hw
      rw [hs.prev _ (hcx _ hw'), if_neg hwx, if_neg (hdis w hw' _ hzm)]
  refine ⟨⟨?_, ?_⟩, hseg⟩
  · rw [hs.next _ (hcy d (by simp)), if_neg (fun he => hdis _ hlast d (by simp) he.symm), if_pos rfl]
  · rw [hs.prev _ (hcx x (by simp)), if_pos rfl]

theorem Spliced.kept {y : Nat} {zs : List Nat} (hys : ys = y :: zs) (hd : Seg m y zs d) :
    Seg m' y zs d := by
  subst hys
  have hlast : xs.getLastD x ∈ x :: xs := List.getLastD_mem_cons
  obtain ⟨hcn, hn'⟩ := List.nodup_cons.mp hn
  obtain ⟨_, hys, hdis⟩ := List.nodup_append.mp hn'
  have hcy : ∀ w ∈ d :: y :: zs, w ≠ c := fun w hw he => hcn (he ▸ List.mem_append_right _ hw)
  refine hd.congr ?_ ?_
  · intro w hw
    have hw' : w ∈ d :: y :: zs := List.mem_cons_of_mem _ hw
    have hwd : w ≠ d := fun he => (List.nodup_cons.mp hys).1 (he ▸ hw)
    rw [hs.next _ (hcy w hw'), if_neg (fun he => hdis _ hlast w hw' he.symm), if_neg hwd]
  · intro w hw
    have hw' : w ∈ d :: y :: zs := by
      simp only [List.mem_append, List.mem_cons] at hw ⊢
      tauto
    have hwy : w ≠ y := by
      rintro rfl
      simp only [List.nodup_cons, List.mem_append, List.mem_cons] at hw hys
      tauto
    rw [hs.prev _ (hcy w hw'), if_neg (fun he => hdis x (by simp) w hw' he.symm), if_neg ?_]
    simpa using hwy

theorem Spliced.ring (hc : Ring m c (x :: xs)) (hd : Ring m d ys) : Ring m' d (x :: xs ++ ys) := by
  have hmoved := hs.moved hn (hc.seg_of_ne_nil (by simp)).2
  obtain ⟨hcn, hn'⟩ := List.nodup_cons.mp hn
  have hvalue : ∀ w ∈ x :: xs ++ d :: ys, (m' w).value = (m w).value :=
    fun w hw => hs.value _ fun he => hcn (he ▸ hw)
  refine ⟨Or.inl ?_, ?_, ?_, fun w hw => ?_⟩
  · cases ys with
    | nil => simpa using hmoved
    | cons y ys =>
      exact (seg_append m' d y d (x :: xs) ys).mpr
        ⟨hmoved, hs.kept hn rfl (hd.seg_of_ne_nil (by simp)).2⟩
  · have hperm : (d :: (x :: xs ++ ys)).Perm (x :: xs ++ d :: ys) := List.perm_middle.symm
    exact hperm.nodup_iff.mpr hn'
  · rw [hvalue d (by simp)]
    exact hd.head
  · obtain hw | hw := List.mem_append.mp hw
    · rw [hvalue w (List.mem_append_left _ hw)]
      exact hc.elems w hw
    · rw [hvalue w (by simp [hw])]
      exact hd.elems w hw

end Moved

theorem Spliced.source (hs : Spliced m m' c d x y z) : Ring m' c [] :=
  ⟨Or.inr ⟨rfl, by rw [hs.head]⟩, by simp, by rw [hs.head], by simp⟩

theorem Spliced.frame (hs : Spliced m m' c d x (ys.headD d) (xs.getLastD x)) {w : Nat}
    (hc : w ∉ c :: x :: xs) (hd : w ∉ d :: ys) : m' w = m w := by
  have hlast : xs.getLastD x ∈ c :: x :: xs := List.mem_cons_of_mem _ List.getLastD_mem_cons
  have hz : ys.headD d ∈ d :: ys := by cases ys <;> simp
  have hwc : w ≠ c := fun he => hc (by simp [he])
  have hwx : w ≠ x := fun he => hc (by simp [he])
  have hwd : w ≠ d := fun he => hd (by simp [he])
  have hwl : w ≠ xs.getLastD x := fun he => hc (he ▸ hlast)
  have hwz : w ≠ ys.headD d := fun he => hd (he ▸ hz)
  apply Node.ext
  · rw [hs.next w hwc, if_neg hwl, if_neg hwd]
  · rw [hs.prev w hwc, if_neg hwx, if_neg hwz]
  · exact hs.value w hwc

theorem spliceSlots_pair (hc : Ring m c xs) (hd : Ring m d ys)
    (hn : (c :: xs ++ d :: ys).Nodup) (hne : xs ≠ []) :
    ∃ m', spliceSlots m c d = some m' ∧ Ring m' c [] ∧ Ring m' d (xs ++ ys) ∧
      (∀ w, w ∉ c :: xs → w ∉ d :: ys → m' w = m w) ∧ ∀ w, (m' w).value = (m w).value := by
  obtain ⟨x, xs, rfl⟩ := List.exists_cons_of_ne_nil hne
  obtain ⟨m', hm', hs⟩ := spliceSlots_eq (hc.seg_of_ne_nil hne) hd hn
  refine ⟨m', hm', hs.source, hs.ring hn hc hd, fun w hw hw' => hs.frame hw hw', fun w => ?_⟩
  by_cases hwc : w = c
  · rw [hwc, hs.head, hc.head]
  · exact hs.value w hwc

theorem nodup_pair {head : Nat → Option Nat} (hr : Rings m head slots) {i j : Nat}
    (hi : head i = some c) (hj : head j = some d) (hij : i ≠ j) :
    (c :: slots i ++ d :: slots j).Nodup := by
  refine List.nodup_append.mpr ⟨(hr.ring i c hi).nodup, (hr.ring j d hj).nodup, ?_⟩
  rintro a ha b hb rfl
  exact hr.apart hi hj hij ha hb

/-- A splice moves the elements of slot `i` in front of those of slot `j`. -/
theorem spliceSlots_spec (hr : Rings m slotHead slots) {i j : Nat} (hi : i < timerMaxLifetime)
    (hj : j < timerMaxLifetime) (hij : i ≠ j) (hne : slots i ≠ []) :
    ∃ m', spliceSlots m i j = some m' ∧
      Rings m' slotHead (Function.update (Function.update slots i []) j (slots i ++ slots j)) ∧
      ∀ y, (m' y).value = (m y).value := by
  have hi' : slotHead i = some i := if_pos hi
  have hj' : slotHead j = some j := if_pos hj
  obtain ⟨m', hm', hc, hd, hf, hv⟩ := spliceSlots_pair (hr.ring i i hi') (hr.ring j j hj')
    (nodup_pair hr hi' hj' hij) hne
  exact ⟨m', hm', hr.merge hi' hj' hij hc hd hf, hv⟩

theorem moved_inv (hi : Inv fm lines slots) {slots' : Nat → List Nat} {tm : Mem Nat Nat} {n : Nat}
    (ht : Rings tm slotHead slots') (hv : ∀ y, (tm y).value = (fm.timers.elt y).value)
    (hm : ∀ e, (∃ i, e ∈ slots' i) ↔ ∃ i, e ∈ slots i) (hn : n = noIndex ∨ n < timerMaxLifetime) :
    Inv { fm with timers := withElt fm.timers tm, timeIndex := n } lines slots' := by
  refine ⟨hi.flowsWF, hi.linesWF, wf_withElt hi.timersWF tm, hi.wheel, hn, hi.cpt, hi.lineRings, ht,
    hi.lineHead, hi.slotHeadLive, hi.lineElts, fun e he => ?_, hi.lineFlow, fun i e he => ?_,
    hi.flowLine, fun f hf => ?_⟩
  · obtain ⟨i, hlt, hmem⟩ := hi.slotElts e he
    obtain rfl | hmem := List.mem_cons.mp hmem
    · exact ⟨e, hlt, List.mem_cons_self⟩
    · obtain ⟨j, hj⟩ := (hm e).mpr ⟨i, hmem⟩
      exact ⟨j, lt_of_mem_slot ht hj, List.mem_cons_of_mem _ hj⟩
  · obtain ⟨j, hj⟩ := (hm e).mp ⟨i, he⟩
    obtain ⟨hl, f, hf⟩ := hi.slotFlow j e hj
    exact ⟨hl, f, (hv e).trans hf.1, hf.2⟩
  · obtain ⟨hs, hf⟩ := hi.flowSlot f hf
    exact ⟨(hm _).mpr hs, (hv _).trans hf⟩

theorem mem_spliced {i j k e : Nat}
    (h : e ∈ Function.update (Function.update slots i []) j (slots i ++ slots j) k) :
    e ∈ slots k ∨ k = j ∧ e ∈ slots i := by
  obtain ⟨h, rfl⟩ | ⟨h, _⟩ := mem_update h
  · exact (List.mem_append.mp h).symm.imp id fun h => ⟨rfl, h⟩
  · obtain ⟨h, _⟩ | ⟨h, _⟩ := mem_update h
    · exact absurd h List.not_mem_nil
    · exact Or.inl h

theorem exists_mem_spliced (slots : Nat → List Nat) (i j e : Nat) :
    (∃ k, e ∈ Function.update (Function.update slots i []) j (slots i ++ slots j) k) ↔
      ∃ k, e ∈ slots k := by
  constructor
  · rintro ⟨k, hk⟩
    exact (mem_spliced hk).elim (fun h => ⟨k, h⟩) fun h => ⟨i, h.2⟩
  · rintro ⟨k, hk⟩
    by_cases hkj : k = i ∨ k = j
    · refine ⟨j, ?_⟩
      rw [Function.update_self]
      obtain rfl | rfl := hkj
      · exact List.mem_append_left _ hk
      · exact List.mem_append_right _ hk
    · rw [not_or] at hkj
      exact ⟨k, by rwa [Function.update_of_ne hkj.2, Function.update_of_ne hkj.1]⟩

theorem mem_requeued {i j k x e : Nat} (hd : (slots i).Nodup)
    (h : e ∈ Function.update (Function.update slots i ((slots i).erase x)) j
      (Function.update slots i ((slots i).erase x) j ++ [x]) k) :
    e = x ∧ k = j ∨ e ∈ slots k ∧ (k = i → e ≠ x) := by
  obtain h | h := (mem_insert_update mem_concat).mp h
  · exact Or.inl h
  · exact Or.inr ((mem_erase_update hd).mp h)

theorem exists_mem_requeued {i x : Nat} (hd : (slots i).Nodup) (hx : x ∈ slots i) (j e : Nat) :
    (∃ k, e ∈ Function.update (Function.update slots i ((slots i).erase x)) j
      (Function.update slots i ((slots i).erase x) j ++ [x]) k) ↔ ∃ k, e ∈ slots k := by
  constructor
  · rintro ⟨k, hk⟩
    obtain ⟨rfl, _⟩ | hk := mem_requeued hd hk
    · exact ⟨i, hx⟩
    · exact ⟨k, hk.1⟩
  · rintro ⟨k, hk⟩
    by_cases he : e = x
    · exact ⟨j, (mem_insert_update mem_concat).mpr (Or.inl ⟨he, rfl⟩)⟩
    · have hk' := (mem_erase_update hd).mpr ⟨hk, fun _ => he⟩
      exact ⟨k, (mem_insert_update mem_concat).mpr (Or.inr hk')⟩

def Moved (slots slots' : Nat → List Nat) (i j : Nat) : Prop :=
  ∀ k e, e ∈ slots' k ↔ if k = j then e ∈ slots i ∨ e ∈ slots j else k ≠ i ∧ e ∈ slots k

theorem moved_of_empty {i : Nat} (h : slots i = []) (j : Nat) : Moved slots slots i j := by
  intro k e
  by_cases hk : k = j
  · subst hk
    simp [h]
  · rw [if_neg hk]
    refine ⟨fun he => ⟨?_, he⟩, And.right⟩
    rintro rfl
    rw [h] at he
    exact absurd he List.not_mem_nil

theorem moved_spliced (slots : Nat → List Nat) (i j : Nat) :
    Moved slots (Function.update (Function.update slots i []) j (slots i ++ slots j)) i j := by
  intro k e
  by_cases hk : k = j
  · subst hk
    rw [Function.update_self, if_pos rfl, List.mem_append]
  · rw [Function.update_of_ne hk, if_neg hk]
    by_cases hi : k = i
    · subst hi
      simp
    · simp [hi]

/-- The change of the slot takes along what the old slot still holds. -/
theorem timerWheelIndexUpdate_moved (hi : Inv fm lines slots) (now : Nat) :
    ∃ tm slots', timerWheelIndexUpdate fm now = some { fm with
        timers := withElt fm.timers tm, timeIndex := now % timerMaxLifetime } ∧
      Inv { fm with timers := withElt fm.timers tm, timeIndex := now % timerMaxLifetime }
        lines slots' ∧ Moved slots slots' fm.timeIndex (now % timerMaxLifetime) := by
  have hnew : now % timerMaxLifetime < timerMaxLifetime := Nat.mod_lt _ (by decide)
  by_cases hno : fm.timeIndex = noIndex
  · have hnone : slots fm.timeIndex = [] := by
      rw [List.eq_nil_iff_forall_not_mem]
      intro e he
      have hlt := hi.slot_lt he
      simp [hno, noIndex, timerMaxLifetime] at hlt
    refine ⟨fm.timers.elt, slots, ?_, ?_, moved_of_empty hnone _⟩
    · simp only [timerWheelIndexUpdate, hno, if_true]
      rfl
    · exact moved_inv hi hi.slotRings (fun _ => rfl) (fun _ => Iff.rfl) (Or.inr hnew)
  have hcur := hi.timeIndex.resolve_left hno
  by_cases hsame : now % timerMaxLifetime = fm.timeIndex
  · rw [hsame]
    refine ⟨fm.timers.elt, slots, ?_, ?_, fun k e => ?_⟩
    · simp only [timerWheelIndexUpdate, hno, hsame, if_true, if_false]
      rfl
    · exact moved_inv hi hi.slotRings (fun _ => rfl) (fun _ => Iff.rfl) (Or.inr hcur)
    · by_cases hk : k = fm.timeIndex
      · rw [if_pos hk, hk, or_self]
      · rw [if_neg hk, and_iff_right hk]
  have hw : ∀ k < timerMaxLifetime, fm.timerWheel[k]? = some k := by
    intro k hk
    rw [hi.wheel, List.getElem?_range hk]
  have hring := hi.slotRings.ring _ _ (if_pos hcur)
  by_cases hempty : dlistIsEmpty fm.timers.elt fm.timeIndex = true
  · refine ⟨fm.timers.elt, slots, ?_, ?_, moved_of_empty ((dlistIsEmpty_iff hring).mp hempty) _⟩
    · simp only [timerWheelIndexUpdate, hno, hsame, if_false, hw _ hcur, hw _ hnew, hempty, if_true,
        Option.bind_eq_bind, Option.bind_some]
      rfl
    · exact moved_inv hi hi.slotRings (fun _ => rfl) (fun _ => Iff.rfl) (Or.inr hnew)
  · have hne := mt (dlistIsEmpty_iff hring).mpr hempty
    obtain ⟨tm, htm, hr, hv⟩ := spliceSlots_spec hi.slotRings hcur hnew (Ne.symm hsame) hne
    have hmem := exists_mem_spliced slots fm.timeIndex (now % timerMaxLifetime)
    refine ⟨tm, _, ?_, moved_inv hi hr hv hmem (Or.inr hnew), moved_spliced slots _ _⟩
    simp only [timerWheelIndexUpdate, hno, hsame, if_false, hw _ hcur, hw _ hnew, hempty,
      Option.bind_eq_bind, Option.bind_some, htm]
    rfl

theorem Moved.cases {slots slots' : Nat → List Nat} {i j k e : Nat} (hm : Moved slots slots' i j)
    (he : e ∈ slots' k) : e ∈ slots k ∨ k = j ∧ e ∈ slots i := by
  have h := (hm k e).mp he
  by_cases hk : k = j
  · subst hk
    rw [if_pos rfl] at h
    exact h.symm.imp id fun h => ⟨rfl, h⟩
  · rw [if_neg hk] at h
    exact Or.inl h.2

theorem timerWheelIndexUpdate_spec (hi : Inv fm lines slots) (now : Nat) :
    ∃ tm n slots', timerWheelIndexUpdate fm now =
        some { fm with timers := withElt fm.timers tm, timeIndex := n } ∧
      Inv { fm with timers := withElt fm.timers tm, timeIndex := n } lines slots' ∧
      n < timerMaxLifetime := by
  obtain ⟨tm, slots', hw, hi', _⟩ := timerWheelIndexUpdate_moved hi now
  exact ⟨tm, _, slots', hw, hi', Nat.mod_lt _ (by decide)⟩

theorem timerWheelReschedFlow_slots (hi : Inv fm lines slots) {f : Nat} (hf : Live fm.flows f)
    (now : Nat) :
    ∃ tm slots', timerWheelReschedFlow fm f now =
        some (setFlow { fm with timers := withElt fm.timers tm } f
          { fm.flows.elt f with expire := u32 (now + (fm.flows.elt f).lifetime) }) ∧
      Inv (setFlow { fm with timers := withElt fm.timers tm } f
        { fm.flows.elt f with expire := u32 (now + (fm.flows.elt f).lifetime) }) lines slots' ∧
      ∀ k e, e ∈ slots' k → e = (fm.flows.elt f).timerIndex ∧ k = slotOf fm (fm.flows.elt f).lifetime ∨
        e ∈ slots k ∧ e ≠ (fm.flows.elt f).timerIndex := by
  obtain ⟨⟨i, hm⟩, hv⟩ := hi.flowSlot f hf
  have hnd := nodup_slot hi hm
  obtain ⟨tm, htm, hr, hval⟩ := hi.slotRings.remove hm
  have hu : Unused slotHead (Function.update slots i
      ((slots i).erase (fm.flows.elt f).timerIndex)) (fm.flows.elt f).timerIndex := by
    refine ⟨fun k hk => hi.slotRings.not_mem_of_head hk i hm, fun k hk => ?_⟩
    obtain ⟨hk, hne⟩ := (mem_erase_update hnd).mp hk
    exact hne (hi.slotRings.disjoint _ _ _ hk hm) rfl
  obtain ⟨tm', htm', hr', hval'⟩ := hr.addtail (slotHead_slotOf fm (fm.flows.elt f).lifetime) hu
    (by rw [hval, hv]; simp)
  have hmem := exists_mem_requeued hnd hm (slotOf fm (fm.flows.elt f).lifetime)
  have hinv := moved_inv hi hr' (fun y => (hval' y).trans (hval y)) hmem hi.timeIndex
  refine ⟨tm', _, ?_, hinv.setFlow ⟨rfl, rfl, rfl, rfl⟩, fun k e he => ?_⟩
  · simp only [timerWheelReschedFlow, htm, timerWheelInsertFlow, setFlow, elt_set,
      Function.update_self, elt_withElt, Option.bind_eq_bind, Option.bind_some]
    rw [show u32 (fm.timeIndex + (fm.flows.elt f).lifetime) % timerMaxLifetime =
      slotOf fm (fm.flows.elt f).lifetime from rfl, htm']
    rfl
  · refine (mem_requeued hnd he).imp_right fun h => ⟨h.1, ?_⟩
    rintro rfl
    exact h.2 (hi.slotRings.disjoint _ _ _ h.1 hm) rfl

theorem timerWheelReschedFlow_spec (hi : Inv fm lines slots) {f : Nat} (hf : Live fm.flows f)
    (now : Nat) :
    ∃ tm expire slots', timerWheelReschedFlow fm f now =
        some (setFlow { fm with timers := withElt fm.timers tm } f
          { fm.flows.elt f with expire := expire }) ∧
      Inv (setFlow { fm with timers := withElt fm.timers tm } f
        { fm.flows.elt f with expire := expire }) lines slots' := by
  obtain ⟨tm, slots', hr, hi', _⟩ := timerWheelReschedFlow_slots hi hf now
  exact ⟨tm, _, slots', hr, hi'⟩

end Vppsb.FlowWheel
