import Vppsb.FlowCreate

namespace Vppsb.FlowExpire

open Vppsb.PoolStore Vppsb.LinkedRing Vppsb.RingFamily Vppsb.FlowSignature Vppsb.FlowTable
  Vppsb.FlowInvariant Vppsb.FlowCreate

variable {fm : FlowtableMain} {lines : BitVec 64 → List Nat} {slots : Nat → List Nat}

theorem dlistIsEmpty_iff {m : Mem Nat Nat} {h : Nat} {xs : List Nat} (hr : Ring m h xs) :
    dlistIsEmpty m h = true ↔ xs = [] := by
  unfold dlistIsEmpty
  obtain hs | ⟨rfl, hn⟩ := hr.links
  · rw [hs.next_eq]
    cases xs with
    | nil => simp
    | cons x xs =>
      have hx : x ≠ h := fun he => (List.nodup_cons.mp hr.nodup).1 (by simp [he])
      simp [hx]
  · simp [hn]

/-- Every hash line that the bihash knows has an element. -/
def Tidy (fm : FlowtableMain) (lines : BitVec 64 → List Nat) : Prop :=
  ∀ k h, fm.flowsHt k = some h → lines k ≠ []

/-- Flows are only freed, none is changed. -/
def Shrinks (fm fm' : FlowtableMain) : Prop :=
  fm'.flows.elt = fm.flows.elt ∧ ∀ g, Live fm'.flows g → Live fm.flows g

theorem Shrinks.refl (fm : FlowtableMain) : Shrinks fm fm := ⟨rfl, fun _ => id⟩

theorem Shrinks.trans {a b c : FlowtableMain} (hab : Shrinks a b) (hbc : Shrinks b c) :
    Shrinks a c := ⟨hbc.1.trans hab.1, fun g hg => hab.2 g (hbc.2 g hg)⟩

def unlinked (fm : FlowtableMain) (f : Nat) (lm tm : Mem Nat Nat) : FlowtableMain :=
  { fm with
    htLines := put (withElt fm.htLines lm) (fm.flows.elt f).htIndex
    flows := put fm.flows f
    flowsCpt := fm.flowsCpt - 1
    timers := put (withElt fm.timers tm) (fm.flows.elt f).timerIndex }

theorem mem_erase_update {ι κ : Type} [DecidableEq ι] [DecidableEq κ] {nodes : κ → List ι}
    {k k' : κ} {x y : ι} (hd : (nodes k).Nodup) :
    y ∈ Function.update nodes k ((nodes k).erase x) k' ↔ y ∈ nodes k' ∧ (k' = k → y ≠ x) := by
  by_cases hk : k' = k
  · subst hk
    rw [Function.update_self, hd.mem_erase_iff]
    simp [and_comm]
  · rw [Function.update_of_ne hk]
    simp [hk]

theorem mem_cons_erase_update {ι κ : Type} [DecidableEq ι] [DecidableEq κ] {nodes : κ → List ι}
    {k k' : κ} {x y h : ι} (hd : (nodes k).Nodup) (hne : y ≠ x) (hy : y ∈ h :: nodes k') :
    y ∈ h :: Function.update nodes k ((nodes k).erase x) k' :=
  List.mem_cons.mpr ((List.mem_cons.mp hy).imp_right fun hy =>
    (mem_erase_update hd).mpr ⟨hy, fun _ => hne⟩)

section Unlinked

variable {f i : Nat} {lm tm : Mem Nat Nat}

section Lines

variable (hi : Inv fm lines slots) (hf : Live fm.flows f)

include hi hf

theorem nodup_line : (lines (fm.flows.elt f).sigHash).Nodup :=
  (hi.lineRings.ring _ _ (hi.flowLine f hf).2.2).nodup.of_cons

theorem unlinked_lineElts {x : Nat}
    (hx : Live (put (withElt fm.htLines lm) (fm.flows.elt f).htIndex) x) :
    ∃ k h, fm.flowsHt k = some h ∧ x ∈ h :: Function.update lines (fm.flows.elt f).sigHash
      ((lines (fm.flows.elt f).sigHash).erase (fm.flows.elt f).htIndex) k := by
  obtain ⟨hx, hne⟩ := (live_put _ _ _).mp hx
  obtain ⟨k, h, hk, hm⟩ := hi.lineElts x hx
  exact ⟨k, h, hk, mem_cons_erase_update (nodup_line hi hf) hne hm⟩

variable (hlv : ∀ y, (lm y).value = (fm.htLines.elt y).value)

include hlv

theorem unlinked_lineFlow {k : BitVec 64} {x : Nat}
    (hx : x ∈ Function.update lines (fm.flows.elt f).sigHash
      ((lines (fm.flows.elt f).sigHash).erase (fm.flows.elt f).htIndex) k) :
    Live (put (withElt fm.htLines lm) (fm.flows.elt f).htIndex) x ∧ ∃ g, (lm x).value = some g ∧
      Live (put fm.flows f) g ∧ (fm.flows.elt g).htIndex = x ∧ (fm.flows.elt g).sigHash = k := by
  obtain ⟨hx, hne⟩ := (mem_erase_update (nodup_line hi hf)).mp hx
  obtain ⟨hxl, g, hg, hgl, hgi, hgk⟩ := hi.lineFlow k x hx
  have hxf : x ≠ (fm.flows.elt f).htIndex := by
    intro he
    exact hne (hi.lineRings.disjoint _ _ x hx (he ▸ (hi.flowLine f hf).1)) he
  have hgf : g ≠ f := by
    rintro rfl
    exact hxf hgi.symm
  exact ⟨(live_put _ _ _).mpr ⟨hxl, hxf⟩, g, (hlv x).trans hg, (live_put _ _ _).mpr ⟨hgl, hgf⟩,
    hgi, hgk⟩

theorem unlinked_flowLine {g : Nat} (hg : Live (put fm.flows f) g) :
    (fm.flows.elt g).htIndex ∈ Function.update lines (fm.flows.elt f).sigHash
        ((lines (fm.flows.elt f).sigHash).erase (fm.flows.elt f).htIndex)
        (fm.flows.elt g).sigHash ∧
      (lm (fm.flows.elt g).htIndex).value = some g ∧
      fm.flowsHt (fm.flows.elt g).sigHash = some (fm.flows.elt g).htLineIndex := by
  obtain ⟨hgl, hgf⟩ := (live_put _ _ _).mp hg
  obtain ⟨hgm, hgv, hgh⟩ := hi.flowLine g hgl
  refine ⟨(mem_erase_update (nodup_line hi hf)).mpr ⟨hgm, fun _ he => ?_⟩, (hlv _).trans hgv, hgh⟩
  rw [he, (hi.flowLine f hf).2.1] at hgv
  exact hgf (Option.some.inj hgv).symm

end Lines

section Slots

variable (hi : Inv fm lines slots) (hs : (fm.flows.elt f).timerIndex ∈ slots i)

include hi hs

theorem nodup_slot : (slots i).Nodup :=
  (hi.slotRings.ring _ _ (if_pos (hi.slot_lt hs))).nodup.of_cons

theorem unlinked_slotElts {x : Nat}
    (hx : Live (put (withElt fm.timers tm) (fm.flows.elt f).timerIndex) x) :
    ∃ j < timerMaxLifetime,
      x ∈ j :: Function.update slots i ((slots i).erase (fm.flows.elt f).timerIndex) j := by
  obtain ⟨hx, hne⟩ := (live_put _ _ _).mp hx
  obtain ⟨j, hj, hm⟩ := hi.slotElts x hx
  exact ⟨j, hj, mem_cons_erase_update (nodup_slot hi hs) hne hm⟩

variable (htv : ∀ y, (tm y).value = (fm.timers.elt y).value)

include htv

theorem unlinked_slotFlow {j x : Nat}
    (hx : x ∈ Function.update slots i ((slots i).erase (fm.flows.elt f).timerIndex) j) :
    Live (put (withElt fm.timers tm) (fm.flows.elt f).timerIndex) x ∧
      ∃ g, (tm x).value = some g ∧ Live (put fm.flows f) g ∧ (fm.flows.elt g).timerIndex = x := by
  obtain ⟨hx, hne⟩ := (mem_erase_update (nodup_slot hi hs)).mp hx
  obtain ⟨hxl, g, hg, hgl, hgi⟩ := hi.slotFlow j x hx
  have hxf : x ≠ (fm.flows.elt f).timerIndex := by
    intro he
    exact hne (hi.slotRings.disjoint _ _ x hx (he ▸ hs)) he
  have hgf : g ≠ f := by
    rintro rfl
    exact hxf hgi.symm
  exact ⟨(live_put _ _ _).mpr ⟨hxl, hxf⟩, g, (htv x).trans hg, (live_put _ _ _).mpr ⟨hgl, hgf⟩, hgi⟩

theorem unlinked_flowSlot (hf : Live fm.flows f) {g : Nat} (hg : Live (put fm.flows f) g) :
    (∃ j, (fm.flows.elt g).timerIndex ∈
        Function.update slots i ((slots i).erase (fm.flows.elt f).timerIndex) j) ∧
      (tm (fm.flows.elt g).timerIndex).value = some g := by
  obtain ⟨hgl, hgf⟩ := (live_put _ _ _).mp hg
  obtain ⟨⟨j, hgm⟩, hgv⟩ := hi.flowSlot g hgl
  refine ⟨⟨j, (mem_erase_update (nodup_slot hi hs)).mpr ⟨hgm, fun _ he => ?_⟩⟩, (htv _).trans hgv⟩
  rw [he, (hi.flowSlot f hf).2] at hgv
  exact hgf (Option.some.inj hgv).symm

end Slots

theorem unlinked_inv (hi : Inv fm lines slots) (hf : Live fm.flows f)
    (hs : (fm.flows.elt f).timerIndex ∈ slots i)
    (hl : Rings lm fm.flowsHt (Function.update lines (fm.flows.elt f).sigHash
      ((lines (fm.flows.elt f).sigHash).erase (fm.flows.elt f).htIndex)))
    (ht : Rings tm slotHead (Function.update slots i
      ((slots i).erase (fm.flows.elt f).timerIndex)))
    (hlv : ∀ y, (lm y).value = (fm.htLines.elt y).value)
    (htv : ∀ y, (tm y).value = (fm.timers.elt y).value) :
    Inv (unlinked fm f lm tm)
      (Function.update lines (fm.flows.elt f).sigHash
        ((lines (fm.flows.elt f).sigHash).erase (fm.flows.elt f).htIndex))
      (Function.update slots i ((slots i).erase (fm.flows.elt f).timerIndex)) where
  flowsWF := wf_put hi.flowsWF hf
  linesWF := wf_put (wf_withElt hi.linesWF _) (hi.lineFlow _ _ (hi.flowLine f hf).1).1
  timersWF := wf_put (wf_withElt hi.timersWF _) (hi.slotFlow _ _ hs).1
  wheel := hi.wheel
  timeIndex := hi.timeIndex
  cpt := by
    have hc := hi.cpt
    rw [liveCount_put hf] at hc
    show fm.flowsCpt - 1 = liveCount (put fm.flows f)
    omega
  lineRings := hl
  slotRings := ht
  lineHead k h hk := by
    refine (live_put _ _ _).mpr ⟨hi.lineHead k h hk, fun he => ?_⟩
    exact hi.lineRings.not_mem_of_head hk _ (he ▸ (hi.flowLine f hf).1)
  slotHeadLive j hj := by
    refine (live_put _ _ _).mpr ⟨hi.slotHeadLive j hj, fun he => ?_⟩
    exact hi.slotRings.not_mem_of_head (if_pos hj) _ (he ▸ hs)
  lineElts _ hx := unlinked_lineElts hi hf hx
  slotElts _ hx := unlinked_slotElts hi hs hx
  lineFlow _ _ hx := unlinked_lineFlow hi hf hlv hx
  slotFlow _ _ hx := unlinked_slotFlow hi hs htv hx
  flowLine _ hg := unlinked_flowLine hi hf hlv hg
  flowSlot _ hg := unlinked_flowSlot hi hs htv hf hg

end Unlinked

def closed (fm : FlowtableMain) (k : BitVec 64) (h : Nat) : FlowtableMain :=
  { fm with
    htLines := put fm.htLines h
    flowsHt := Function.update fm.flowsHt k none }

theorem closed_inv (hi : Inv fm lines slots) {k : BitVec 64} {h : Nat}
    (hk : fm.flowsHt k = some h) (hn : lines k = []) : Inv (closed fm k h) lines slots := by
  have hold : ∀ k' h', (closed fm k h).flowsHt k' = some h' → k' ≠ k ∧ fm.flowsHt k' = some h' := by
    intro k' h' hk'
    by_cases he : k' = k
    · subst he
      simp [closed] at hk'
    · exact ⟨he, (Function.update_of_ne he _ _).symm.trans hk'⟩
  refine ⟨hi.flowsWF, wf_put hi.linesWF (hi.lineHead k h hk), hi.timersWF, hi.wheel, hi.timeIndex,
    hi.cpt, hi.lineRings.closeHead hn, hi.slotRings, ?_, hi.slotHeadLive, ?_, hi.slotElts, ?_,
    hi.slotFlow, ?_, hi.flowSlot⟩
  · intro k' h' hk'
    obtain ⟨hne, ho⟩ := hold k' h' hk'
    refine (live_put _ _ _).mpr ⟨hi.lineHead k' h' ho, ?_⟩
    rintro rfl
    exact hne (hi.lineRings.heads _ _ _ ho hk)
  · intro x hx
    obtain ⟨hx, hne⟩ := (live_put _ _ _).mp hx
    obtain ⟨k', h', hk', hm⟩ := hi.lineElts x hx
    refine ⟨k', h', (Function.update_of_ne ?_ _ _).trans hk', hm⟩
    rintro rfl
    obtain rfl := Option.some.inj (hk'.symm.trans hk)
    rw [hn] at hm
    exact hne (List.mem_singleton.mp hm)
  · intro k' x hx
    obtain ⟨hl, hg⟩ := hi.lineFlow k' x hx
    refine ⟨(live_put _ _ _).mpr ⟨hl, ?_⟩, hg⟩
    rintro rfl
    exact hi.lineRings.not_mem_of_head hk _ hx
  · intro g hg
    obtain ⟨hm, hv, hh⟩ := hi.flowLine g hg
    refine ⟨hm, hv, ?_⟩
    have hne : (fm.flows.elt g).sigHash ≠ k := fun he => by simp [he, hn] at hm
    exact (Function.update_of_ne hne _ _).trans hh

structure Freed (fm fm₁ : FlowtableMain) (f : Nat) : Prop where
  flows : fm₁.flows = put fm.flows f
  cpt : fm₁.flowsCpt = fm.flowsCpt - 1
  timers : fm₁.timers = fm.timers
  index : fm₁.timeIndex = fm.timeIndex

theorem Freed.shrinks {fm₁ : FlowtableMain} {f : Nat} (hf : Freed fm fm₁ f) : Shrinks fm fm₁ := by
  refine ⟨by rw [hf.flows, elt_put], fun g hg => ?_⟩
  rw [hf.flows] at hg
  exact ((live_put _ _ _).mp hg).1

theorem expire_first (hi : Inv fm lines slots) {i e : Nat} {rest : List Nat}
    (hs : slots i = e :: rest) :
    ∃ f fm₁ tm lines', (fm.timers.elt e).value = some f ∧ (fm.flows.elt f).timerIndex = e ∧
      flowtableEntryRemove fm f = some fm₁ ∧ (fm.timers.elt e).next = some (rest.headD i) ∧
      remove fm.timers.elt e = some tm ∧ (∀ y, (tm y).value = (fm.timers.elt y).value) ∧
      Inv { fm₁ with timers := put (withElt fm₁.timers tm) e } lines' (Function.update slots i rest) ∧
      Freed fm fm₁ f ∧ (Tidy fm lines → Tidy fm₁ lines') := by
  have he : e ∈ slots i := by simp [hs]
  obtain ⟨_, f, hv, hf, rfl⟩ := hi.slotFlow i e he
  obtain ⟨hm, _, hh⟩ := hi.flowLine f hf
  obtain ⟨lm, hlm, hlr, hlv⟩ := hi.lineRings.remove hm
  obtain ⟨tm, htm, htr, htv⟩ := hi.slotRings.remove he
  have hinv := unlinked_inv hi hf he hlr htr hlv htv
  have hring := hlr.ring _ _ hh
  rw [Function.update_self] at hring
  have hnext : (fm.timers.elt (fm.flows.elt f).timerIndex).next = some (rest.headD i) := by
    have hr := hi.slotRings.ring i i (if_pos (hi.slot_lt he))
    rw [hs] at hr
    exact (hr.seg_of_ne_nil (by simp)).2.next_eq
  have herase : (slots i).erase (fm.flows.elt f).timerIndex = rest := by
    rw [hs, List.erase_cons_head]
  rw [herase] at hinv
  by_cases hempty : dlistIsEmpty lm (fm.flows.elt f).htLineIndex = true
  · have hnil := (dlistIsEmpty_iff hring).mp hempty
    refine ⟨f, { closed (unlinked fm f lm tm) _ _ with timers := fm.timers }, tm, _, hv, rfl, ?_,
      hnext, htm, htv, closed_inv hinv hh ?_, ⟨rfl, rfl, rfl, rfl⟩, ?_⟩
    · simp only [flowtableEntryRemove, hlm, Option.bind_eq_bind, Option.bind_some, hempty, if_true]
      rfl
    · rw [Function.update_self]
      exact hnil
    · intro htidy k h hk
      by_cases hkk : k = (fm.flows.elt f).sigHash
      · simp [hkk, closed] at hk
      · rw [Function.update_of_ne hkk]
        exact htidy k h ((Function.update_of_ne hkk _ _).symm.trans hk)
  · have hnil := mt (dlistIsEmpty_iff hring).mpr hempty
    refine ⟨f, { unlinked fm f lm tm with timers := fm.timers }, tm, _, hv, rfl, ?_, hnext, htm,
      htv, hinv, ⟨rfl, rfl, rfl, rfl⟩, ?_⟩
    · simp only [flowtableEntryRemove, hlm, Option.bind_eq_bind, Option.bind_some, hempty]
      rfl
    · intro htidy k h hk
      by_cases hkk : k = (fm.flows.elt f).sigHash
      · rw [hkk, Function.update_self]
        exact hnil
      · rw [Function.update_of_ne hkk]
        exact htidy k h hk

/-- What an expiry does to the flows and to the slots: it frees flows of slot
`i` alone and moves none. -/
structure Drained (fm fm' : FlowtableMain) (slots slots' : Nat → List Nat) (i : Nat) : Prop where
  shrinks : Shrinks fm fm'
  index : fm'.timeIndex = fm.timeIndex
  kept : ∀ j e, e ∈ slots' j → e ∈ slots j
  freed : ∀ g, Live fm.flows g → ¬ Live fm'.flows g → (fm.flows.elt g).timerIndex ∈ slots i

theorem Drained.refl (fm : FlowtableMain) (slots : Nat → List Nat) (i : Nat) :
    Drained fm fm slots slots i :=
  ⟨Shrinks.refl fm, rfl, fun _ _ => id, fun _ hg hn => absurd hg hn⟩

theorem timerExpireLoop_drained (n : Nat) {fm : FlowtableMain} {lines : BitVec 64 → List Nat}
    {slots : Nat → List Nat} (hi : Inv fm lines slots) {i : Nat} (hlt : i < timerMaxLifetime) :
    ∃ r lines' slots', timerExpireLoop n fm ((slots i).headD i) = some r ∧
      Inv r.1 lines' slots' ∧ Drained fm r.1 slots slots' i ∧
      (Tidy fm lines → Tidy r.1 lines') ∧ (r.2 < n → slots' i = []) := by
  induction n generalizing fm lines slots with
  | zero =>
    exact ⟨_, lines, slots, rfl, hi, Drained.refl fm slots i, id, fun h => absurd h (Nat.lt_irrefl 0)⟩
  | succ n ih =>
    cases hs : slots i with
    | nil =>
      have hv := (hi.slotRings.ring i i (if_pos hlt)).head
      refine ⟨(fm, 0), lines, slots, ?_, hi, Drained.refl fm slots i, id, fun _ => hs⟩
      simp only [timerExpireLoop, List.headD_nil, hv]
    | cons e rest =>
      obtain ⟨f, fm₁, tm, lines', hv, hidx, hrem, hnext, htm, _, hinv, hfr, htidy⟩ :=
        expire_first hi hs
      obtain ⟨r, lines'', slots'', hr, hinv', hd, htidy', hall⟩ := ih hinv
      rw [Function.update_self] at hr
      have hshr := hfr.shrinks
      refine ⟨(r.1, r.2 + 1), lines'', slots'', ?_, hinv',
        ⟨hshr.trans hd.shrinks, hd.index.trans hfr.index, ?_, ?_⟩, fun ht => htidy' (htidy ht),
        fun hn => hall (Nat.lt_of_succ_lt_succ hn)⟩
      · simp only [timerExpireLoop, List.headD_cons, hv, hrem, hfr.timers, hnext, htm,
          Option.bind_eq_bind, Option.bind_some]
        rw [hfr.timers] at hr
        rw [hr, Option.bind_some]
      · intro j x hx
        obtain ⟨hx, rfl⟩ | ⟨hx, _⟩ := mem_update (hd.kept j x hx)
        · rw [hs]
          exact List.mem_cons_of_mem e hx
        · exact hx
      · intro g hg hn
        rw [hs]
        by_cases hgf : g = f
        · rw [hgf, hidx]
          exact List.mem_cons_self
        · have hg₁ : Live fm₁.flows g := by
            rw [hfr.flows]
            exact (live_put _ _ _).mpr ⟨hg, hgf⟩
          have hm := hd.freed g hg₁ hn
          rw [Function.update_self] at hm
          rw [← hshr.1]
          exact List.mem_cons_of_mem e hm

theorem flowtableTimerExpire_drained (hi : Inv fm lines slots)
    (ht : fm.timeIndex < timerMaxLifetime) :
    ∃ r lines' slots', flowtableTimerExpire fm = some r ∧ Inv r.1 lines' slots' ∧
      Drained fm r.1 slots slots' fm.timeIndex ∧ (Tidy fm lines → Tidy r.1 lines') ∧
      (r.2 < timerMaxExpire → slots' fm.timeIndex = []) := by
  have hr := hi.slotRings.ring _ _ (if_pos ht)
  have hw : fm.timerWheel[fm.timeIndex]? = some fm.timeIndex := by
    rw [hi.wheel, List.getElem?_range ht]
  by_cases hempty : dlistIsEmpty fm.timers.elt fm.timeIndex = true
  · refine ⟨(fm, 0), lines, slots, ?_, hi, Drained.refl fm slots _, id,
      fun _ => (dlistIsEmpty_iff hr).mp hempty⟩
    simp only [flowtableTimerExpire, hw, hempty, Option.bind_eq_bind, Option.bind_some, if_true]
  · have hne := mt (dlistIsEmpty_iff hr).mpr hempty
    obtain ⟨r, lines', slots', hrun, hspec⟩ := timerExpireLoop_drained timerMaxExpire hi ht
    refine ⟨r, lines', slots', ?_, hspec⟩
    simp only [flowtableTimerExpire, hw, hempty, Option.bind_eq_bind, Option.bind_some,
      (hr.seg_of_ne_nil hne).next_eq]
    exact hrun

theorem flowtableTimerExpire_spec (hi : Inv fm lines slots) (ht : fm.timeIndex < timerMaxLifetime) :
    ∃ r lines' slots', flowtableTimerExpire fm = some r ∧ Inv r.1 lines' slots' ∧
      Shrinks fm r.1 ∧ (Tidy fm lines → Tidy r.1 lines') := by
  obtain ⟨r, lines', slots', hr, hi', hd, htidy, _⟩ := flowtableTimerExpire_drained hi ht
  exact ⟨r, lines', slots', hr, hi', hd.shrinks, htidy⟩

end Vppsb.FlowExpire
