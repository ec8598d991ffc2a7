import Vppsb.FlowTable

namespace Vppsb.FlowInvariant

open Vppsb.PoolStore Vppsb.LinkedRing Vppsb.RingFamily Vppsb.FlowSignature Vppsb.FlowTable

def slotHead (i : Nat) : Option Nat := if i < timerMaxLifetime then some i else none

/-- How the five index structures hang together, for the elements `lines` of
the hash lines and `slots` of the slot lists. A line may be empty here. No
element is outside of them. -/
structure Inv (fm : FlowtableMain) (lines : BitVec 64 → List Nat) (slots : Nat → List Nat) :
    Prop where
  flowsWF : WF fm.flows
  linesWF : WF fm.htLines
  timersWF : WF fm.timers
  wheel : fm.timerWheel = List.range timerMaxLifetime
  timeIndex : fm.timeIndex = noIndex ∨ fm.timeIndex < timerMaxLifetime
  cpt : fm.flowsCpt = liveCount fm.flows
  lineRings : Rings fm.htLines.elt fm.flowsHt lines
  slotRings : Rings fm.timers.elt slotHead slots
  lineHead : ∀ k h, fm.flowsHt k = some h → Live fm.htLines h
  slotHeadLive : ∀ i < timerMaxLifetime, Live fm.timers i
  lineElts : ∀ e, Live fm.htLines e → ∃ k h, fm.flowsHt k = some h ∧ e ∈ h :: lines k
  slotElts : ∀ e, Live fm.timers e → ∃ i < timerMaxLifetime, e ∈ i :: slots i
  lineFlow : ∀ k e, e ∈ lines k → Live fm.htLines e ∧ ∃ f, (fm.htLines.elt e).value = some f ∧
    Live fm.flows f ∧ (fm.flows.elt f).htIndex = e ∧ (fm.flows.elt f).sigHash = k
  slotFlow : ∀ i e, e ∈ slots i → Live fm.timers e ∧ ∃ f, (fm.timers.elt e).value = some f ∧
    Live fm.flows f ∧ (fm.flows.elt f).timerIndex = e
  flowLine : ∀ f, Live fm.flows f →
    (fm.flows.elt f).htIndex ∈ lines (fm.flows.elt f).sigHash ∧
    (fm.htLines.elt (fm.flows.elt f).htIndex).value = some f ∧
    fm.flowsHt (fm.flows.elt f).sigHash = some (fm.flows.elt f).htLineIndex
  flowSlot : ∀ f, Live fm.flows f → (∃ i, (fm.flows.elt f).timerIndex ∈ slots i) ∧
    (fm.timers.elt (fm.flows.elt f).timerIndex).value = some f

/-- The flow entries agree on everything that the index structures refer to. -/
def SameLinks (a b : FlowEntry) : Prop :=
  a.sigHash = b.sigHash ∧ a.htIndex = b.htIndex ∧ a.htLineIndex = b.htLineIndex ∧
    a.timerIndex = b.timerIndex

theorem SameLinks.rfl {a : FlowEntry} : SameLinks a a := ⟨Eq.refl _, Eq.refl _, Eq.refl _, Eq.refl _⟩

/-- Every flow occurs in the index structures just as it should, and every
element in use is the head of a list or refers to a flow in use: the property
that holds between any two steps. -/
structure Consistent (fm : FlowtableMain) (lines : BitVec 64 → List Nat)
    (slots : Nat → List Nat) : Prop where
  cpt : fm.flowsCpt = liveCount fm.flows
  wheel : fm.timerWheel = List.range timerMaxLifetime
  line : ∀ k h, fm.flowsHt k = some h →
    Live fm.htLines h ∧ Ring fm.htLines.elt h (lines k) ∧ lines k ≠ []
  slot : ∀ i < timerMaxLifetime, Live fm.timers i ∧ Ring fm.timers.elt i (slots i)
  flowLine : ∀ f, Live fm.flows f →
    fm.flowsHt (fm.flows.elt f).sigHash = some (fm.flows.elt f).htLineIndex ∧
    (fm.flows.elt f).htIndex ∈ lines (fm.flows.elt f).sigHash ∧
    (fm.htLines.elt (fm.flows.elt f).htIndex).value = some f ∧
    ∀ k h e, fm.flowsHt k = some h → e ∈ lines k → (fm.htLines.elt e).value = some f →
      k = (fm.flows.elt f).sigHash ∧ e = (fm.flows.elt f).htIndex
  flowSlot : ∀ f, Live fm.flows f → ∃ i < timerMaxLifetime,
    (fm.flows.elt f).timerIndex ∈ slots i ∧
    (fm.timers.elt (fm.flows.elt f).timerIndex).value = some f ∧
    ∀ j < timerMaxLifetime, ∀ e ∈ slots j, (fm.timers.elt e).value = some f →
      j = i ∧ e = (fm.flows.elt f).timerIndex
  lineLive : ∀ k h e, fm.flowsHt k = some h → e ∈ lines k → Live fm.htLines e ∧
    ∃ f, (fm.htLines.elt e).value = some f ∧ Live fm.flows f
  slotLive : ∀ i < timerMaxLifetime, ∀ e ∈ slots i, Live fm.timers e ∧
    ∃ f, (fm.timers.elt e).value = some f ∧ Live fm.flows f
  lineElts : ∀ e, Live fm.htLines e → ∃ k h, fm.flowsHt k = some h ∧ e ∈ h :: lines k
  slotElts : ∀ e, Live fm.timers e → ∃ i < timerMaxLifetime, e ∈ i :: slots i

theorem lt_of_mem_slot {m : Mem Nat Nat} {slots : Nat → List Nat} (hr : Rings m slotHead slots)
    {i e : Nat} (he : e ∈ slots i) : i < timerMaxLifetime := by
  by_contra hn
  have := hr.absent i (if_neg hn)
  simp [this] at he

namespace Inv

variable {fm : FlowtableMain} {lines : BitVec 64 → List Nat} {slots : Nat → List Nat}

theorem slot_lt (hi : Inv fm lines slots) {i e : Nat} (he : e ∈ slots i) :
    i < timerMaxLifetime := lt_of_mem_slot hi.slotRings he

theorem consistent (hi : Inv fm lines slots)
    (hne : ∀ k h, fm.flowsHt k = some h → lines k ≠ []) : Consistent fm lines slots := by
  refine ⟨hi.cpt, hi.wheel, ?_, ?_, ?_, ?_, ?_, ?_, hi.lineElts, hi.slotElts⟩
  · exact fun k h hk => ⟨hi.lineHead k h hk, hi.lineRings.ring k h hk, hne k h hk⟩
  · exact fun i hlt => ⟨hi.slotHeadLive i hlt, hi.slotRings.ring i i (if_pos hlt)⟩
  · intro f hf
    obtain ⟨hm, hv, hh⟩ := hi.flowLine f hf
    refine ⟨hh, hm, hv, fun k h e _ he hve => ?_⟩
    obtain ⟨_, g, hg, _, hidx, hhash⟩ := hi.lineFlow k e he
    rw [hve] at hg
    cases hg
    exact ⟨hhash.symm, hidx.symm⟩
  · intro f hf
    obtain ⟨⟨i, hm⟩, hv⟩ := hi.flowSlot f hf
    refine ⟨i, hi.slot_lt hm, hm, hv, fun j _ e he hve => ?_⟩
    obtain ⟨_, g, hg, _, hidx⟩ := hi.slotFlow j e he
    rw [hve] at hg
    cases hg
    rw [hidx] at hm
    exact ⟨hi.slotRings.disjoint _ _ _ he hm, hidx.symm⟩
  · intro k h e _ he
    obtain ⟨hl, f, hv, hf, _⟩ := hi.lineFlow k e he
    exact ⟨hl, f, hv, hf⟩
  · intro i _ e he
    obtain ⟨hl, f, hv, hf, _⟩ := hi.slotFlow i e he
    exact ⟨hl, f, hv, hf⟩

theorem setFlow (hi : Inv fm lines slots) {f : Nat} {e : FlowEntry}
    (he : SameLinks e (fm.flows.elt f)) : Inv (setFlow fm f e) lines slots := by
  have hs : ∀ g, SameLinks ((Function.update fm.flows.elt f e) g) (fm.flows.elt g) := by
    intro g
    by_cases hg : g = f
    · subst hg
      rwa [Function.update_self]
    · rw [Function.update_of_ne hg]
      exact SameLinks.rfl
  refine ⟨wf_set hi.flowsWF f e, hi.linesWF, hi.timersWF, hi.wheel, hi.timeIndex, hi.cpt,
    hi.lineRings, hi.slotRings, hi.lineHead, hi.slotHeadLive, hi.lineElts, hi.slotElts, ?_, ?_,
    ?_, ?_⟩
  · intro k x hx
    obtain ⟨hl, g, hv, hg, h1, h2⟩ := hi.lineFlow k x hx
    exact ⟨hl, g, hv, hg, (hs g).2.1.trans h1, (hs g).1.trans h2⟩
  · intro i x hx
    obtain ⟨hl, g, hv, hg, h1⟩ := hi.slotFlow i x hx
    exact ⟨hl, g, hv, hg, (hs g).2.2.2.trans h1⟩
  · intro g hg
    obtain ⟨h1, h2, h3, h4⟩ := hs g
    show _ ∈ lines _ ∧ _
    simp only [FlowTable.setFlow, elt_set]
    rw [h1, h2, h3]
    exact hi.flowLine g hg
  · intro g hg
    simp only [FlowTable.setFlow, elt_set]
    rw [(hs g).2.2.2]
    exact hi.flowSlot g hg

theorem unused_line (hi : Inv fm lines slots) {x : Nat} (hx : ¬ Live fm.htLines x) :
    Unused fm.flowsHt lines x :=
  ⟨fun k hk => hx (hi.lineHead k x hk), fun k hk => hx (hi.lineFlow k x hk).1⟩

theorem unused_timer (hi : Inv fm lines slots) {x : Nat} (hx : ¬ Live fm.timers x) :
    Unused slotHead slots x := by
  refine ⟨fun i hk => hx ?_, fun i hk => hx (hi.slotFlow i x hk).1⟩
  unfold slotHead at hk
  split at hk
  · cases hk
    exact hi.slotHeadLive x ‹_›
  · cases hk

end Inv

end Vppsb.FlowInvariant
