import Vppsb.FlowProcess
import Vppsb.FlowWheel

namespace Vppsb.FlowLookup

open Vppsb.PoolStore Vppsb.LinkedRing Vppsb.RingFamily Vppsb.FlowSignature Vppsb.FlowTable
  Vppsb.FlowProcess Vppsb.FlowInvariant Vppsb.FlowCreate Vppsb.FlowExpire Vppsb.FlowWheel

variable {fm : FlowtableMain} {lines : BitVec 64 → List Nat} {slots : Nat → List Nat}

def lineFlows (fm : FlowtableMain) (xs : List Nat) : List Nat :=
  xs.filterMap (fun e => (fm.htLines.elt e).value)

def matchesSig (fm : FlowtableMain) (sig : Bytes) (sigLen : Nat) (f : Nat) : Bool :=
  sameBytes (fm.flows.elt f).sig sig sigLen

theorem lookupLine_eq (sig : Bytes) (sigLen : Nat) {n a h : Nat} {xs : List Nat}
    (hs : Seg fm.htLines.elt a xs h) (hh : (fm.htLines.elt h).value = none)
    (he : ∀ x ∈ xs, (fm.htLines.elt x).value ≠ none) (hn : xs.length < n) :
    lookupLine fm sig sigLen n (fm.htLines.elt a).next =
      some ((lineFlows fm xs).find? (matchesSig fm sig sigLen)) := by
  induction xs generalizing a n with
  | nil =>
    obtain ⟨n, rfl⟩ := Nat.exists_eq_succ_of_ne_zero (Nat.ne_of_gt hn)
    rw [hs.1]
    simp only [lookupLine, hh]
    rfl
  | cons x xs ih =>
    obtain ⟨n, rfl⟩ := Nat.exists_eq_succ_of_ne_zero (Nat.ne_of_gt (Nat.zero_lt_of_lt hn))
    obtain ⟨f, hf⟩ := Option.ne_none_iff_exists'.mp (he x (by simp))
    have ih' := ih (n := n) hs.2 (fun y hy => he y (by simp [hy]))
      (by simpa using Nat.lt_of_succ_lt_succ hn)
    have hl : lineFlows fm (x :: xs) = f :: lineFlows fm xs := by simp [lineFlows, hf]
    rw [hs.1.1, hl, List.find?_cons]
    simp only [lookupLine, hf]
    rw [ih']
    by_cases hm : sameBytes (fm.flows.elt f).sig sig sigLen = true
    · simp [matchesSig, hm]
    · simp [matchesSig, hm]

theorem updateLine_eq (sig : Bytes) (sigLen : Nat) {n a h : Nat} {xs : List Nat}
    (flow : Option Nat)
    (hs : Seg fm.htLines.elt a xs h) (hh : (fm.htLines.elt h).value = none)
    (he : ∀ x ∈ xs, (fm.htLines.elt x).value ≠ none) (hn : xs.length < n) :
    updateLine fm sig sigLen n (fm.htLines.elt a).next flow =
      some (((lineFlows fm xs).find? (matchesSig fm sig sigLen)).or
        ((lineFlows fm xs).getLast?.or flow)) := by
  induction xs generalizing a n flow with
  | nil =>
    obtain ⟨n, rfl⟩ := Nat.exists_eq_succ_of_ne_zero (Nat.ne_of_gt hn)
    rw [hs.1]
    simp only [updateLine, hh]
    rfl
  | cons x xs ih =>
    obtain ⟨n, rfl⟩ := Nat.exists_eq_succ_of_ne_zero (Nat.ne_of_gt (Nat.zero_lt_of_lt hn))
    obtain ⟨f, hf⟩ := Option.ne_none_iff_exists'.mp (he x (by simp))
    have ih' := ih (n := n) (some f) hs.2 (fun y hy => he y (by simp [hy]))
      (by simpa using Nat.lt_of_succ_lt_succ hn)
    have hl : lineFlows fm (x :: xs) = f :: lineFlows fm xs := by simp [lineFlows, hf]
    have hlast : ((f :: lineFlows fm xs).getLast?).or flow =
        (lineFlows fm xs).getLast?.or (some f) := by
      rw [List.getLast?_cons]
      cases (lineFlows fm xs).getLast? <;> rfl
    rw [hs.1.1, hl, List.find?_cons, hlast]
    simp only [updateLine, hf]
    rw [ih']
    by_cases hm : sameBytes (fm.flows.elt f).sig sig sigLen = true
    · simp [matchesSig, hm]
    · simp [matchesSig, hm]

theorem mem_lineFlows (hi : Inv fm lines slots) {k : BitVec 64} {f : Nat} :
    f ∈ lineFlows fm (lines k) ↔ Live fm.flows f ∧ (fm.flows.elt f).sigHash = k := by
  constructor
  · intro hf
    obtain ⟨e, he, hv⟩ := List.mem_filterMap.mp hf
    obtain ⟨_, g, hg, hl, _, hk⟩ := hi.lineFlow k e he
    rw [hv] at hg
    cases hg
    exact ⟨hl, hk⟩
  · rintro ⟨hl, rfl⟩
    obtain ⟨hm, hv, _⟩ := hi.flowLine f hl
    exact List.mem_filterMap.mpr ⟨_, hm, hv⟩

theorem line_length_lt (hi : Inv fm lines slots) {k : BitVec 64} {h : Nat}
    (hk : fm.flowsHt k = some h) : (lines k).length < fm.htLines.len + 1 := by
  have hn := (hi.lineRings.ring k h hk).nodup.of_cons
  have hs : lines k ⊆ List.range fm.htLines.len := by
    intro e he
    exact List.mem_range.mpr (hi.lineFlow k e he).1.1
  have := (List.subperm_of_subset hn hs).length_le
  rw [List.length_range] at this
  omega

/-- The search of a line looks at all its flows. It is undefined on the line
that a failed creation left empty. -/
theorem lookupLine_spec (hi : Inv fm lines slots) {k : BitVec 64} {h : Nat}
    (hk : fm.flowsHt k = some h) (sig : Bytes) (sigLen : Nat) :
    lookupLine fm sig sigLen (fm.htLines.len + 1) (fm.htLines.elt h).next =
        some ((lineFlows fm (lines k)).find? (matchesSig fm sig sigLen)) ∨
      lines k = [] ∧
        lookupLine fm sig sigLen (fm.htLines.len + 1) (fm.htLines.elt h).next = none := by
  have hr := hi.lineRings.ring k h hk
  obtain hs | ⟨hn, hnone⟩ := hr.links
  · exact Or.inl (lookupLine_eq sig sigLen hs hr.head hr.elems (line_length_lt hi hk))
  · refine Or.inr ⟨hn, ?_⟩
    rw [hnone, lookupLine]

theorem createLine_inv (hi : Inv fm lines slots) {key : BitVec 64} (hk : fm.flowsHt key = none) :
    Inv (createLine fm key) lines slots := by
  have hu := hi.unused_line (x := fresh fm.htLines) not_live_fresh
  have hval : ∀ e, Live fm.htLines e →
      LinkedRing.init fm.htLines.elt (fresh fm.htLines) e = fm.htLines.elt e := by
    intro e he
    exact Function.update_of_ne (ne_fresh he) _ _
  refine ⟨hi.flowsWF, wf_withElt (wf_get hi.linesWF) _, hi.timersWF, hi.wheel, hi.timeIndex,
    hi.cpt, hi.lineRings.openHead hk hu, hi.slotRings, ?_, hi.slotHeadLive, ?_, hi.slotElts, ?_,
    hi.slotFlow, ?_, hi.flowSlot⟩
  · intro k h hh
    refine (live_get hi.linesWF h).mpr ?_
    by_cases hkk : k = key
    · subst hkk
      simp only [createLine, Function.update_self, Option.some.injEq] at hh
      exact Or.inr hh.symm
    · exact Or.inl (hi.lineHead k h ((Function.update_of_ne hkk _ _).symm.trans hh))
  · intro e he
    obtain he | rfl := (live_get hi.linesWF e).mp he
    · obtain ⟨k, h, hh, hm⟩ := hi.lineElts e he
      refine ⟨k, h, (Function.update_of_ne ?_ _ _).trans hh, hm⟩
      rintro rfl
      rw [hk] at hh
      cases hh
    · exact ⟨key, _, Function.update_self _ _ _, List.mem_cons_self⟩
  · intro k e he
    obtain ⟨hl, f, hv, hf⟩ := hi.lineFlow k e he
    exact ⟨(live_get hi.linesWF e).mpr (Or.inl hl), f, by rw [← hv]; exact congrArg _ (hval e hl), hf⟩
  · intro f hf
    obtain ⟨hm, hv, hh⟩ := hi.flowLine f hf
    have hne : (fm.flows.elt f).sigHash ≠ key := fun he => by simp [he, hk] at hh
    refine ⟨hm, ?_, (Function.update_of_ne hne _ _).trans hh⟩
    rw [← hv]
    exact congrArg _ (hval _ (hi.lineFlow _ _ hm).1)

/-- What a lookup does: it finds a flow of the line, makes a new one, or stops
at the limit. -/
inductive Looked (fm : FlowtableMain) (key : BitVec 64) (sig : Bytes) (sigLen now : Nat) :
    FlowtableMain × Option Nat × Bool → Prop
  | hit (f : Nat) (live : Live fm.flows f) (hash : (fm.flows.elt f).sigHash = key)
      (same : matchesSig fm sig sigLen f = true) : Looked fm key sig sigLen now (fm, some f, false)
  | made (fm' : FlowtableMain) (t e h : Nat)
      (flows : fm'.flows = set (get fm.flows) (fresh fm.flows)
        { newFlow key sig sigLen now t with htIndex := e, htLineIndex := h })
      (index : fm'.timeIndex = fm.timeIndex)
      (other : ∀ g, Live fm.flows g → (fm.flows.elt g).sigHash = key →
        matchesSig fm sig sigLen g ≠ true) :
      Looked fm key sig sigLen now (fm', some (fresh fm.flows), true)
  | full (fm' : FlowtableMain) (limit : fmPoolCount < fm.flowsCpt) (flows : fm'.flows = fm.flows)
      (index : fm'.timeIndex = fm.timeIndex) : Looked fm key sig sigLen now (fm', none, false)

def LookedInv (fm : FlowtableMain) (lines : BitVec 64 → List Nat) (key : BitVec 64) (sig : Bytes)
    (sigLen now : Nat) (r : FlowtableMain × Option Nat × Bool) : Prop :=
  Looked fm key sig sigLen now r ∧ ∃ lines' slots', Inv r.1 lines' slots' ∧
    (Tidy fm lines → fm.flowsCpt ≤ fmPoolCount → Tidy r.1 lines')

theorem createFlow_looked (hi : Inv fm lines slots) {key : BitVec 64} {head : Nat}
    (hk : fm.flowsHt key = some head) (sig : Bytes) (sigLen now : Nat)
    (ho : ∀ g, Live fm.flows g → (fm.flows.elt g).sigHash = key →
      matchesSig fm sig sigLen g ≠ true) :
    ∃ r, createFlow fm key sig sigLen now head = some r ∧ Looked fm key sig sigLen now r ∧
      ∃ lines' slots', Inv r.1 lines' slots' ∧
        ((∀ k h, k ≠ key → fm.flowsHt k = some h → lines k ≠ []) → fm.flowsCpt ≤ fmPoolCount →
          Tidy r.1 lines') := by
  by_cases hlim : fm.flowsCpt ≤ fmPoolCount
  · obtain ⟨lm, tm, slots', hrun, hinv⟩ := createFlow_spec hi hk hlim sig sigLen now
    refine ⟨_, hrun, .made _ _ _ _ rfl rfl ho, _, slots', hinv, fun ht _ k h hh => ?_⟩
    by_cases hkk : k = key
    · subst hkk
      simp
    · rw [Function.update_of_ne hkk]
      exact ht k h hkk hh
  · have hlt : fmPoolCount < fm.flowsCpt := by omega
    refine ⟨(fm, none, false), if_pos hlt, .full fm hlt rfl rfl, lines, slots, hi, fun _ h => ?_⟩
    exact absurd h hlim

theorem lookupCreate_looked (hi : Inv fm lines slots) (key : BitVec 64) (sig : Bytes)
    (sigLen now : Nat) :
    (∃ r, flowtableEntryLookupCreate fm key sig sigLen now = some r ∧
        LookedInv fm lines key sig sigLen now r) ∨
      ¬ Tidy fm lines ∧ flowtableEntryLookupCreate fm key sig sigLen now = none := by
  cases hk : fm.flowsHt key with
  | some head =>
    obtain hl | ⟨hn, hl⟩ := lookupLine_spec hi hk sig sigLen
    · left
      cases hf : (lineFlows fm (lines key)).find? (matchesSig fm sig sigLen) with
      | some f =>
        obtain ⟨hlive, hhash⟩ := (mem_lineFlows hi).mp (List.mem_of_find?_eq_some hf)
        refine ⟨(fm, some f, false), ?_, .hit f hlive hhash ?_, lines, slots, hi, fun ht _ => ht⟩
        · simp only [flowtableEntryLookupCreate, hk, hl, hf]
        · simpa using List.find?_some hf
      | none =>
        have ho : ∀ g, Live fm.flows g → (fm.flows.elt g).sigHash = key →
            matchesSig fm sig sigLen g ≠ true := by
          intro g hg hgk
          exact List.find?_eq_none.mp hf g ((mem_lineFlows hi).mpr ⟨hg, hgk⟩)
        obtain ⟨r, hr, hlk, lines', slots', hinv, ht⟩ := createFlow_looked hi hk sig sigLen now ho
        refine ⟨r, ?_, hlk, lines', slots', hinv, fun htidy => ht fun k h _ => htidy k h⟩
        simpa only [flowtableEntryLookupCreate, hk, hl, hf] using hr
    · refine Or.inr ⟨fun ht => ht key head hk hn, ?_⟩
      simp only [flowtableEntryLookupCreate, hk, hl]
  | none =>
    left
    have ho : ∀ g, Live (createLine fm key).flows g →
        ((createLine fm key).flows.elt g).sigHash = key →
        matchesSig (createLine fm key) sig sigLen g ≠ true := by
      intro g hg hgk
      have := (hi.flowLine g hg).2.2
      rw [show (fm.flows.elt g).sigHash = key from hgk, hk] at this
      cases this
    have hhead : (createLine fm key).flowsHt key = some (fresh fm.htLines) :=
      Function.update_self key _ _
    obtain ⟨r, hr, hlk, lines', slots', hinv, ht⟩ :=
      createFlow_looked (createLine_inv hi hk) hhead sig sigLen now ho
    refine ⟨r, ?_, ?_, lines', slots', hinv, fun htidy => ht fun k h hkk hh => ?_⟩
    · simpa only [flowtableEntryLookupCreate, hk] using hr
    · cases hlk with
      | hit f hl hh hs => exact absurd hs (ho f hl hh)
      | made fm' t e h hf hx hg => exact .made fm' t e h hf hx hg
      | full fm' hlim hf hx => exact .full fm' hlim hf hx
    · exact htidy k h ((Function.update_of_ne hkk _ _).symm.trans hh)

theorem lookupCreate_cases (hi : Inv fm lines slots) {key : BitVec 64} {sig : Bytes}
    {sigLen now : Nat} {r : FlowtableMain × Option Nat × Bool}
    (hr : flowtableEntryLookupCreate fm key sig sigLen now = some r) :
    (∃ f, r = (fm, some f, false) ∧ Live fm.flows f) ∨
      ∃ fm₁ head, (fm₁ = fm ∨ fm₁ = createLine fm key) ∧ Inv fm₁ lines slots ∧
        fm₁.flowsHt key = some head ∧ createFlow fm₁ key sig sigLen now head = some r := by
  cases hk : fm.flowsHt key with
  | none =>
    simp only [flowtableEntryLookupCreate, hk] at hr
    exact Or.inr ⟨_, _, Or.inr rfl, createLine_inv hi hk, Function.update_self _ _ _, hr⟩
  | some head =>
    simp only [flowtableEntryLookupCreate, hk] at hr
    obtain hl | ⟨_, hl⟩ := lookupLine_spec hi hk sig sigLen
    · cases hf : (lineFlows fm (lines key)).find? (matchesSig fm sig sigLen) with
      | none =>
        simp only [hl, hf] at hr
        exact Or.inr ⟨fm, head, Or.inl rfl, hi, hk, hr⟩
      | some f =>
        simp only [hl, hf] at hr
        obtain rfl := Option.some.inj hr
        exact Or.inl ⟨f, rfl, ((mem_lineFlows hi).mp (List.mem_of_find?_eq_some hf)).1⟩
    · simp only [hl] at hr
      cases hr

theorem createFlow_cases (hi : Inv fm lines slots) {key : BitVec 64} {head : Nat}
    (hk : fm.flowsHt key = some head) {sig : Bytes} {sigLen now : Nat}
    {r : FlowtableMain × Option Nat × Bool}
    (hr : createFlow fm key sig sigLen now head = some r) :
    r = (fm, none, false) ∨ ∃ lm tm,
      r = (created fm key sig sigLen now head lm tm, some (fresh fm.flows), true) ∧
      Inv (created fm key sig sigLen now head lm tm)
        (Function.update lines key (fresh fm.htLines :: lines key))
        (Function.update slots (slotOf fm timerDefaultLifetime)
          (slots (slotOf fm timerDefaultLifetime) ++ [fresh fm.timers])) := by
  by_cases hlim : fm.flowsCpt ≤ fmPoolCount
  · obtain ⟨lm, tm, hc, hi'⟩ := createFlow_slots hi hk hlim sig sigLen now
    rw [hc] at hr
    exact Or.inr ⟨lm, tm, (Option.some.inj hr).symm, hi'⟩
  · rw [createFlow, if_pos (by omega)] at hr
    exact Or.inl (Option.some.inj hr).symm

end Vppsb.FlowLookup
