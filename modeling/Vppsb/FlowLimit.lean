import Vppsb.FlowFull

namespace Vppsb.FlowLimit

open Vppsb.StepRun Vppsb.PoolStore Vppsb.KeyedPool Vppsb.LinkedRing Vppsb.FlowSignature
  Vppsb.FlowTable Vppsb.FlowProcess Vppsb.FlowInvariant Vppsb.FlowCreate Vppsb.FlowExpire
  Vppsb.FlowWheel Vppsb.FlowLookup Vppsb.FlowRun Vppsb.FlowIdentity Vppsb.FlowFull

def NotInTable (fm : FlowtableMain) (key : BitVec 64) (sig : Bytes) (sigLen : Nat) : Prop :=
  ∀ f, Live fm.flows f → (fm.flows.elt f).sigHash = key → matchesSig fm sig sigLen f ≠ true

def Refuses (fm : FlowtableMain) (key : BitVec 64) (sig : Bytes) (sigLen now : Nat) : Prop :=
  flowtableEntryLookupCreate fm key sig sigLen now = some (fm, none, false)

/-- The bihash has a line for the hash, and its head is linked to an element. -/
def LineLinked (fm : FlowtableMain) (key : BitVec 64) : Prop :=
  ∃ head, fm.flowsHt key = some head ∧ (fm.htLines.elt head).next ≠ none

/-- Every hash line has an element and ends at its own head. -/
def Walkable (fm : FlowtableMain) : Prop :=
  ∀ k h, fm.flowsHt k = some h → ∃ xs, xs ≠ [] ∧ Ring fm.htLines.elt h xs

/-- What the lookup of a packet has to do above the limit, and what every action
has to leave. -/
def Correct (cmp : AddressCompare) (s : Traced) (a : Action) : Prop :=
  (∀ now b stack, a = .packet now b stack → ∀ sigLen p,
    parsePacket cmp (ethernetType b) (vlibBufferAdvance b sizeofEthernetHeader) = some (sigLen, p) →
    fmPoolCount < s.table.flowsCpt → NotInTable s.table p.hash stack sigLen →
    Refuses s.table p.hash stack sigLen now) ∧
  ∀ t, tracedStep cmp s a = some t → Walkable t.table

/-- Above the limit no packet comes whose hash has no line yet. -/
def KnownHash (cmp : AddressCompare) (s : Traced) : Action → Prop
  | .packet _ b _ => ∀ sigLen p,
      parsePacket cmp (ethernetType b) (vlibBufferAdvance b sizeofEthernetHeader) =
        some (sigLen, p) →
      fmPoolCount < s.table.flowsCpt → s.table.flowsHt p.hash ≠ none
  | _ => True

section Refusal

variable {fm : FlowtableMain} {lines : BitVec 64 → List Nat} {slots : Nat → List Nat}

theorem tidy_iff (hi : Inv fm lines slots) : Tidy fm lines ↔ Walkable fm := by
  constructor
  · intro ht k h hk
    exact ⟨lines k, ht k h hk, hi.lineRings.ring k h hk⟩
  · intro hw k h hk
    obtain ⟨xs, hne, hr⟩ := hw k h hk
    rwa [← hr.unique (hi.lineRings.ring k h hk)]

theorem Walkable.linked (hw : Walkable fm) {key : BitVec 64} (hk : fm.flowsHt key ≠ none) :
    LineLinked fm key := by
  obtain ⟨head, hhead⟩ := Option.ne_none_iff_exists'.mp hk
  obtain ⟨xs, hne, hr⟩ := hw key head hhead
  refine ⟨head, hhead, ?_⟩
  rw [(hr.seg_of_ne_nil hne).next_eq]
  exact Option.some_ne_none _

theorem notInTable_of_none (hi : Inv fm lines slots) {key : BitVec 64}
    (hk : fm.flowsHt key = none) (sig : Bytes) (sigLen : Nat) : NotInTable fm key sig sigLen := by
  intro f hf hh
  have hline := (hi.flowLine f hf).2.2
  rw [hh, hk] at hline
  exact absurd hline.symm (Option.some_ne_none _)

/-- A hash without a line gets one before the limit is looked at. -/
theorem lookupCreate_new {key : BitVec 64} (hk : fm.flowsHt key = none)
    (hlim : fmPoolCount < fm.flowsCpt) (sig : Bytes) (sigLen now : Nat) :
    flowtableEntryLookupCreate fm key sig sigLen now = some (createLine fm key, none, false) := by
  rw [flowtableEntryLookupCreate, hk]
  exact if_pos hlim

theorem lookupCreate_again (fm : FlowtableMain) (key : BitVec 64) (sig : Bytes)
    (sigLen now : Nat) :
    flowtableEntryLookupCreate (createLine fm key) key sig sigLen now = none := by
  have hhead : (createLine fm key).flowsHt key = some (fresh fm.htLines) :=
    Function.update_self _ _ _
  have hnext : ((createLine fm key).htLines.elt (fresh fm.htLines)).next = none := by
    show (LinkedRing.init fm.htLines.elt (fresh fm.htLines) (fresh fm.htLines)).next = none
    simp [LinkedRing.init]
  simp only [flowtableEntryLookupCreate, hhead, hnext, lookupLine]

theorem createLine_ne {key : BitVec 64} (hk : fm.flowsHt key = none) : createLine fm key ≠ fm := by
  intro h
  have hkey : (createLine fm key).flowsHt key = some (fresh fm.htLines) :=
    Function.update_self _ _ _
  rw [h, hk] at hkey
  exact absurd hkey.symm (Option.some_ne_none _)

theorem lookupCreate_known (hi : Inv fm lines slots) (hlim : fmPoolCount < fm.flowsCpt)
    {key : BitVec 64} (hk : LineLinked fm key) (sig : Bytes) (sigLen now : Nat) :
    flowtableEntryLookupCreate fm key sig sigLen now =
      some (fm, (lineFlows fm (lines key)).find? (matchesSig fm sig sigLen), false) := by
  obtain ⟨head, hhead, hnext⟩ := hk
  have hr := hi.lineRings.ring key head hhead
  obtain hs | ⟨_, hnone⟩ := hr.links
  · have hline := lookupLine_eq sig sigLen hs hr.head hr.elems (line_length_lt hi hhead)
    cases hf : (lineFlows fm (lines key)).find? (matchesSig fm sig sigLen) with
    | none =>
      rw [hf] at hline
      simp only [flowtableEntryLookupCreate, hhead, hline]
      exact if_pos hlim
    | some f =>
      rw [hf] at hline
      simp only [flowtableEntryLookupCreate, hhead, hline]
  · exact absurd hnone hnext

/-- Above the limit a signature that is not in the table is refused just when
its hash has a line to walk. -/
theorem refuses_iff (hi : Inv fm lines slots) (hlim : fmPoolCount < fm.flowsCpt) {key : BitVec 64}
    {sig : Bytes} {sigLen : Nat} (hno : NotInTable fm key sig sigLen) (now : Nat) :
    Refuses fm key sig sigLen now ↔ LineLinked fm key := by
  rw [Refuses]
  constructor
  · intro h
    cases hk : fm.flowsHt key with
    | none =>
      rw [lookupCreate_new hk hlim] at h
      exact absurd (congrArg Prod.fst (Option.some.inj h)) (createLine_ne hk)
    | some head =>
      refine ⟨head, hk, fun hnone => ?_⟩
      simp only [flowtableEntryLookupCreate, hk, hnone, lookupLine] at h
      exact absurd h.symm (Option.some_ne_none _)
  · intro hk
    have hfind : (lineFlows fm (lines key)).find? (matchesSig fm sig sigLen) = none := by
      rw [List.find?_eq_none]
      intro f hf
      obtain ⟨hl, hh⟩ := (mem_lineFlows hi).mp hf
      exact hno f hl hh
    rw [lookupCreate_known hi hlim hk, hfind]

theorem Walkable.congr (hw : Walkable fm) {fm' : FlowtableMain} (hht : fm'.flowsHt = fm.flowsHt)
    (hl : fm'.htLines = fm.htLines) : Walkable fm' := by
  intro k h hk
  rw [hht] at hk
  rw [hl]
  exact hw k h hk

theorem Walkable.packet (hi : Inv fm lines slots) (hw : Walkable fm) (cmp : AddressCompare)
    {now : Nat} {b : Buffer} {stack : Bytes} {r : FlowtableMain × Buffer × Option Sent}
    (hknown : ∀ sigLen p,
      parsePacket cmp (ethernetType b) (vlibBufferAdvance b sizeofEthernetHeader) = some (sigLen, p) →
      fmPoolCount < fm.flowsCpt → fm.flowsHt p.hash ≠ none)
    (hr : processPacket cmp now fm b stack = some r) : Walkable r.1 := by
  cases hp : parsePacket cmp (ethernetType b) (vlibBufferAdvance b sizeofEthernetHeader) with
  | none =>
    simp only [processPacket, hp] at hr
    obtain rfl := Option.some.inj hr
    exact hw
  | some sp =>
    obtain ⟨sigLen, p⟩ := sp
    by_cases hlim : fmPoolCount < fm.flowsCpt
    · simp only [processPacket, hp, Option.bind_eq_bind] at hr
      obtain ⟨q, hq, hr⟩ := Option.bind_eq_some_iff.mp hr
      rw [lookupCreate_known hi hlim (hw.linked (hknown sigLen p hp hlim))] at hq
      obtain rfl := Option.some.inj hq
      cases hf : (lineFlows fm (lines p.hash)).find? (matchesSig fm stack sigLen) with
      | none =>
        simp only [hf] at hr
        obtain rfl := Option.some.inj hr
        exact hw
      | some f =>
        have hlive := ((mem_lineFlows hi).mp (List.mem_of_find?_eq_some hf)).1
        obtain ⟨tm, ex, slots', hres, _⟩ := timerWheelReschedFlow_spec hi hlive now
        simp only [hf, refreshFlow, Bool.false_eq_true, if_false, hres, Option.bind_some] at hr
        obtain rfl := Option.some.inj hr
        exact hw.congr rfl rfl
    · obtain ⟨r', q, hr', _, _, _, _, lines', slots', hinv, htidy⟩ | ⟨_, hn⟩ :=
        processPacket_ip cmp now b stack hp hi
      · obtain rfl := Option.some.inj (hr'.symm.trans hr)
        exact (tidy_iff hinv).mp (htidy ((tidy_iff hi).mpr hw) (Nat.not_lt.mp hlim))
      · rw [hn] at hr
        exact absurd hr.symm (Option.some_ne_none r)

end Refusal

def WalkInv (s : Traced) : Prop := Linked s.table ∧ Walkable s.table

/-- As long as every new packet above the limit has a line for its hash. -/
theorem step_walkable (cmp : AddressCompare) {s t : Traced} {a : Action} (hs : WalkInv s)
    (hk : KnownHash cmp s a) (hr : tracedStep cmp s a = some t) : Walkable t.table := by
  obtain ⟨⟨lines, slots, hi⟩, hw⟩ := hs
  cases a with
  | wheel now =>
    obtain ⟨tm, n, slots', hwheel, _⟩ := timerWheelIndexUpdate_spec hi now
    rw [tracedStep, hwheel] at hr
    obtain rfl := Option.some.inj hr
    exact hw.congr rfl rfl
  | packet now b stack =>
    obtain ⟨r, hp, rfl⟩ := Option.map_eq_some_iff.mp hr
    exact hw.packet hi cmp hk hp
  | expire =>
    obtain ⟨r, he, rfl⟩ := Option.map_eq_some_iff.mp hr
    obtain hno | hlt := hi.timeIndex
    · have hnone : s.table.timerWheel[s.table.timeIndex]? = none := by
        rw [hi.wheel, hno, List.getElem?_eq_none]
        simp [noIndex, timerMaxLifetime]
      simp [flowtableTimerExpire, hnone] at he
    · obtain ⟨r', lines', slots', he', hi', _, htidy⟩ := flowtableTimerExpire_spec hi hlt
      obtain rfl := Option.some.inj (he'.symm.trans he)
      exact (tidy_iff hi').mp (htidy ((tidy_iff hi).mpr hw))
  | update args =>
    obtain ⟨r, hu, rfl⟩ := Option.map_eq_some_iff.mp hr
    rw [flowtableUpdate_eq hi args] at hu
    split at hu
    · obtain rfl := Option.some.inj hu
      exact hw
    · obtain rfl := Option.some.inj hu
      exact hw.congr rfl rfl

theorem correct_iff (cmp : AddressCompare) {s : Traced} {a : Action} (hs : WalkInv s) :
    Correct cmp s a ↔ KnownHash cmp s a := by
  obtain ⟨⟨lines, slots, hi⟩, hw⟩ := hs
  constructor
  · rintro ⟨hrefuse, _⟩
    cases a with
    | wheel now => exact trivial
    | packet now b stack =>
      intro sigLen p hp hlim hnone
      have hno := notInTable_of_none hi hnone stack sigLen
      obtain ⟨head, hhead, _⟩ :=
        (refuses_iff hi hlim hno now).mp (hrefuse now b stack rfl sigLen p hp hlim hno)
      rw [hnone] at hhead
      exact absurd hhead.symm (Option.some_ne_none head)
    | expire => exact trivial
    | update args => exact trivial
  · intro hk
    refine ⟨?_, fun t ht => step_walkable cmp ⟨⟨lines, slots, hi⟩, hw⟩ hk ht⟩
    rintro now b stack rfl sigLen p hp hlim hno
    exact (refuses_iff hi hlim hno now).mpr (hw.linked (hk sigLen p hp hlim))

theorem start_walkable (next : Nat) : WalkInv (start next) := by
  refine ⟨⟨_, _, flowtableInit_inv next⟩, fun k h hk => ?_⟩
  exact absurd rfl (tidy_flowtableInit next k h hk)

/-- In every table that is reached a new signature above the limit is refused
without a trace just when its hash has a line that can be walked; and all lines
can be walked in all of a run just when no packet above the limit has a hash
without a line. -/
theorem full_table_iff (cmp : AddressCompare) (next : Nat) (actions : List Action) :
    (∀ s, run (tracedStep cmp) (start next) actions = some s →
      ∀ key sig sigLen now, fmPoolCount < s.table.flowsCpt → NotInTable s.table key sig sigLen →
        (Refuses s.table key sig sigLen now ↔ LineLinked s.table key)) ∧
    (Meets (tracedStep cmp) (Correct cmp) (start next) actions ↔
      Meets (tracedStep cmp) (KnownHash cmp) (start next) actions) := by
  constructor
  · intro s hr key sig sigLen now hlim hno
    obtain ⟨lines, slots, hi⟩ := invariant (P := fun s : Traced => Linked s.table)
      (fun s a t hs ht => (step_outcome cmp hs ht).2) ⟨_, _, flowtableInit_inv next⟩ hr
    exact refuses_iff hi hlim hno now
  · have hany : Meets (tracedStep cmp) (fun _ _ => True) (start next) actions :=
      meets_of_forall (Q := fun _ => True) fun _ _ => trivial
    apply meets_congr (P := WalkInv) ?_ (fun s a hs _ => correct_iff cmp hs) (start_walkable next) hany
    intro s a t hs _ hk ht
    exact ⟨(step_outcome cmp hs.1 ht).2, step_walkable cmp hs hk ht⟩

/-- One flow more than the limit allows, and a packet of a new connection: the
call fails, but its hash line stays, and the next lookup runs into its end. -/
theorem full_table_grows :
    ∃ fm, run (step sampleCompare) (flowtableInit 0) (fillEvents (fmPoolCount + 1)) = some fm ∧
      fmPoolCount < fm.flowsCpt ∧
      NotInTable fm (hostKey (fmPoolCount + 1)) [] sizeofIp4Sig ∧
      flowtableEntryLookupCreate fm (hostKey (fmPoolCount + 1)) [] sizeofIp4Sig 7 =
        some (createLine fm (hostKey (fmPoolCount + 1)), none, false) ∧
      ¬ Refuses fm (hostKey (fmPoolCount + 1)) [] sizeofIp4Sig 7 ∧
      flowtableEntryLookupCreate (createLine fm (hostKey (fmPoolCount + 1)))
        (hostKey (fmPoolCount + 1)) [] sizeofIp4Sig 7 = none := by
  obtain ⟨fm, hr, hf⟩ := fill_run (fmPoolCount + 1) le_rfl
  obtain ⟨lines, slots, hi, _⟩ := hf.tables
  have hlim : fmPoolCount < fm.flowsCpt := by
    rw [hf.cpt]
    exact Nat.lt_succ_self _
  have hk := hf.new_key le_rfl
  have hnew := lookupCreate_new hk hlim [] sizeofIp4Sig 7
  refine ⟨fm, hr, hlim, notInTable_of_none hi hk [] sizeofIp4Sig, hnew, fun h => ?_,
    lookupCreate_again fm _ [] sizeofIp4Sig 7⟩
  exact createLine_ne hk (congrArg Prod.fst (Option.some.inj (hnew.symm.trans h)))

end Vppsb.FlowLimit
