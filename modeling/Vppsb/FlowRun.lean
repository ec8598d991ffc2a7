import Vppsb.FlowLookup

namespace Vppsb.FlowRun

open Vppsb.StepRun Vppsb.PoolStore Vppsb.LinkedRing Vppsb.RingFamily Vppsb.FlowSignature
  Vppsb.FlowTable Vppsb.FlowProcess Vppsb.FlowInvariant Vppsb.FlowCreate Vppsb.FlowExpire
  Vppsb.FlowWheel Vppsb.FlowLookup

variable {fm : FlowtableMain} {lines : BitVec 64 → List Nat} {slots : Nat → List Nat}

def SameKeys (a b : FlowtableMain) : Prop :=
  (∀ g, Live b.flows g ↔ Live a.flows g) ∧ ∀ g, (b.flows.elt g).sig = (a.flows.elt g).sig ∧
    (b.flows.elt g).sigHash = (a.flows.elt g).sigHash

theorem SameKeys.refl (a : FlowtableMain) : SameKeys a a := ⟨fun _ => Iff.rfl, fun _ => ⟨rfl, rfl⟩⟩

theorem SameKeys.trans {a b c : FlowtableMain} (hab : SameKeys a b) (hbc : SameKeys b c) :
    SameKeys a c :=
  ⟨fun g => (hbc.1 g).trans (hab.1 g),
    fun g => ⟨(hbc.2 g).1.trans (hab.2 g).1, (hbc.2 g).2.trans (hab.2 g).2⟩⟩

theorem sameKeys_setFlow (fm : FlowtableMain) {f : Nat} {e : FlowEntry}
    (hs : e.sig = (fm.flows.elt f).sig) (hh : e.sigHash = (fm.flows.elt f).sigHash) :
    SameKeys fm (setFlow fm f e) := by
  refine ⟨fun g => Iff.rfl, fun g => ?_⟩
  by_cases hg : g = f
  · subst hg
    simp [FlowTable.setFlow, hs, hh]
  · simp [FlowTable.setFlow, hg]

theorem offload_links (e : FlowEntry) (rev : Option (BitVec 64)) (rx : UInt32) :
    SameLinks (offloadPacket (countPacket e rev) rx) e ∧
      (offloadPacket (countPacket e rev) rx).sig = e.sig := by
  unfold offloadPacket countPacket
  split <;> split <;> exact ⟨⟨rfl, rfl, rfl, rfl⟩, rfl⟩

/-- How a pass over buffer `b` ends: with a packet that is not IP, without a
flow, or with flow `f`, which is written back. -/
inductive PassEnd (cmp : AddressCompare) (now : Nat) (fm : FlowtableMain) (b : Buffer)
    (stack : Bytes) : FlowtableMain × Buffer × Option Sent → Prop
  | other (hp : parsePacket cmp (ethernetType b) (vlibBufferAdvance b sizeofEthernetHeader) = none) :
      PassEnd cmp now fm b stack (fm, b, some ⟨vlibBufferReset b, ftNextEthernetInput, none⟩)
  | full {sigLen : Nat} {p : Parsed} {fm₁ : FlowtableMain} {created : Bool}
      (hp : parsePacket cmp (ethernetType b) (vlibBufferAdvance b sizeofEthernetHeader) =
        some (sigLen, p))
      (hq : flowtableEntryLookupCreate fm p.hash stack sigLen now = some (fm₁, none, created)) :
      PassEnd cmp now fm b stack (fm₁, vlibBufferAdvance b sizeofEthernetHeader, none)
  | flow {sigLen : Nat} {p : Parsed} {fm₁ fm₂ : FlowtableMain} {f : Nat} {created : Bool}
      {e : FlowEntry} (next0 : Nat)
      (hp : parsePacket cmp (ethernetType b) (vlibBufferAdvance b sizeofEthernetHeader) =
        some (sigLen, p))
      (hq : flowtableEntryLookupCreate fm p.hash stack sigLen now = some (fm₁, some f, created))
      (hres : refreshFlow fm₁ f now created = some fm₂)
      (he : e = offloadPacket (countPacket (fm₂.flows.elt f) p.isReverse) b.vnet.swIfIndexCurrent) :
      PassEnd cmp now fm b stack (setFlow fm₂ f e, vlibBufferAdvance b sizeofEthernetHeader,
        some ⟨vlibBufferReset { vlibBufferAdvance b sizeofEthernetHeader with vnet := e.infos },
          next0, some (p.sig, f)⟩)

theorem passEnd {cmp : AddressCompare} {now : Nat} {b : Buffer} {stack : Bytes}
    {r : FlowtableMain × Buffer × Option Sent} (hr : processPacket cmp now fm b stack = some r) :
    PassEnd cmp now fm b stack r := by
  cases hp : parsePacket cmp (ethernetType b) (vlibBufferAdvance b sizeofEthernetHeader) with
  | none =>
    simp only [processPacket, hp] at hr
    obtain rfl := Option.some.inj hr
    exact .other hp
  | some sp =>
    obtain ⟨sigLen, p⟩ := sp
    simp only [processPacket, hp, Option.bind_eq_bind] at hr
    obtain ⟨⟨fm₁, of, created⟩, hq, hr⟩ := Option.bind_eq_some_iff.mp hr
    cases of with
    | none =>
      obtain rfl := Option.some.inj hr
      exact .full hp hq
    | some f =>
      obtain ⟨fm₂, hres, hr⟩ := Option.bind_eq_some_iff.mp hr
      obtain rfl := Option.some.inj hr
      exact .flow _ hp hq hres rfl

/-- What a pass of the loop does to the tables, for the outcome `q` of its lookup. -/
structure Passed (q : FlowtableMain × Option Nat × Bool) (sig : Signature)
    (r : FlowtableMain × Buffer × Option Sent) : Prop where
  keys : SameKeys q.1 r.1
  full : q.2.1 = none → r.2.2 = none ∧ r.1 = q.1
  found : ∀ f, q.2.1 = some f → ∃ s, r.2.2 = some s ∧ s.lookup = some (sig, f)

theorem processPacket_ip (cmp : AddressCompare) (now : Nat) (b : Buffer) (stack : Bytes)
    {sigLen : Nat} {p : Parsed}
    (hp : parsePacket cmp (ethernetType b) (vlibBufferAdvance b sizeofEthernetHeader) =
      some (sigLen, p)) (hi : Inv fm lines slots) :
    (∃ r q, processPacket cmp now fm b stack = some r ∧
        flowtableEntryLookupCreate fm p.hash stack sigLen now = some q ∧
        Looked fm p.hash stack sigLen now q ∧ Passed q p.sig r ∧
        r.1.timeIndex = fm.timeIndex ∧ ∃ lines' slots', Inv r.1 lines' slots' ∧
          (Tidy fm lines → fm.flowsCpt ≤ fmPoolCount → Tidy r.1 lines')) ∨
      ¬ Tidy fm lines ∧ processPacket cmp now fm b stack = none := by
  obtain ⟨q, hq, hl, lines', slots', hinv, ht⟩ | ⟨hn, hq⟩ := lookupCreate_looked hi p.hash stack sigLen now
  · left
    have hidx : q.1.timeIndex = fm.timeIndex := by
      cases hl with
      | hit => rfl
      | made _ _ _ _ _ h => exact h
      | full _ _ _ h => exact h
    obtain ⟨fm₁, of, created⟩ := q
    cases of with
    | none =>
      refine ⟨(fm₁, vlibBufferAdvance b sizeofEthernetHeader, none), _, ?_, hq, hl,
        ⟨SameKeys.refl _, fun _ => ⟨rfl, rfl⟩, fun f hf => by cases hf⟩, hidx, lines', slots',
        hinv, ht⟩
      simp only [processPacket, hp, hq, Option.bind_eq_bind, Option.bind_some]
    | some f =>
      have hf : Live fm₁.flows f := by
        cases hl with
        | hit _ h => exact h
        | made _ t e h hfl => rw [hfl]; exact (live_get hi.flowsWF _).mpr (Or.inr rfl)
      obtain ⟨fm₂, slots'', hres, hinv₂, hk, hidx₂, hht⟩ : ∃ fm₂ slots'',
          refreshFlow fm₁ f now created = some fm₂ ∧ Inv fm₂ lines' slots'' ∧
          SameKeys fm₁ fm₂ ∧ fm₂.timeIndex = fm₁.timeIndex ∧ fm₂.flowsHt = fm₁.flowsHt := by
        cases created with
        | true => exact ⟨fm₁, slots', rfl, hinv, SameKeys.refl _, rfl, rfl⟩
        | false =>
          obtain ⟨tm, ex, slots'', hr, hinv₂⟩ := timerWheelReschedFlow_spec hinv hf now
          exact ⟨_, slots'', hr, hinv₂, sameKeys_setFlow _ rfl rfl, rfl, rfl⟩
      obtain ⟨hlinks, hsig⟩ := offload_links (fm₂.flows.elt f) p.isReverse b.vnet.swIfIndexCurrent
      refine ⟨_, _, by
        simp only [processPacket, hp, hq, Option.bind_eq_bind, Option.bind_some, hres]; rfl, hq, hl,
        ⟨hk.trans (sameKeys_setFlow fm₂ hsig hlinks.1), fun h => (nomatch h), fun g hg => ?_⟩,
        hidx₂.trans hidx, lines', slots'', hinv₂.setFlow hlinks, fun h1 h2 k h hh => ?_⟩
      · cases hg
        exact ⟨_, rfl, rfl⟩
      · exact ht h1 h2 k h (hht ▸ hh)
  · refine Or.inr ⟨hn, ?_⟩
    simp only [processPacket, hp, hq, Option.bind_eq_bind, Option.bind_none]

theorem processPacket_other (cmp : AddressCompare) (now : Nat) (fm : FlowtableMain) (b : Buffer)
    (stack : Bytes)
    (hp : parsePacket cmp (ethernetType b) (vlibBufferAdvance b sizeofEthernetHeader) = none) :
    ∃ s, processPacket cmp now fm b stack = some (fm, b, some s) ∧ s.lookup = none := by
  refine ⟨⟨vlibBufferReset b, ftNextEthernetInput, none⟩, ?_, rfl⟩
  simp only [processPacket, hp]

def packetStep (cmp : AddressCompare) (now : Nat) (fm : FlowtableMain) (a : Arrival) :
    Option FlowtableMain :=
  (processPacket cmp now fm a.buffer (a.stack 0)).map (fun r => r.1)

def BelowLimit (fm : FlowtableMain) (_ : Arrival) : Prop := fm.flowsCpt ≤ fmPoolCount

theorem packet_spec (cmp : AddressCompare) (now : Nat) (b : Buffer) (stack : Bytes)
    (hi : Inv fm lines slots) (ht : Tidy fm lines) (hlim : fm.flowsCpt ≤ fmPoolCount) :
    ∃ fm' b' s lines' slots', processPacket cmp now fm b stack = some (fm', b', some s) ∧
      Inv fm' lines' slots' ∧ Tidy fm' lines' ∧ fm'.timeIndex = fm.timeIndex := by
  cases hp : parsePacket cmp (ethernetType b) (vlibBufferAdvance b sizeofEthernetHeader) with
  | none =>
    obtain ⟨s, hs, _⟩ := processPacket_other cmp now fm b stack hp
    exact ⟨fm, b, s, lines, slots, hs, hi, ht, rfl⟩
  | some sp =>
    obtain ⟨sigLen, p⟩ := sp
    obtain ⟨⟨fm', b', os⟩, q, hr, _, hl, hpass, hidx, lines', slots', hinv, htidy⟩ |
        ⟨hn, _⟩ :=
      processPacket_ip cmp now b stack hp hi
    · have hq : q.2.1 ≠ none := by
        cases hl with
        | hit => simp
        | made => simp
        | full fm' hlt => omega
      obtain ⟨f, hf⟩ := Option.ne_none_iff_exists'.mp hq
      obtain ⟨s, rfl, _⟩ := hpass.found f hf
      exact ⟨fm', b', s, lines', slots', hr, hinv, htidy ht hlim, hidx⟩
    · exact absurd ht hn

/-- Below the limit every buffer takes one pass. -/
theorem processLoop_spec (cmp : AddressCompare) (now : Nat) (arrivals : List Arrival) {passes : Nat}
    (hlen : arrivals.length ≤ passes) {fm : FlowtableMain} {lines : BitVec 64 → List Nat}
    {slots : Nat → List Nat} (hi : Inv fm lines slots) (ht : Tidy fm lines)
    (hlim : Meets (packetStep cmp now) BelowLimit fm arrivals) :
    ∃ r lines' slots', processLoop cmp now passes 0 fm arrivals = some r ∧
      Inv r.1 lines' slots' ∧ Tidy r.1 lines' ∧ r.1.timeIndex = fm.timeIndex := by
  induction arrivals generalizing fm lines slots passes with
  | nil => exact ⟨(fm, []), lines, slots, by cases passes <;> rfl, hi, ht, rfl⟩
  | cons a arrivals ih =>
    obtain ⟨passes, rfl⟩ := Nat.exists_eq_succ_of_ne_zero (Nat.ne_of_gt (Nat.zero_lt_of_lt hlen))
    obtain ⟨hle, hrest⟩ := hlim
    obtain ⟨fm', b', s, lines', slots', hp, hi', ht', hidx⟩ :=
      packet_spec cmp now a.buffer (a.stack 0) hi ht hle
    have hstep : packetStep cmp now fm a = some fm' := by rw [packetStep, hp]; rfl
    obtain ⟨r, lines'', slots'', hr, hi'', ht'', hidx'⟩ :=
      ih (Nat.le_of_succ_le_succ hlen) hi' ht' (hrest fm' hstep)
    refine ⟨(r.1, s :: r.2), lines'', slots'', ?_, hi'', ht'', hidx'.trans hidx⟩
    simp only [processLoop, hp, hr, Option.bind_eq_bind, Option.bind_some]

/-- No frame finds more flows than the limit when it processes a packet. -/
def WithinLimit (cmp : AddressCompare) (fm : FlowtableMain) : Event → Prop
  | .frame passes now arrivals => arrivals.length ≤ passes ∧
      ∀ fm', timerWheelIndexUpdate fm now = some fm' →
        Meets (packetStep cmp now) BelowLimit fm' arrivals
  | .update _ => True

def matchesArgs (fm : FlowtableMain) (a : UpdateArgs) (f : Nat) : Bool :=
  matchesSig fm (sigBytes (updateSignature a)) (if a.isIp4 then sizeofIp4Sig else sizeofIp6Sig) f

def updateEnd (fm : FlowtableMain) (a : UpdateArgs) (flows : List Nat) : Option Nat :=
  (flows.find? (matchesArgs fm a)).or flows.getLast?

theorem flowtableUpdate_eq (hi : Inv fm lines slots) (a : UpdateArgs) :
    flowtableUpdate fm a =
      match updateEnd fm a (lineFlows fm (lines (hashSignature (updateSignature a)))) with
      | none => some (fm, -1)
      | some f => some (setFlow fm f (applyUpdate (fm.flows.elt f) a), 0) := by
  cases hk : fm.flowsHt (hashSignature (updateSignature a)) with
  | none =>
    rw [hi.lineRings.absent _ hk]
    simp only [flowtableUpdate, hk]
    rfl
  | some head =>
    have hring := hi.lineRings.ring _ _ hk
    by_cases hempty : dlistIsEmpty fm.htLines.elt head = true
    · rw [(dlistIsEmpty_iff hring).mp hempty]
      simp only [flowtableUpdate, hk, hempty, if_true]
      rfl
    · have hseg := hring.seg_of_ne_nil (mt (dlistIsEmpty_iff hring).mpr hempty)
      have hline := updateLine_eq (sigBytes (updateSignature a))
        (if a.isIp4 then sizeofIp4Sig else sizeofIp6Sig) none hseg hring.head hring.elems
        (line_length_lt hi hk)
      rw [Option.or_none] at hline
      simp only [flowtableUpdate, hk, hempty, hline, Option.bind_eq_bind, Option.bind_some]
      rfl

theorem flowtableUpdate_spec (hi : Inv fm lines slots) (a : UpdateArgs) :
    ∃ r, flowtableUpdate fm a = some r ∧ Inv r.1 lines slots ∧ SameKeys fm r.1 ∧
      r.1.flowsHt = fm.flowsHt := by
  rw [flowtableUpdate_eq hi a]
  split
  · exact ⟨(fm, -1), rfl, hi, SameKeys.refl fm, rfl⟩
  · exact ⟨_, rfl, hi.setFlow ⟨rfl, rfl, rfl, rfl⟩, sameKeys_setFlow fm rfl rfl, rfl⟩

theorem flowtableProcess_spec (cmp : AddressCompare) {passes now : Nat} {arrivals : List Arrival}
    (hlen : arrivals.length ≤ passes) (hi : Inv fm lines slots) (ht : Tidy fm lines)
    (hlim : ∀ fm', timerWheelIndexUpdate fm now = some fm' →
      Meets (packetStep cmp now) BelowLimit fm' arrivals) :
    ∃ r lines' slots', flowtableProcess cmp passes now fm arrivals = some r ∧
      Inv r.1 lines' slots' ∧ Tidy r.1 lines' := by
  obtain ⟨tm, n, slots', hw, hi', hn⟩ := timerWheelIndexUpdate_spec hi now
  obtain ⟨r, lines', slots'', hr, hi'', ht', hidx⟩ :=
    processLoop_spec cmp now arrivals hlen hi' ht (hlim _ hw)
  obtain ⟨r', lines'', slots₃, hr', hi₃, _, ht''⟩ := flowtableTimerExpire_spec hi'' (hidx ▸ hn)
  refine ⟨(r'.1, r.2, r'.2), lines'', slots₃, ?_, hi₃, ht'' ht'⟩
  simp only [flowtableProcess, hw, hr, hr', Option.bind_eq_bind, Option.bind_some]

theorem initSlot_iterate (fm : FlowtableMain) (hp : fm.timers = empty noNode)
    (hw : fm.timerWheel = []) (n : Nat) :
    initSlot^[n] fm =
      { fm with timers := ⟨fun _ => noNode, n, []⟩, timerWheel := List.range n } := by
  induction n with
  | zero =>
    obtain ⟨flows, flowsHt, htLines, flowsCpt, timers, timerWheel, timeIndex, next⟩ := fm
    cases hp
    cases hw
    rfl
  | succ n ih =>
    have hinit : LinkedRing.init (fun _ => noNode) n = (fun _ => noNode : Mem Nat Nat) :=
      Function.update_eq_self n (fun _ => noNode : Mem Nat Nat)
    rw [Function.iterate_succ_apply', ih, initSlot, List.range_succ]
    simp only [fresh, PoolStore.get, withElt, List.headD_nil, hinit]

theorem flowtableInit_eq (next : Nat) : flowtableInit next =
    { flows := empty zeroFlow
      flowsHt := fun _ => none
      htLines := empty noNode
      flowsCpt := 0
      timers := ⟨fun _ => noNode, timerMaxLifetime, []⟩
      timerWheel := List.range timerMaxLifetime
      timeIndex := noIndex
      nextNodeIndex := next } := by
  unfold flowtableInit
  exact initSlot_iterate _ rfl rfl timerMaxLifetime

theorem not_live_flowtableInit (next f : Nat) : ¬ Live (flowtableInit next).flows f := by
  rw [flowtableInit_eq]
  exact fun hf => Nat.not_lt_zero f hf.1

theorem flowtableInit_inv (next : Nat) :
    Inv (flowtableInit next) (fun _ => []) (fun _ => []) := by
  have hdead := not_live_flowtableInit next
  have hslot : ∀ i < timerMaxLifetime, Live (⟨fun _ => noNode, timerMaxLifetime, []⟩ : Pool DlistElt) i :=
    fun i hi => ⟨hi, by simp⟩
  have hring : ∀ h, Ring (fun _ => noNode : Mem Nat Nat) h [] :=
    fun h => ⟨Or.inr ⟨rfl, rfl⟩, by simp, rfl, by simp⟩
  rw [flowtableInit_eq] at hdead ⊢
  refine ⟨wf_empty _, wf_empty _, ⟨List.nodup_nil, by simp⟩, by dsimp only, Or.inl rfl,
    rfl, ?_, ?_, by simp, hslot, fun e he => absurd he.1 (Nat.not_lt_zero e),
    fun e he => ⟨e, he.1, List.mem_cons_self⟩, by simp, by simp, fun f hf => absurd hf (hdead f),
    fun f hf => absurd hf (hdead f)⟩
  · exact ⟨by simp, fun _ _ => rfl, by simp, by simp⟩
  · refine ⟨fun i h _ => hring h, fun _ _ => rfl, ?_, fun _ _ _ hx => (nomatch hx)⟩
    intro i j h hi hj
    unfold slotHead at hi hj
    split at hi <;> split at hj <;> simp_all

theorem tidy_flowtableInit (next : Nat) : Tidy (flowtableInit next) (fun _ => []) := by
  rw [flowtableInit_eq]
  exact fun k h hk => (nomatch hk)

theorem step_spec (cmp : AddressCompare) (hi : Inv fm lines slots) (ht : Tidy fm lines) {e : Event}
    (he : WithinLimit cmp fm e) :
    ∃ fm' lines' slots', step cmp fm e = some fm' ∧ Inv fm' lines' slots' ∧ Tidy fm' lines' := by
  cases e with
  | frame passes now arrivals =>
    obtain ⟨r, lines', slots', hr, hi', ht'⟩ := flowtableProcess_spec cmp he.1 hi ht he.2
    exact ⟨r.1, lines', slots', by rw [step, hr]; rfl, hi', ht'⟩
  | update args =>
    obtain ⟨r, hr, hi', _, hh⟩ := flowtableUpdate_spec hi args
    exact ⟨r.1, lines, slots, by rw [step, hr]; rfl, hi', fun k h hk => ht k h (hh ▸ hk)⟩

theorem run_spec (cmp : AddressCompare) (events : List Event) {fm : FlowtableMain}
    {lines : BitVec 64 → List Nat} {slots : Nat → List Nat} (hi : Inv fm lines slots)
    (ht : Tidy fm lines) (hw : Meets (step cmp) (WithinLimit cmp) fm events) :
    ∃ fm' lines' slots', run (step cmp) fm events = some fm' ∧ Inv fm' lines' slots' ∧
      Tidy fm' lines' := by
  induction events generalizing fm lines slots with
  | nil => exact ⟨fm, lines, slots, rfl, hi, ht⟩
  | cons e events ih =>
    obtain ⟨fm₁, lines₁, slots₁, hs, hi₁, ht₁⟩ := step_spec cmp hi ht hw.1
    obtain ⟨fm', lines', slots', hr, hspec⟩ := ih hi₁ ht₁ (hw.2 fm₁ hs)
    exact ⟨fm', lines', slots', run_cons_eq_some.mpr ⟨fm₁, hs, hr⟩, hspec⟩

/-- Between any two steps of a run within the flow limit every flow is linked
just once into a hash line and a slot list, and nothing refers to a freed one. -/
theorem run_consistent (cmp : AddressCompare) (next : Nat) (events : List Event)
    (hw : Meets (step cmp) (WithinLimit cmp) (flowtableInit next) events) (es : List Event)
    (he : es <+: events) :
    ∃ fm lines slots, run (step cmp) (flowtableInit next) es = some fm ∧
      Consistent fm lines slots := by
  obtain ⟨rest, rfl⟩ := he
  obtain ⟨fm, lines, slots, hr, hi, ht⟩ :=
    run_spec cmp es (flowtableInit_inv next) (tidy_flowtableInit next) (meets_append.mp hw).1
  exact ⟨fm, lines, slots, hr, hi.consistent ht⟩

def sampleCompare : AddressCompare := ⟨compareWords, compareWords⟩

def udpBuffer (srcPort dstPort : UInt8) : Buffer :=
  { data := fun i => (List.replicate 12 0 ++ [8, 0, 0x45, 0, 0, 0, 0, 0, 0, 0, 64, 17, 0, 0,
      10, 0, 0, 1, 10, 0, 0, 2, 0, srcPort, 0, dstPort]).getD i.toNat 0
    currentData := 0
    currentLength := 38
    vnet := ⟨1, 0, []⟩ }

theorem run_consistent_sample :
    ∃ fm lines slots, run (step sampleCompare) (flowtableInit 0)
      [.frame 1 7 [⟨udpBuffer 1 2, fun _ => []⟩], .update ⟨true, 0, 0, 17, 0, 0, 5, 1, []⟩] =
        some fm ∧ Consistent fm lines slots := by
  refine run_consistent sampleCompare 0 _ ?_ _ (List.prefix_refl _)
  refine ⟨⟨by decide, fun fm' h => ⟨?_, fun _ _ => trivial⟩⟩, fun _ _ => ⟨trivial, fun _ _ => trivial⟩⟩
  obtain ⟨tm, n, _, hw, _, _⟩ := timerWheelIndexUpdate_spec (flowtableInit_inv 0) 7
  rw [hw] at h
  obtain rfl := Option.some.inj h
  simp only [BelowLimit, flowtableInit_eq]
  exact Nat.zero_le _

end Vppsb.FlowRun
