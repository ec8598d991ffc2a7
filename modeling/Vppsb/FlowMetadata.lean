import Vppsb.FlowEnqueue
import Vppsb.FlowUpdateEffect

namespace Vppsb.FlowMetadata

open Vppsb.StepRun Vppsb.PoolStore Vppsb.FlowSignature Vppsb.FlowTable Vppsb.FlowProcess
  Vppsb.FlowInvariant Vppsb.FlowWheel Vppsb.FlowLookup Vppsb.FlowRun Vppsb.FlowIdentity
  Vppsb.FlowUpdate Vppsb.FlowUpdateEffect Vppsb.FlowEnqueue

structure SameMetadata (b b' : Buffer) : Prop where
  swIfIndex : b'.vnet.swIfIndexCurrent = b.vnet.swIfIndexCurrent
  currentData : b'.currentData = b.currentData
  currentLength : b'.currentLength = b.currentLength

/-- A packet that comes with a current-data offset of 0 leaves as it came. -/
def Unchanged (a : Arrival) (s : Sent) : Prop :=
  a.buffer.currentData = 0 → SameMetadata a.buffer s.buffer

def KeepsMetadata (cmp : AddressCompare) (fm : FlowtableMain) : Event → Prop
  | .frame passes now arrivals => ∀ r, flowtableProcess cmp passes now fm arrivals = some r →
      List.Forall₂ Unchanged arrivals r.2.1
  | .update _ => True

/-- If the flow of the packet is offloaded, it has the interface on which the
packet comes in. -/
def FromFlowInterface (cmp : AddressCompare) (now : Nat) (fm : FlowtableMain) (b : Buffer)
    (stack : Bytes) : Prop :=
  ∀ sigLen p f,
    parsePacket cmp (ethernetType b) (vlibBufferAdvance b sizeofEthernetHeader) = some (sigLen, p) →
    flowtableEntryLookupCreate fm p.hash stack sigLen now = some (fm, some f, false) →
    (fm.flows.elt f).infos.offloaded ≠ 0 →
      (fm.flows.elt f).infos.swIfIndexCurrent = b.vnet.swIfIndexCurrent

def entered (k : Nat) (b : Buffer) : Buffer :=
  { b with currentData := b.currentData - sizeofEthernetHeader * k
           currentLength := b.currentLength + sizeofEthernetHeader * k }

/-- The condition for all passes of the loop, each on the state before it. -/
def FlowInterfaces (cmp : AddressCompare) (now : Nat) :
    Nat → Nat → FlowtableMain → List Arrival → Prop
  | _, _, _, [] => True
  | 0, _, _, _ :: _ => True
  | n + 1, k, fm, a :: rest =>
    ((entered k a.buffer).currentData = 0 → FromFlowInterface cmp now fm a.buffer (a.stack k)) ∧
      ∀ r, processPacket cmp now fm a.buffer (a.stack k) = some r →
        match r with
        | (fm, b, none) => FlowInterfaces cmp now n (k + 1) fm (⟨b, a.stack⟩ :: rest)
        | (fm, _, some _) => FlowInterfaces cmp now n 0 fm rest

def StepInterfaces (cmp : AddressCompare) (fm : FlowtableMain) : Event → Prop
  | .frame passes now arrivals => ∀ fm₁, timerWheelIndexUpdate fm now = some fm₁ →
      FlowInterfaces cmp now passes 0 fm₁ arrivals
  | .update _ => True

section Pass

variable {cmp : AddressCompare} {now : Nat} {fm : FlowtableMain} {b : Buffer} {stack : Bytes}

@[simp] theorem entered_zero (b : Buffer) : entered 0 b = b := by
  simp [entered]

theorem entered_advance (k : Nat) (b : Buffer) :
    entered (k + 1) (vlibBufferAdvance b sizeofEthernetHeader) = entered k b := by
  simp only [entered, vlibBufferAdvance, sizeofEthernetHeader, Buffer.mk.injEq, and_true, true_and]
  constructor <;> omega

theorem reset_entered {k : Nat} (h : (entered k b).currentData = 0) :
    (vlibBufferReset b).currentData = (entered k b).currentData ∧
      (vlibBufferReset b).currentLength = (entered k b).currentLength := by
  simp only [entered, vlibBufferReset, sizeofEthernetHeader] at h ⊢
  omega

theorem reset_advance (hpos : 0 ≤ b.currentData) (infos : FlowData) :
    (vlibBufferReset { vlibBufferAdvance b sizeofEthernetHeader with vnet := infos }).currentData =
        (vlibBufferReset b).currentData ∧
      (vlibBufferReset { vlibBufferAdvance b sizeofEthernetHeader with vnet := infos }).currentLength =
        (vlibBufferReset b).currentLength := by
  refine ⟨rfl, ?_⟩
  have hmax : max (b.currentData + 14) 0 = b.currentData + 14 := max_eq_left (by omega)
  simp only [vlibBufferReset, vlibBufferAdvance, sizeofEthernetHeader, hmax, max_eq_left hpos]
  omega

theorem entered_nonneg {k : Nat} (h : (entered k b).currentData = 0) : 0 ≤ b.currentData := by
  simp only [entered, sizeofEthernetHeader] at h
  omega

theorem offload_infos (e : FlowEntry) (rev : Option (BitVec 64)) (rx : UInt32) :
    (offloadPacket (countPacket e rev) rx).infos =
      if e.infos.offloaded ≠ 0 then e.infos else { e.infos with swIfIndexCurrent := rx } := by
  have hcount : (countPacket e rev).infos = e.infos := by
    rw [countPacket]
    split <;> rfl
  rw [offloadPacket, hcount]
  split
  · exact hcount
  · rfl

theorem refreshFlow_infos {lines : BitVec 64 → List Nat} {slots : Nat → List Nat}
    (hi : Inv fm lines slots) {f : Nat} (hf : Live fm.flows f) {created : Bool}
    {fm' : FlowtableMain} (hr : refreshFlow fm f now created = some fm') :
    (fm'.flows.elt f).infos = (fm.flows.elt f).infos := by
  cases created with
  | true =>
    obtain rfl := Option.some.inj hr
    rfl
  | false =>
    obtain ⟨tm, ex, slots', hres, _⟩ := timerWheelReschedFlow_spec hi hf now
    obtain rfl := Option.some.inj (hres.symm.trans hr)
    simp only [FlowTable.setFlow, elt_set, Function.update_self]

/-- A pass that gets a flow leaves the interface as it was, when and only when
the flow is not an offloaded one with another interface. -/
theorem found_interface {lines : BitVec 64 → List Nat} {slots : Nat → List Nat}
    (hi : Inv fm lines slots) {sigLen : Nat} {p : Parsed}
    (hp : parsePacket cmp (ethernetType b) (vlibBufferAdvance b sizeofEthernetHeader) =
      some (sigLen, p)) {fm₁ fm₂ : FlowtableMain} {f : Nat} {created : Bool}
    (hq : flowtableEntryLookupCreate fm p.hash stack sigLen now = some (fm₁, some f, created))
    (hres : refreshFlow fm₁ f now created = some fm₂) :
    (offloadPacket (countPacket (fm₂.flows.elt f) p.isReverse)
        b.vnet.swIfIndexCurrent).infos.swIfIndexCurrent = b.vnet.swIfIndexCurrent ↔
      FromFlowInterface cmp now fm b stack := by
  obtain ⟨q, hq', hl, lines', slots', hi', _⟩ | ⟨_, hn⟩ :=
    lookupCreate_looked hi p.hash stack sigLen now
  · obtain rfl := Option.some.inj (hq'.symm.trans hq)
    rw [offload_infos]
    cases hl with
    | hit f hf =>
      rw [refreshFlow_infos hi hf hres]
      constructor
      · intro h sigLen' p' g hp' hg hoff
        obtain ⟨rfl, rfl⟩ := Prod.mk.inj (Option.some.inj (hp.symm.trans hp'))
        obtain ⟨_, hg⟩ := Prod.mk.inj (Option.some.inj (hq.symm.trans hg))
        obtain rfl := Option.some.inj (Prod.mk.inj hg).1
        rwa [if_pos hoff] at h
      · intro h
        by_cases hoff : (fm.flows.elt f).infos.offloaded ≠ 0
        · rw [if_pos hoff]
          exact h sigLen p f hp hq hoff
        · rw [if_neg hoff]
    | made fm' t e h hflows =>
      -- a new flow is not offloaded
      obtain rfl := Option.some.inj hres
      have hoff : ¬ (fm₁.flows.elt (fresh fm.flows)).infos.offloaded ≠ 0 := by
        rw [hflows, elt_set, Function.update_self]
        exact fun hne => hne rfl
      apply iff_of_true
      · rw [if_neg hoff]
      · intro sigLen' p' g hp' hg
        obtain ⟨rfl, rfl⟩ := Prod.mk.inj (Option.some.inj (hp.symm.trans hp'))
        obtain ⟨_, hg⟩ := Prod.mk.inj (Option.some.inj (hq.symm.trans hg))
        exact absurd (Prod.mk.inj hg).2 (by decide)
  · rw [hn] at hq
    exact absurd hq.symm (Option.some_ne_none _)

theorem pass_same_iff (hs : Linked fm) {fm' : FlowtableMain} {b' : Buffer} {s : Sent}
    (hr : processPacket cmp now fm b stack = some (fm', b', some s)) {k : Nat}
    (h : (entered k b).currentData = 0) :
    SameMetadata (entered k b) s.buffer ↔ FromFlowInterface cmp now fm b stack := by
  obtain ⟨hdata, hlength⟩ := reset_entered h
  obtain ⟨lines, slots, hi⟩ := hs
  cases passEnd hr with
  | other hp =>
    apply iff_of_true
    · exact ⟨rfl, hdata, hlength⟩
    · intro sigLen p f hp'
      rw [hp] at hp'
      exact absurd hp'.symm (Option.some_ne_none _)
  | flow next0 hp hq hres he =>
    subst he
    rw [← found_interface hi hp hq hres]
    obtain ⟨hdata', hlength'⟩ := reset_advance (entered_nonneg h) _
    constructor
    · intro hsame
      exact hsame.swIfIndex
    · intro hif
      exact ⟨hif, hdata'.trans hdata, hlength'.trans hlength⟩

theorem pass_failed {fm' : FlowtableMain} {b' : Buffer}
    (hr : processPacket cmp now fm b stack = some (fm', b', none)) :
    b' = vlibBufferAdvance b sizeofEthernetHeader ∧ FromFlowInterface cmp now fm b stack := by
  cases passEnd hr with
  | full hp hq =>
    refine ⟨rfl, ?_⟩
    intro sigLen' p' g hp' hg
    obtain ⟨rfl, rfl⟩ := Prod.mk.inj (Option.some.inj (hp.symm.trans hp'))
    obtain ⟨_, hg⟩ := Prod.mk.inj (Option.some.inj (hq.symm.trans hg))
    exact absurd (Prod.mk.inj hg).1.symm (Option.some_ne_none g)

end Pass

def asEntered (k : Nat) : List Arrival → List Arrival
  | [] => []
  | a :: rest => ⟨entered k a.buffer, a.stack⟩ :: rest

@[simp] theorem asEntered_zero (xs : List Arrival) : asEntered 0 xs = xs := by
  cases xs with
  | nil => rfl
  | cons a rest => rw [asEntered, entered_zero]

/-- The loop leaves the buffers as they came in, when and only when each of its
passes meets the condition. -/
theorem loop_unchanged_iff {cmp : AddressCompare} {now : Nat} (n : Nat) {k : Nat}
    {fm : FlowtableMain} {xs : List Arrival} {r : FlowtableMain × List Sent} (hs : Linked fm)
    (hr : processLoop cmp now n k fm xs = some r) :
    List.Forall₂ Unchanged (asEntered k xs) r.2 ↔ FlowInterfaces cmp now n k fm xs := by
  induction n generalizing k fm xs r with
  | zero =>
    cases xs with
    | nil =>
      obtain rfl := Option.some.inj hr
      exact iff_of_true .nil trivial
    | cons a rest => cases hr
  | succ n ih =>
    cases xs with
    | nil =>
      obtain rfl := Option.some.inj hr
      exact iff_of_true .nil trivial
    | cons a rest =>
      simp only [processLoop, Option.bind_eq_bind] at hr
      obtain ⟨⟨fm', b, os⟩, hp, hr⟩ := Option.bind_eq_some_iff.mp hr
      have hs' := (pass_linked hs hp).1
      simp only [FlowInterfaces, hp, Option.some.injEq, forall_eq']
      cases os with
      | none =>
        obtain ⟨rfl, hif⟩ := pass_failed hp
        have hrest := ih hs' hr
        rw [asEntered, entered_advance] at hrest
        rw [asEntered, hrest]
        exact (and_iff_right fun _ => hif).symm
      | some s =>
        obtain ⟨r', hl, hr⟩ := Option.bind_eq_some_iff.mp hr
        obtain rfl := Option.some.inj hr
        have hrest := ih hs' hl
        rw [asEntered_zero] at hrest
        rw [asEntered, List.forall₂_cons, hrest]
        refine and_congr_left fun _ => ?_
        exact forall_congr' fun h => pass_same_iff hs hp h

theorem step_keeps_iff (cmp : AddressCompare) (fm : FlowtableMain) (e : Event) (hs : Linked fm)
    (hr : ∃ fm', step cmp fm e = some fm') : KeepsMetadata cmp fm e ↔ StepInterfaces cmp fm e := by
  cases e with
  | update args => exact Iff.rfl
  | frame passes now arrivals =>
    obtain ⟨lines, slots, hi⟩ := hs
    obtain ⟨tm, n, slots', hw, hi', _⟩ := timerWheelIndexUpdate_spec hi now
    obtain ⟨fm', hr⟩ := hr
    obtain ⟨r, hr, _⟩ := Option.map_eq_some_iff.mp hr
    have hproc := hr
    simp only [flowtableProcess, hw, Option.bind_eq_bind, Option.bind_some] at hproc
    obtain ⟨r₁, hl, hproc⟩ := Option.bind_eq_some_iff.mp hproc
    obtain ⟨r₂, _, hproc⟩ := Option.bind_eq_some_iff.mp hproc
    obtain rfl := Option.some.inj hproc
    have hloop := loop_unchanged_iff passes ⟨lines, slots', hi'⟩ hl
    rw [asEntered_zero] at hloop
    simp only [KeepsMetadata, StepInterfaces, hr, hw, Option.some.injEq, forall_eq']
    exact hloop

/-- Along any run of frames and updates, every packet leaves with the metadata it
came with, when and only when no offloaded flow has another interface than the
packet that finds it. -/
theorem run_keeps_iff (cmp : AddressCompare) (next : Nat) (events : List Event) (fm : FlowtableMain)
    (hr : run (step cmp) (flowtableInit next) events = some fm) :
    Meets (step cmp) (KeepsMetadata cmp) (flowtableInit next) events ↔
      Meets (step cmp) (StepInterfaces cmp) (flowtableInit next) events :=
  meets_congr (fun s e t hs _ _ ht => step_linked cmp s e t hs ht)
    (fun s e hs he => step_keeps_iff cmp s e hs he) ⟨_, _, flowtableInit_inv next⟩
    (meets_of_run hr)

def offloadEvents : List Event := [storedFrame, .update udpArgs]

def otherInterface : Arrival := ⟨{ udpBuffer 1 2 with vnet := ⟨2, 0, []⟩ }, fun _ => sigBytes firstSig⟩

theorem run_keeps_iff_sample :
    ∃ fm, run (step sampleCompare) (flowtableInit 0) offloadEvents = some fm ∧
      (Meets (step sampleCompare) (KeepsMetadata sampleCompare) (flowtableInit 0) offloadEvents ↔
        Meets (step sampleCompare) (StepInterfaces sampleCompare) (flowtableInit 0) offloadEvents) := by
  have heval : (run (step sampleCompare) (flowtableInit 0) offloadEvents).map (fun _ => ()) =
      some () := by
    rw [flowtableInit_eq]
    decide +kernel
  obtain ⟨fm, hr, _⟩ := Option.map_eq_some_iff.mp heval
  exact ⟨fm, hr, run_keeps_iff sampleCompare 0 _ fm hr⟩

/-- The packet of an offloaded flow leaves with the interface of another packet. -/
theorem offloaded_packet_moves :
    (∃ fm r, run (step sampleCompare) (flowtableInit 0) offloadEvents = some fm ∧
        flowtableProcess sampleCompare 1 8 fm [otherInterface] = some r ∧
        r.2.1.map (fun s => s.buffer.vnet.swIfIndexCurrent) = [1]) ∧
      ¬ Meets (step sampleCompare) (KeepsMetadata sampleCompare) (flowtableInit 0)
        (offloadEvents ++ [.frame 1 8 [otherInterface]]) := by
  have heval : ((run (step sampleCompare) (flowtableInit 0) offloadEvents).bind (fun fm =>
      flowtableProcess sampleCompare 1 8 fm [otherInterface])).map (fun r =>
        r.2.1.map (fun s => s.buffer.vnet.swIfIndexCurrent)) = some [1] := by
    rw [flowtableInit_eq]
    decide +kernel
  obtain ⟨r, hr, hif⟩ := Option.map_eq_some_iff.mp heval
  obtain ⟨fm, hfm, hr⟩ := Option.bind_eq_some_iff.mp hr
  refine ⟨⟨fm, r, hfm, hr, hif⟩, fun hall => ?_⟩
  have hkept := ((meets_append.mp hall).2 fm hfm).1 r hr
  obtain ⟨s, rest, hone, _, hcons⟩ := List.forall₂_cons_left_iff.mp hkept
  have hsame : s.buffer.vnet.swIfIndexCurrent = 2 := (hone rfl).swIfIndex
  rw [hcons, List.map_cons, hsame] at hif
  exact absurd (List.cons.inj hif).1 (by decide)

end Vppsb.FlowMetadata
