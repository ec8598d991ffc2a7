import Vppsb.FlowCounters
import Vppsb.FlowMetadata
import Vppsb.PortCopies

namespace Vppsb.FlowMirroring

open Vppsb.StepRun Vppsb.PoolStore Vppsb.KeyedPool Vppsb.FlowSignature Vppsb.FlowTable
  Vppsb.FlowProcess Vppsb.FlowInvariant Vppsb.FlowCreate Vppsb.FlowExpire Vppsb.FlowWheel
  Vppsb.FlowLookup Vppsb.FlowRun Vppsb.FlowIdentity Vppsb.FlowEnqueue Vppsb.FlowMetadata
open Vppsb.FlowUpdate (Selects selects_iff_end)
open Vppsb.NextFrames (placed enqueued getNextFrame noFrames placed_validate_write placed_withRoom
  enqueued_putNextFrame)
open Vppsb.PortMirror (PmMain Conf pmInit pmInHitNNext pmInHitNodeFn)
open Vppsb.PortCopies (Configured Directed collectorAfter copiesOf toward apply_configured
  apply_directed inNode_spec)

def noIndex32 : UInt32 := 0xffffffff

inductive Redirect where
  | done
  | invalidSwIfIndex
  | unimplemented
  | failed (rv : Int)

structure FlowtableConf where
  swIfIndex : UInt32
  enableDisable : UInt8
  nextNodeIndex : UInt8

/-- `redirect` is the call of `flowtable_enable_disable`. -/
def vlApiFlowtableConfTHandler (redirect : UInt32 → Bool → Redirect) (fm : FlowtableMain)
    (mp : FlowtableConf) : FlowtableMain × Redirect :=
  let next := if mp.nextNodeIndex = 0xff then ftNextEthernetInput else mp.nextNodeIndex.toNat
  ({ fm with nextNodeIndex := next }, redirect mp.swIfIndex (decide (mp.enableDisable = 0)))

inductive Word where
  | disable
  | nextNode (index : UInt32)
  | interface (swIfIndex : UInt32)
  | other

structure CommandArgs where
  swIfIndex : UInt32
  enableDisable : Bool
  nextNodeIndex : UInt32

def parseCommand : CommandArgs → List Word → CommandArgs
  | a, [] => a
  | a, .disable :: rest => parseCommand { a with enableDisable := false } rest
  | a, .nextNode i :: rest => parseCommand { a with nextNodeIndex := i } rest
  | a, .interface i :: rest => parseCommand { a with swIfIndex := i } rest
  | a, .other :: _ => a

def commandArgs (words : List Word) : CommandArgs := parseCommand ⟨noIndex32, true, noIndex32⟩ words

def redirectError : Redirect → Option String
  | .done => none
  | .invalidSwIfIndex => some "Invalid interface"
  | .unimplemented => some "Device driver doesn't support redirection"
  | .failed rv => some s!"flowtable_enable_disable returned {rv}"

def flowtableEnableDisableCommandFn (redirect : UInt32 → Bool → Redirect) (fm : FlowtableMain)
    (words : List Word) : FlowtableMain × Option String :=
  let a := commandArgs words
  if a.swIfIndex = noIndex32 then (fm, some "No Interface specified")
  else
    let next := if a.nextNodeIndex ≠ noIndex32 then a.nextNodeIndex.toNat else ftNextEthernetInput
    ({ fm with nextNodeIndex := next }, redirectError (redirect a.swIfIndex a.enableDisable))

/-- The flowtable with the mirror behind it. The queue are the buffers that wait for the input
node of the mirror. -/
structure Chain where
  table : FlowtableMain
  pm : PmMain
  queue : List Buffer
  onward : List (Nat × Buffer)
  copies : List (Buffer × UInt32)

inductive Event where
  | frame (room : Nat → Nat) (cachedNextIndex passes now : Nat) (arrivals : List Arrival)
  | update (a : UpdateArgs)
  | conf (redirect : UInt32 → Bool → Redirect) (mp : FlowtableConf)
  | command (redirect : UInt32 → Bool → Redirect) (words : List Word)
  | pmCommand (c : PortMirror.Command)
  /-- The input node of the mirror gets a frame of as many buffers. -/
  | mirror (room : Nat → Nat) (cachedNextIndex : Fin pmInHitNNext) (n : Nat)

/-- The buffers of a frame by their place in it. -/
def numbered (k : Nat) : List Arrival → List (Nat × Arrival)
  | [] => []
  | a :: rest => (k, a) :: numbered (k + 1) rest

def framesFor (next : Nat) (frames : List (Nat × List Nat)) (sent : List Sent) : List Buffer :=
  ((enqueued frames).filter (fun x => decide (x.1 = next))).filterMap
    (fun x => sent[x.2]?.map Sent.buffer)

/-- The next state, and what the flowtable has sent. `mirror` is the next index under which the
flowtable knows the input node of the mirror. -/
def step (cmp : AddressCompare) (mirror : Nat) (s : Chain) : Event → Option (Chain × List Sent)
  | .frame room cached passes now arrivals => do
    let r ← flowtableProcess cmp passes now s.table arrivals
    let frames ← flowtableFrames cmp room passes now cached s.table (numbered 0 arrivals)
    some ({ s with
      table := r.1
      queue := s.queue ++ framesFor mirror frames.2.1 r.2.1 }, r.2.1)
  | .update a => (flowtableUpdate s.table a).map (fun r => ({ s with table := r.1 }, []))
  | .conf redirect mp => some ({ s with table := (vlApiFlowtableConfTHandler redirect s.table mp).1 }, [])
  | .command redirect words =>
    some ({ s with table := (flowtableEnableDisableCommandFn redirect s.table words).1 }, [])
  | .pmCommand c => some ({ s with pm := PortMirror.apply s.pm c }, [])
  | .mirror room cached n =>
    (pmInHitNodeFn room s.pm cached (s.queue.take n)).map fun r =>
      ({ s with
        queue := s.queue.drop n
        onward := s.onward ++ enqueued r.sent
        copies := s.copies ++ r.copies }, [])

/-- A packet that the flowtable has handled: as it came and as it was sent, with what was asked
for its flow and which next node was configured at the time. -/
structure Handled where
  came : Buffer
  sent : Sent
  asked : UInt8
  next : Nat

/-- What the chain was told, and what it is to do. The flag of a flow is the one of the last
update of the flow since it was made. -/
structure Ledger where
  asked : Nat → UInt8
  next : Nat
  collector : Option UInt32
  mirrorNext : Option Nat
  handled : List Handled
  due : List (Buffer × UInt32)
  passed : List (Nat × Buffer)

def nextAfter (next : Nat) : Event → Nat
  | .conf _ mp => if mp.nextNodeIndex = 0xff then ftNextEthernetInput else mp.nextNodeIndex.toNat
  | .command _ words =>
    let a := commandArgs words
    if a.swIfIndex = noIndex32 then next
    else if a.nextNodeIndex ≠ noIndex32 then a.nextNodeIndex.toNat else ftNextEthernetInput
  | _ => next

/-- The flag asked for the flow of a packet, 0 if it has none. -/
def flagOf (asked : Nat → UInt8) (x : Sent) : UInt8 := (x.lookup.map (fun q => asked q.2)).getD 0

open Classical in
noncomputable def Ledger.after (l : Ledger) (s t : Chain) (e : Event) (sent : List Sent) : Ledger :=
  match e with
  | .frame _ _ _ _ arrivals =>
    { l with
      asked := fun f => if Live t.table.flows f then l.asked f else 0
      handled := l.handled ++
        List.zipWith (fun a x => ⟨a.buffer, x, flagOf l.asked x, l.next⟩) arrivals sent }
  | .update a => { l with asked := fun f => if Selects s.table a f then a.offloaded else l.asked f }
  | .pmCommand c =>
    { l with
      collector := collectorAfter l.collector c
      mirrorNext := PortCopies.nextAfter l.mirrorNext c }
  | .mirror _ _ n =>
    { l with
      due := l.due ++ copiesOf l.collector (s.queue.take n)
      passed := l.passed ++ toward l.mirrorNext (s.queue.take n) }
  | e => { l with next := nextAfter l.next e }

structure Watched where
  chain : Chain
  ledger : Ledger

noncomputable def watchedStep (cmp : AddressCompare) (mirror : Nat) (s : Watched) (e : Event) :
    Option Watched :=
  (step cmp mirror s.chain e).map (fun r => ⟨r.1, s.ledger.after s.chain r.1 e r.2⟩)

def start (next : Nat) : Watched :=
  ⟨⟨flowtableInit next, pmInit, [], [], []⟩, ⟨fun _ => 0, next, none, some 0, [], [], []⟩⟩

/-- The frames stay within the limit of the flows, the next node that is configured is one of
those that the flowtable has, and no packet comes to the mirror between a deletion and the next
addition. -/
def Within (cmp : AddressCompare) (nexts : Nat) (s : Watched) : Event → Prop
  | .frame _ _ passes now arrivals => WithinLimit cmp s.chain.table (.frame passes now arrivals)
  | .mirror _ _ n => s.chain.queue.take n ≠ [] → s.ledger.mirrorNext ≠ none
  | e => nextAfter s.ledger.next e < nexts

/-- A packet goes to the configured node just when it has a flow that is not to be offloaded, and
unless its flow is, it goes on as it came. -/
structure Forwarded (h : Handled) : Prop where
  goes : h.sent.next0 = if h.sent.lookup.isSome ∧ h.asked = 0 then h.next else ftNextEthernetInput
  same : h.came.currentData = 0 → h.asked = 0 →
    SameMetadata h.came h.sent.buffer ∧ h.sent.buffer.data = h.came.data

def arrived : List Event → List Arrival
  | [] => []
  | .frame _ _ _ _ arrivals :: es => arrivals ++ arrived es
  | _ :: es => arrived es

def toMirror (mirror : Nat) (handled : List Handled) : List Buffer :=
  (handled.filter (fun h => decide (h.sent.next0 = mirror))).map (fun h => h.sent.buffer)

section Pass

variable {cmp : AddressCompare} {fm fm' fm₁ : FlowtableMain} {lines : BitVec 64 → List Nat}
  {slots : Nat → List Nat} {now : Nat} {b : Buffer} {stack : Bytes} {asked : Nat → UInt8}

/-- The flags are those that were asked for, and no flag is kept for a flow that is gone. -/
def Flagged (fm : FlowtableMain) (asked : Nat → UInt8) : Prop :=
  ∀ f, if Live fm.flows f then (fm.flows.elt f).infos.offloaded = asked f else asked f = 0

theorem Flagged.live (h : Flagged fm asked) {f : Nat} (hf : Live fm.flows f) :
    (fm.flows.elt f).infos.offloaded = asked f := by
  have := h f
  rwa [if_pos hf] at this

theorem Flagged.gone (h : Flagged fm asked) {f : Nat} (hf : ¬ Live fm.flows f) : asked f = 0 := by
  have := h f
  rwa [if_neg hf] at this

theorem Flagged.set (h : Flagged fm asked) {f : Nat} {e : FlowEntry}
    (hfl : fm'.flows = PoolStore.set fm.flows f e) (he : e.infos.offloaded = asked f) :
    Flagged fm' asked := by
  intro g
  have hiff : Live fm'.flows g ↔ Live fm.flows g := by
    rw [hfl]
    exact Iff.rfl
  by_cases hg : Live fm.flows g
  · rw [if_pos (hiff.mpr hg), hfl, elt_set]
    by_cases hgf : g = f
    · rw [hgf, Function.update_self, he]
    · rw [Function.update_of_ne hgf]
      exact h.live hg
  · rw [if_neg fun hl => hg (hiff.mp hl)]
    exact h.gone hg

theorem Flagged.insert (h : Flagged fm asked) (hwf : WF fm.flows) {e : FlowEntry}
    (hfl : fm'.flows = KeyedPool.insert fm.flows e) (he : e.infos.offloaded = 0) :
    Flagged fm' asked := by
  intro g
  rw [hfl]
  by_cases hg : Live (KeyedPool.insert fm.flows e) g
  · rw [if_pos hg]
    obtain hg | rfl := (live_insert hwf g).mp hg
    · rw [elt_insert_old hg]
      exact h.live hg
    · rw [elt_insert_fresh, he]
      exact (h.gone not_live_fresh).symm
  · rw [if_neg hg]
    exact h.gone fun hl => hg ((live_insert hwf g).mpr (Or.inl hl))

theorem offload_rx (e : FlowEntry) (rev : Option (BitVec 64)) (rx : UInt32)
    (h : e.infos.offloaded = 0) :
    (offloadPacket (countPacket e rev) rx).infos.swIfIndexCurrent = rx := by
  rw [offload_infos, if_neg (not_not.mpr h)]

structure Sends (fm fm' : FlowtableMain) (b : Buffer) (asked : Nat → UInt8) (s : Sent) : Prop where
  linked : Linked fm'
  flagged : Flagged fm' asked
  next : fm'.nextNodeIndex = fm.nextNodeIndex
  forwarded : Forwarded ⟨b, s, flagOf asked s, fm.nextNodeIndex⟩

theorem same_reset (infos : FlowData) (h : b.currentData = 0)
    (hrx : infos.swIfIndexCurrent = b.vnet.swIfIndexCurrent) :
    SameMetadata b (vlibBufferReset { vlibBufferAdvance b sizeofEthernetHeader with vnet := infos }) ∧
      (vlibBufferReset { vlibBufferAdvance b sizeofEthernetHeader with vnet := infos }).data =
        b.data := by
  refine ⟨⟨hrx, h.symm, ?_⟩, rfl⟩
  rw [(reset_advance (le_of_eq h.symm) infos).2, vlibBufferReset, h]
  exact Int.add_zero _

theorem sends_flow (hl : Linked fm') (hf : Flagged fm' asked)
    (hn : fm'.nextNodeIndex = fm.nextNodeIndex) {sig : Signature} {f : Nat} {e : FlowEntry}
    (he : e.infos.offloaded = asked f)
    (hrx : asked f = 0 → e.infos.swIfIndexCurrent = b.vnet.swIfIndexCurrent) :
    Sends fm fm' b asked
      ⟨vlibBufferReset { vlibBufferAdvance b sizeofEthernetHeader with vnet := e.infos },
        if e.infos.offloaded ≠ 0 then ftNextEthernetInput else fm'.nextNodeIndex, some (sig, f)⟩ := by
  refine ⟨hl, hf, hn, ?_, fun h0 ha => same_reset e.infos h0 (hrx ha)⟩
  change (if e.infos.offloaded ≠ 0 then _ else _) = if true = true ∧ asked f = 0 then _ else _
  rw [he, hn]
  by_cases ha : asked f = 0
  · rw [if_neg (not_not.mpr ha), if_pos ⟨rfl, ha⟩]
  · rw [if_pos ha, if_neg (fun h => ha h.2)]

theorem sends_pass (hi : Inv fm lines slots) (hf : Flagged fm asked) {b' : Buffer} {s : Sent}
    (hr : processPacket cmp now fm b stack = some (fm', b', some s)) :
    Sends fm fm' b asked s := by
  cases hp : parsePacket cmp (ethernetType b) (vlibBufferAdvance b sizeofEthernetHeader) with
  | none =>
    simp only [processPacket, hp] at hr
    obtain ⟨rfl, hs⟩ := Prod.mk.inj (Option.some.inj hr)
    obtain rfl := Option.some.inj (Prod.mk.inj hs).2
    refine ⟨⟨lines, slots, hi⟩, hf, rfl, rfl, fun h0 _ => ⟨⟨rfl, h0.symm, ?_⟩, rfl⟩⟩
    rw [vlibBufferReset, h0]
    exact Int.add_zero _
  | some q =>
    obtain ⟨sigLen, p⟩ := q
    simp only [processPacket, hp, Option.bind_eq_bind] at hr
    obtain ⟨⟨fm₁, of, made⟩, hq, hr⟩ := Option.bind_eq_some_iff.mp hr
    obtain ⟨f, hfound, hlive⟩ | ⟨fm₁', head, hfm, hi₁, hk, hc⟩ := lookupCreate_cases hi hq
    · cases hfound
      obtain ⟨tm, slots', hput, hi', -⟩ := timerWheelReschedFlow_slots hi hlive now
      simp only [refreshFlow, Bool.false_eq_true, if_false, hput, Option.bind_some] at hr
      generalize hfm₂ : setFlow { fm with timers := withElt fm.timers tm } f
        { fm.flows.elt f with expire := u32 (now + (fm.flows.elt f).lifetime) } = fm₂ at hi' hr
      have hinfos : (fm₂.flows.elt f).infos = (fm.flows.elt f).infos := by
        rw [← hfm₂]
        simp [setFlow]
      generalize he : offloadPacket (countPacket (fm₂.flows.elt f) p.isReverse)
        b.vnet.swIfIndexCurrent = e at hr
      have hflag : e.infos.offloaded = asked f := by
        rw [← he, (FlowCounters.offload_stats _ _ _).2, hinfos, hf.live hlive]
      obtain ⟨rfl, hs⟩ := Prod.mk.inj (Option.some.inj hr)
      obtain rfl := Option.some.inj (Prod.mk.inj hs).2
      have hfl : (setFlow fm₂ f e).flows = PoolStore.set fm.flows f e := by
        rw [← hfm₂]
        exact set_set fm.flows f _ e
      have hn : (setFlow fm₂ f e).nextNodeIndex = fm.nextNodeIndex := by
        rw [← hfm₂]
        rfl
      refine sends_flow ⟨_, _, hi'.setFlow (he ▸ (offload_links _ _ _).1)⟩
        (hf.set hfl hflag) hn hflag fun ha => ?_
      rw [← he]
      apply offload_rx
      rw [hinfos, hf.live hlive, ha]
    · obtain hnone | ⟨lm, tm, hnew, hi'⟩ := createFlow_cases hi₁ hk hc
      · cases hnone
        exact absurd (Prod.mk.inj (Prod.mk.inj (Option.some.inj hr)).2).2.symm (Option.some_ne_none s)
      · cases hnew
        have hflows : fm₁'.flows = fm.flows := by
          obtain rfl | rfl := hfm <;> rfl
        have hn₁ : fm₁'.nextNodeIndex = fm.nextNodeIndex := by
          obtain rfl | rfl := hfm <;> rfl
        simp only [refreshFlow, if_true, Option.bind_some, created_new] at hr
        generalize he : offloadPacket (countPacket (linkedFlow fm₁' p.hash stack sigLen now head)
          p.isReverse) b.vnet.swIfIndexCurrent = e at hr
        have hlinks : SameLinks e ((created fm₁' p.hash stack sigLen now head lm tm).flows.elt
            (fresh fm₁'.flows)) := by
          rw [created_new]
          exact he ▸ (offload_links _ _ _).1
        have hoff : e.infos.offloaded = 0 := by
          rw [← he, (FlowCounters.offload_stats _ _ _).2]
          rfl
        have hgone : asked (fresh fm₁'.flows) = 0 := by
          rw [hflows]
          exact hf.gone not_live_fresh
        obtain ⟨rfl, hs⟩ := Prod.mk.inj (Option.some.inj hr)
        obtain rfl := Option.some.inj (Prod.mk.inj hs).2
        have hset : (setFlow (created fm₁' p.hash stack sigLen now head lm tm) (fresh fm₁'.flows)
            e).flows = KeyedPool.insert fm.flows e := by
          rw [← hflows]
          exact set_set (get fm₁'.flows) (fresh fm₁'.flows) _ e
        refine sends_flow ⟨_, _, hi'.setFlow hlinks⟩ (hf.insert hi.flowsWF hset hoff) hn₁
          (hoff.trans hgone.symm) fun _ => ?_
        rw [← he]
        exact offload_rx _ _ _ rfl

end Pass

section Loop

variable {cmp : AddressCompare} {fm : FlowtableMain} {now : Nat} {asked : Nat → UInt8}
  {room : Nat → Nat}

theorem loop_sent (hl : Linked fm) {n : Nat} {a : Arrival} {rest : List Arrival}
    {r : FlowtableMain × List Sent}
    (hlim : Meets (packetStep cmp now) BelowLimit fm (a :: rest))
    (hr : processLoop cmp now n 0 fm (a :: rest) = some r) :
    ∃ m fm' b s r', n = m + 1 ∧ processPacket cmp now fm a.buffer (a.stack 0) = some (fm', b, some s) ∧
      processLoop cmp now m 0 fm' rest = some r' ∧ r = (r'.1, s :: r'.2) ∧
      Meets (packetStep cmp now) BelowLimit fm' rest := by
  cases n with
  | zero => cases hr
  | succ m =>
    simp only [processLoop, Option.bind_eq_bind] at hr
    obtain ⟨⟨fm', b, os⟩, hp, hr⟩ := Option.bind_eq_some_iff.mp hr
    obtain ⟨hbelow, hrest⟩ := hlim
    cases os with
    | none =>
      obtain ⟨_, _, _, hfull, _⟩ := (pass_iff hl hp).mp rfl
      exact absurd hbelow (Nat.not_le_of_lt hfull)
    | some s =>
      obtain ⟨r', hl, hr⟩ := Option.bind_eq_some_iff.mp hr
      refine ⟨m, fm', b, s, r', rfl, hp, hl, (Option.some.inj hr).symm, hrest fm' ?_⟩
      rw [packetStep, hp]
      rfl

structure Sweeps (fm : FlowtableMain) (asked : Nat → UInt8) (arrivals : List Arrival)
    (r : FlowtableMain × List Sent) : Prop where
  linked : Linked r.1
  flagged : Flagged r.1 asked
  next : r.1.nextNodeIndex = fm.nextNodeIndex
  index : r.1.timeIndex = fm.timeIndex
  forwarded : List.Forall₂ (fun a s => Forwarded ⟨a.buffer, s, flagOf asked s, fm.nextNodeIndex⟩)
    arrivals r.2

theorem sweeps_loop (arrivals : List Arrival) {n : Nat} {fm : FlowtableMain} (hl : Linked fm)
    (hf : Flagged fm asked) {r : FlowtableMain × List Sent}
    (hlim : Meets (packetStep cmp now) BelowLimit fm arrivals)
    (hr : processLoop cmp now n 0 fm arrivals = some r) : Sweeps fm asked arrivals r := by
  induction arrivals generalizing n fm r with
  | nil =>
    obtain rfl : (fm, []) = r := by
      cases n <;> exact Option.some.inj hr
    exact ⟨hl, hf, rfl, rfl, .nil⟩
  | cons a rest ih =>
    obtain ⟨m, fm', b, s, r', rfl, hp, hrest, rfl, hlim'⟩ := loop_sent hl hlim hr
    obtain ⟨lines, slots, hi⟩ := hl
    have hs := sends_pass hi hf hp
    obtain ⟨hlinked, hflagged, hnext, hindex, hall⟩ := ih hs.linked hs.flagged hlim' hrest
    refine ⟨hlinked, hflagged, hnext.trans hs.next, ?_, .cons hs.forwarded ?_⟩
    · exact hindex.trans (pass_linked ⟨lines, slots, hi⟩ hp).2
    · rw [hs.next] at hall
      exact hall

theorem frames_loop (xs : List (Nat × Arrival)) {n : Nat} {fm : FlowtableMain} (hl : Linked fm)
    {l : NextFrames.Frames Nat} {r : FlowtableMain × List Sent}
    (hlim : Meets (packetStep cmp now) BelowLimit fm (xs.map Prod.snd))
    (hr : processLoop cmp now n 0 fm (xs.map Prod.snd) = some r) :
    ∃ l', enqueueLoop cmp room now n 0 fm l xs = some (r.1, l') ∧
      enqueued l'.sent = placed l ++ List.zipWith (fun x s => (s.next0, x.1)) xs r.2 := by
  induction xs generalizing n fm l r with
  | nil =>
    obtain rfl : (fm, []) = r := by
      cases n <;> exact Option.some.inj hr
    refine ⟨NextFrames.putNextFrame l, ?_, ?_⟩
    · cases n <;> rfl
    · rw [enqueued_putNextFrame, List.zipWith_nil_left, List.append_nil]
  | cons x xs ih =>
    obtain ⟨m, fm', b, s, r', rfl, hp, hrest, rfl, hlim'⟩ := loop_sent hl hlim hr
    obtain ⟨pi0, a⟩ := x
    obtain ⟨l', hl', hput⟩ := @ih m fm' (pass_linked hl hp).1
      (NextFrames.validateBufferEnqueue room (NextFrames.write (NextFrames.withRoom room l) pi0) pi0
        s.next0) r' hlim' hrest
    refine ⟨l', ?_, ?_⟩
    · simp only [enqueueLoop, hp, Option.bind_eq_bind, Option.bind_some]
      exact hl'
    · rw [hput, placed_validate_write, placed_withRoom, List.append_assoc]
      rfl

end Loop

section Frame

variable {cmp : AddressCompare} {mirror : Nat} {s t : Watched}

def sentTo (next : Nat) (sent : List Sent) : List Buffer :=
  (sent.filter (fun x => decide (x.next0 = next))).map Sent.buffer

theorem numbered_snd (k : Nat) (arrivals : List Arrival) :
    (numbered k arrivals).map Prod.snd = arrivals := by
  induction arrivals generalizing k with
  | nil => rfl
  | cons a rest ih => rw [numbered, List.map_cons, ih]

/-- The places in the frames lead to the buffers that were sent to their next node. -/
theorem framesFor_numbered (next : Nat) {k : Nat} {arrivals : List Arrival} {all sent : List Sent}
    (hall : all.drop k = sent) (hlen : arrivals.length = sent.length) :
    ((List.zipWith (fun x s => (s.next0, x.1)) (numbered k arrivals) sent).filter
        (fun x => decide (x.1 = next))).filterMap (fun x => all[x.2]?.map Sent.buffer) =
      sentTo next sent := by
  induction arrivals generalizing k sent with
  | nil =>
    obtain rfl := List.length_eq_zero_iff.mp hlen.symm
    rfl
  | cons a rest ih =>
    cases sent with
    | nil => cases hlen
    | cons x sent =>
      have hx : all[k]? = some x := by
        rw [← Nat.add_zero k, ← List.getElem?_drop, hall]
        rfl
      have hrest : all.drop (k + 1) = sent := by
        rw [← List.tail_drop, hall]
        rfl
      have hih := ih hrest (Nat.succ.inj hlen)
      rw [sentTo] at hih ⊢
      simp only [numbered, List.zipWith_cons_cons, List.filter_cons]
      by_cases hn : x.next0 = next
      · simp only [hn, decide_true, if_true, List.filterMap_cons, hx, Option.map_some, List.map_cons,
          hih]
      · simp only [hn, decide_false, Bool.false_eq_true, if_false, hih]

theorem toMirror_append (hs hs' : List Handled) :
    toMirror mirror (hs ++ hs') = toMirror mirror hs ++ toMirror mirror hs' := by
  rw [toMirror, List.filter_append, List.map_append]
  rfl

structure Adds (mirror next : Nat) (added : List Handled) (arrivals : List Arrival) (sent : List Sent) :
    Prop where
  came : added.map Handled.came = arrivals.map Arrival.buffer
  mirrored : toMirror mirror added = sentTo mirror sent
  forwarded : ∀ h ∈ added, Forwarded h ∧ h.next = next

theorem adds_forwarded {arrivals : List Arrival} {sent : List Sent} {asked : Nat → UInt8} {next : Nat}
    (h : List.Forall₂ (fun a s => Forwarded ⟨a.buffer, s, flagOf asked s, next⟩) arrivals sent) :
    Adds mirror next (List.zipWith (fun a x => ⟨a.buffer, x, flagOf asked x, next⟩) arrivals sent)
      arrivals sent := by
  induction h with
  | nil => exact ⟨rfl, rfl, fun h hh => absurd hh List.not_mem_nil⟩
  | @cons a x arrivals sent hf _ ih =>
    obtain ⟨hcame, hmirror, hall⟩ := ih
    rw [List.zipWith_cons_cons]
    refine ⟨?_, ?_, ?_⟩
    · rw [List.map_cons, hcame, List.map_cons]
    · rw [toMirror, sentTo] at hmirror ⊢
      simp only [List.filter_cons]
      by_cases hx : x.next0 = mirror
      · simp only [hx, decide_true, if_true, List.map_cons, hmirror]
      · simp only [hx, decide_false, Bool.false_eq_true, if_false, hmirror]
    · intro h hh
      obtain rfl | hh := List.mem_cons.mp hh
      · exact ⟨hf, rfl⟩
      · exact hall h hh

end Frame

section Expire

variable {fm fm' : FlowtableMain} {asked : Nat → UInt8}

theorem entryRemove_next {f : Nat} (hr : flowtableEntryRemove fm f = some fm') :
    fm'.nextNodeIndex = fm.nextNodeIndex := by
  simp only [flowtableEntryRemove, Option.bind_eq_bind] at hr
  obtain ⟨lines, _, hr⟩ := Option.bind_eq_some_iff.mp hr
  obtain rfl := Option.some.inj hr
  dsimp only
  split <;> rfl

theorem expireLoop_next (n : Nat) {fm : FlowtableMain} {e : Nat} {r : FlowtableMain × Nat}
    (hr : timerExpireLoop n fm e = some r) : r.1.nextNodeIndex = fm.nextNodeIndex := by
  induction n generalizing fm e r with
  | zero =>
    obtain rfl := Option.some.inj hr
    rfl
  | succ n ih =>
    cases hv : (fm.timers.elt e).value with
    | none =>
      simp only [timerExpireLoop, hv] at hr
      obtain rfl := Option.some.inj hr
      rfl
    | some f =>
      simp only [timerExpireLoop, hv, Option.bind_eq_bind] at hr
      obtain ⟨fm₁, hfm₁, hr⟩ := Option.bind_eq_some_iff.mp hr
      obtain ⟨timers, _, hr⟩ := Option.bind_eq_some_iff.mp hr
      obtain ⟨next, _, hr⟩ := Option.bind_eq_some_iff.mp hr
      obtain ⟨r', hr', hr⟩ := Option.bind_eq_some_iff.mp hr
      obtain rfl := Option.some.inj hr
      have hremove : fm₁.nextNodeIndex = fm.nextNodeIndex := entryRemove_next hfm₁
      exact (ih hr').trans hremove

theorem timerExpire_next {r : FlowtableMain × Nat} (hr : flowtableTimerExpire fm = some r) :
    r.1.nextNodeIndex = fm.nextNodeIndex := by
  simp only [flowtableTimerExpire, Option.bind_eq_bind] at hr
  obtain ⟨slot, _, hr⟩ := Option.bind_eq_some_iff.mp hr
  split at hr
  · obtain rfl := Option.some.inj hr
    rfl
  · obtain ⟨e, _, hr⟩ := Option.bind_eq_some_iff.mp hr
    exact expireLoop_next _ hr

theorem Flagged.shrink (h : Flagged fm asked) (hs : Shrinks fm fm') :
    Flagged fm' (fun f => if Live fm'.flows f then asked f else 0) := by
  intro f
  by_cases hf : Live fm'.flows f
  · rw [if_pos hf, hs.1]
    exact (h.live (hs.2 f hf)).trans (if_pos hf).symm
  · rw [if_neg hf]
    exact if_neg hf

end Expire

structure Right (mirror nexts : Nat) (s : Watched) : Prop where
  linked : Linked s.chain.table
  flagged : Flagged s.chain.table s.ledger.asked
  next : s.chain.table.nextNodeIndex = s.ledger.next
  known : s.ledger.next < nexts
  collector : Configured s.chain.pm s.ledger.collector
  directed : Directed s.chain.pm s.ledger.mirrorNext
  forwarded : ∀ h ∈ s.ledger.handled, Forwarded h ∧ h.next < nexts
  mirrored : s.chain.onward.map Prod.snd ++ s.chain.queue = toMirror mirror s.ledger.handled
  copies : s.chain.copies = s.ledger.due
  copied : ∀ c ∈ s.chain.copies, c.1 ∈ s.chain.onward.map Prod.snd
  passed : s.chain.onward = s.ledger.passed
  exist : ∀ e ∈ s.chain.onward, e.1 < pmInHitNNext

section Steps

variable {cmp : AddressCompare} {mirror nexts : Nat} {s t : Watched}

theorem framesFor_sent {room : Nat → Nat} {cached passes now : Nat}
    {arrivals : List Arrival} {fm : FlowtableMain}
    (hup : timerWheelIndexUpdate s.chain.table now = some fm) (hlfm : Linked fm)
    (hlim : Meets (packetStep cmp now) BelowLimit fm arrivals) {q : FlowtableMain × List Sent}
    (hq : processLoop cmp now passes 0 fm arrivals = some q) (hlen : arrivals.length = q.2.length)
    {frames : FlowtableMain × List (Nat × List Nat) × Nat}
    (hr : flowtableFrames cmp room passes now cached s.chain.table (numbered 0 arrivals) =
      some frames) : framesFor mirror frames.2.1 q.2 = sentTo mirror q.2 := by
  have hput : enqueued frames.2.1 =
      List.zipWith (fun x s => (s.next0, x.1)) (numbered 0 arrivals) q.2 := by
    simp only [flowtableFrames, hup, Option.bind_eq_bind, Option.bind_some] at hr
    cases arrivals with
    | nil =>
      rw [numbered, if_pos rfl] at hr
      obtain ⟨y, _, hr⟩ := Option.bind_eq_some_iff.mp hr
      obtain rfl := Option.some.inj hr
      rfl
    | cons a rest =>
      have hne : numbered 0 (a :: rest) ≠ [] := List.cons_ne_nil _ _
      rw [if_neg hne] at hr
      obtain ⟨x, hx, hr⟩ := Option.bind_eq_some_iff.mp hr
      obtain ⟨y, _, hr⟩ := Option.bind_eq_some_iff.mp hr
      obtain rfl := Option.some.inj hr
      rw [← numbered_snd 0 (a :: rest)] at hlim hq
      obtain ⟨l, hl, hput⟩ := @frames_loop cmp now room _ passes fm hlfm
        (getNextFrame room noFrames cached) q hlim hq
      obtain rfl := Option.some.inj (hl.symm.trans hx)
      exact hput
  rw [framesFor, hput]
  exact framesFor_numbered mirror rfl hlen

theorem frame_right (h : Right mirror nexts s) {room : Nat → Nat} {cached passes now : Nat}
    {arrivals : List Arrival} (hw : WithinLimit cmp s.chain.table (.frame passes now arrivals))
    (ht : watchedStep cmp mirror s (.frame room cached passes now arrivals) = some t) :
    Right mirror nexts t ∧ t.ledger.handled.map Handled.came =
      s.ledger.handled.map Handled.came ++ arrivals.map Arrival.buffer := by
  obtain ⟨⟨c, sent⟩, hc, rfl⟩ := Option.map_eq_some_iff.mp ht
  simp only [step, Option.bind_eq_bind] at hc
  obtain ⟨r, hr, hc⟩ := Option.bind_eq_some_iff.mp hc
  obtain ⟨frames, hframes, hc⟩ := Option.bind_eq_some_iff.mp hc
  obtain ⟨rfl, rfl⟩ := Prod.mk.inj (Option.some.inj hc)
  obtain ⟨lines, slots, hi⟩ := h.linked
  obtain ⟨tm, n, slots', hup, hi', hn⟩ := timerWheelIndexUpdate_spec hi now
  generalize hfm : ({ s.chain.table with
    timers := withElt s.chain.table.timers tm, timeIndex := n } : FlowtableMain) = fm at hup hi'
  have hflag : Flagged fm s.ledger.asked := by
    rw [← hfm]
    exact h.flagged
  have hnext : fm.nextNodeIndex = s.ledger.next := by
    rw [← hfm]
    exact h.next
  simp only [flowtableProcess, hup, Option.bind_eq_bind, Option.bind_some] at hr
  obtain ⟨q, hq, hr⟩ := Option.bind_eq_some_iff.mp hr
  obtain ⟨x, hx, hr⟩ := Option.bind_eq_some_iff.mp hr
  obtain rfl := Option.some.inj hr
  obtain ⟨⟨lines₁, slots₁, hi₁⟩, hflag₁, hnext₁, hindex, hall⟩ :=
    sweeps_loop arrivals ⟨lines, slots', hi'⟩ hflag (hw.2 fm hup) hq
  rw [hnext] at hall
  obtain ⟨hcame, hmirror, hfwd⟩ := @adds_forwarded mirror _ _ _ _ hall
  have hknown := h.known
  have hqueue := @framesFor_sent cmp mirror s _ _ _ _ _ _ hup ⟨lines, slots', hi'⟩
    (hw.2 fm hup) _ hq hall.length_eq _ hframes
  have hlt : q.1.timeIndex < timerMaxLifetime := by
    rw [hindex, ← hfm]
    exact hn
  obtain ⟨x', lines₂, slots₂, hx', hi₂, hshrinks, -⟩ := flowtableTimerExpire_spec hi₁ hlt
  obtain rfl := Option.some.inj (hx'.symm.trans hx)
  constructor
  · constructor
    case linked => exact ⟨lines₂, slots₂, hi₂⟩
    case flagged => exact hflag₁.shrink hshrinks
    case next => exact (timerExpire_next hx).trans (hnext₁.trans hnext)
    case known => exact h.known
    case collector => exact h.collector
    case directed => exact h.directed
    case forwarded =>
      intro p hp
      obtain hp | hp := List.mem_append.mp hp
      · exact h.forwarded p hp
      · obtain ⟨hf, hn⟩ := hfwd p hp
        exact ⟨hf, hn ▸ hknown⟩
    case mirrored =>
      simp only [Ledger.after]
      rw [toMirror_append, hmirror, ← h.mirrored, hqueue, List.append_assoc]
    case copies => exact h.copies
    case copied => exact h.copied
    case passed => exact h.passed
    case exist => exact h.exist
  · simp only [Ledger.after]
    rw [List.map_append, hcame]

theorem update_right (h : Right mirror nexts s) {a : UpdateArgs}
    (ht : watchedStep cmp mirror s (.update a) = some t) :
    Right mirror nexts t ∧ t.ledger.handled = s.ledger.handled := by
  obtain ⟨⟨c, sent⟩, hc, rfl⟩ := Option.map_eq_some_iff.mp ht
  obtain ⟨r, hr, hc⟩ := Option.map_eq_some_iff.mp hc
  obtain ⟨rfl, rfl⟩ := Prod.mk.inj hc
  obtain ⟨lines, slots, hi⟩ := h.linked
  rw [flowtableUpdate_eq hi] at hr
  refine ⟨?_, rfl⟩
  cases hend : updateEnd s.chain.table a
      (lineFlows s.chain.table (lines (hashSignature (updateSignature a)))) with
  | none =>
    have hno : ∀ f, ¬ Selects s.chain.table a f := by
      intro f hs
      rw [selects_iff_end hi, hend] at hs
      exact absurd hs.symm (Option.some_ne_none f)
    rw [hend] at hr
    obtain rfl := Option.some.inj hr
    refine ⟨⟨lines, slots, hi⟩, fun f => ?_, h.next, h.known, h.collector, h.directed, h.forwarded,
      h.mirrored, h.copies, h.copied, h.passed, h.exist⟩
    simp only [Ledger.after, if_neg (hno f)]
    exact h.flagged f
  | some f =>
    have hone : ∀ g, Selects s.chain.table a g ↔ g = f := by
      intro g
      rw [selects_iff_end hi, hend, Option.some.injEq, eq_comm]
    have hmem : f ∈ lineFlows s.chain.table (lines (hashSignature (updateSignature a))) := by
      obtain ⟨before, after, hl, -⟩ := FlowUpdate.find_or_last.mp hend
      rw [hl]
      exact List.mem_append_right _ List.mem_cons_self
    have hlive := ((mem_lineFlows hi).mp hmem).1
    rw [hend] at hr
    obtain rfl := Option.some.inj hr
    have hi' : Inv (setFlow s.chain.table f (applyUpdate (s.chain.table.flows.elt f) a)) lines slots :=
      hi.setFlow ⟨rfl, rfl, rfl, rfl⟩
    refine ⟨⟨lines, slots, hi'⟩, fun g => ?_, h.next, h.known, h.collector, h.directed, h.forwarded,
      h.mirrored, h.copies, h.copied, h.passed, h.exist⟩
    simp only [Ledger.after, hone]
    by_cases hg : g = f
    · subst hg
      have hlive' : Live (setFlow s.chain.table g (applyUpdate (s.chain.table.flows.elt g) a)).flows g :=
        hlive
      rw [if_pos hlive', if_pos rfl]
      simp only [setFlow, elt_set, Function.update_self]
      rfl
    · rw [if_neg hg]
      have hf := h.flagged g
      simp only [setFlow, elt_set, Function.update_of_ne hg]
      exact hf

theorem mem_copiesOf {collector : Option UInt32} {frame : List Buffer} {c : Buffer × UInt32}
    (hc : c ∈ copiesOf collector frame) : c.1 ∈ frame := by
  obtain ⟨b, hb, hc⟩ := List.mem_flatMap.mp hc
  obtain ⟨i, -, rfl⟩ := Option.map_eq_some_iff.mp (Option.mem_toList.mp hc)
  exact hb

theorem toward_snd {next : Option Nat} {frame : List Buffer} (h : frame ≠ [] → next ≠ none) :
    (toward next frame).map Prod.snd = frame := by
  cases next with
  | none =>
    obtain rfl : frame = [] := by
      by_contra hne
      exact h hne rfl
    rfl
  | some n =>
    rw [PortCopies.toward_some, List.map_map]
    exact List.map_id frame

theorem mirror_right (h : Right mirror nexts s) {room : Nat → Nat} {cached : Fin pmInHitNNext}
    {n : Nat} (hw : Within cmp nexts s (.mirror room cached n))
    (ht : watchedStep cmp mirror s (.mirror room cached n) = some t) :
    Right mirror nexts t ∧ t.ledger.handled = s.ledger.handled := by
  obtain ⟨r, hr, hsent, hlt, -, hcopies, -, -⟩ := @inNode_spec room s.chain.pm s.ledger.collector
    s.ledger.mirrorNext cached (s.chain.queue.take n) h.collector h.directed hw
  have hall : (enqueued r.sent).map Prod.snd = s.chain.queue.take n := by
    rw [hsent]
    exact toward_snd hw
  rw [watchedStep, step, hr] at ht
  obtain rfl := Option.some.inj ht
  refine ⟨⟨h.linked, h.flagged, h.next, h.known, h.collector, h.directed, h.forwarded, ?_, ?_, ?_, ?_,
    ?_⟩, rfl⟩
  · change (s.chain.onward ++ _).map Prod.snd ++ s.chain.queue.drop n = _
    rw [List.map_append, hall, List.append_assoc, List.take_append_drop]
    exact h.mirrored
  · change s.chain.copies ++ _ = s.ledger.due ++ _
    rw [hcopies, h.copies]
  · change ∀ c ∈ s.chain.copies ++ _, c.1 ∈ (s.chain.onward ++ _).map Prod.snd
    rw [List.map_append, hall, hcopies]
    intro c hc
    obtain hc | hc := List.mem_append.mp hc
    · exact List.mem_append_left _ (h.copied c hc)
    · exact List.mem_append_right _ (mem_copiesOf hc)
  · change s.chain.onward ++ _ = s.ledger.passed ++ _
    rw [hsent, h.passed]
  · exact fun e he => (List.mem_append.mp he).elim (h.exist e) (hlt e)

theorem conf_right (h : Right mirror nexts s) {fm : FlowtableMain} {next : Nat} (hn : next < nexts)
    (hfm : fm = { s.chain.table with nextNodeIndex := next }) :
    Right mirror nexts ⟨{ s.chain with table := fm }, { s.ledger with next := next }⟩ := by
  subst hfm
  obtain ⟨lines, slots, hi⟩ := h.linked
  refine ⟨⟨lines, slots, ?_⟩, h.flagged, rfl, hn, h.collector, h.directed, h.forwarded, h.mirrored,
    h.copies, h.copied, h.passed, h.exist⟩
  exact { hi with }

theorem command_right (h : Right mirror nexts s) {redirect : UInt32 → Bool → Redirect}
    {words : List Word} (hw : Within cmp nexts s (.command redirect words))
    (ht : watchedStep cmp mirror s (.command redirect words) = some t) :
    Right mirror nexts t ∧ t.ledger.handled = s.ledger.handled := by
  obtain rfl := Option.some.inj ht
  refine ⟨conf_right h hw ?_, rfl⟩
  rw [flowtableEnableDisableCommandFn, nextAfter]
  by_cases hsw : (commandArgs words).swIfIndex = noIndex32
  · rw [if_pos hsw, if_pos hsw, ← h.next]
  · rw [if_neg hsw, if_neg hsw]

theorem step_right (h : Right mirror nexts s) {e : Event} (hw : Within cmp nexts s e)
    (ht : watchedStep cmp mirror s e = some t) :
    Right mirror nexts t ∧ t.ledger.handled.map Handled.came =
      s.ledger.handled.map Handled.came ++ (arrived [e]).map Arrival.buffer := by
  have hsame : t.ledger.handled = s.ledger.handled → t.ledger.handled.map Handled.came =
      s.ledger.handled.map Handled.came ++ List.map Arrival.buffer [] := by
    intro hh
    rw [hh, List.map_nil, List.append_nil]
  cases e with
  | frame room cached passes now arrivals =>
    rw [arrived, arrived, List.append_nil]
    exact frame_right h hw ht
  | update a =>
    obtain ⟨hr, hh⟩ := update_right h ht
    exact ⟨hr, hsame hh⟩
  | mirror room cached n =>
    obtain ⟨hr, hh⟩ := mirror_right h hw ht
    exact ⟨hr, hsame hh⟩
  | command redirect words =>
    obtain ⟨hr, hh⟩ := command_right h hw ht
    exact ⟨hr, hsame hh⟩
  | conf redirect mp =>
    obtain rfl := Option.some.inj ht
    exact ⟨conf_right h hw rfl, hsame rfl⟩
  | pmCommand c =>
    obtain rfl := Option.some.inj ht
    exact ⟨⟨h.linked, h.flagged, h.next, h.known, apply_configured h.collector c,
      apply_directed h.directed c, h.forwarded, h.mirrored, h.copies, h.copied, h.passed, h.exist⟩,
      hsame rfl⟩

theorem right_start {next : Nat} (hn : next < nexts) : Right mirror nexts (start next) := by
  refine ⟨⟨_, _, flowtableInit_inv next⟩, fun f => ?_, ?_, hn, ⟨rfl, (Option.some_ne_none _).symm⟩,
    ⟨rfl, by decide⟩, fun h hh => absurd hh List.not_mem_nil, rfl, rfl,
    fun c hc => absurd hc List.not_mem_nil, rfl, fun e he => absurd he List.not_mem_nil⟩
  · have hno : ¬ Live (start next).chain.table.flows f := not_live_flowtableInit next f
    rw [if_neg hno]
    rfl
  · rw [start, flowtableInit_eq]

theorem arrived_append (es fs : List Event) : arrived (es ++ fs) = arrived es ++ arrived fs := by
  induction es with
  | nil => rfl
  | cons e es ih =>
    cases e with
    | frame room cached passes now arrivals =>
      rw [List.cons_append, arrived, arrived, ih, List.append_assoc]
    | _ => exact ih

theorem run_chain_right {es : List Event} (h : Right mirror nexts s)
    (hw : Meets (watchedStep cmp mirror) (Within cmp nexts) s es)
    (hr : run (watchedStep cmp mirror) s es = some t) :
    Right mirror nexts t ∧ t.ledger.handled.map Handled.came =
      s.ledger.handled.map Handled.came ++ (arrived es).map Arrival.buffer := by
  induction es generalizing s with
  | nil =>
    obtain rfl := Option.some.inj hr
    exact ⟨h, (List.append_nil _).symm⟩
  | cons e es ih =>
    obtain ⟨u, hu, hrest⟩ := run_cons_eq_some.mp hr
    obtain ⟨hright, hcame⟩ := step_right h hw.1 hu
    obtain ⟨ht, hall⟩ := ih hright (hw.2 u hu) hrest
    refine ⟨ht, ?_⟩
    have harrived : arrived (e :: es) = arrived [e] ++ arrived es := arrived_append [e] es
    rw [hall, hcame, harrived, List.map_append, List.append_assoc]

end Steps

/-- Every packet goes on once, to a next node that exists, and goes to the mirror just when it is
to. The mirror sends on what comes to it, in order and to its own next node, with a copy of each for
the interface that is configured, and a packet that is copied is one of a flow that is not to be
offloaded. -/
structure Serves (mirror nexts : Nat) (events : List Event) (s : Watched) : Prop where
  came : s.ledger.handled.map Handled.came = (arrived events).map Arrival.buffer
  forwarded : ∀ h ∈ s.ledger.handled, Forwarded h ∧ h.sent.next0 < nexts
  mirrored : s.chain.onward.map Prod.snd ++ s.chain.queue = toMirror mirror s.ledger.handled
  passed : s.chain.onward = s.ledger.passed
  exist : ∀ e ∈ s.chain.onward, e.1 < pmInHitNNext
  copies : s.chain.copies = s.ledger.due
  copied : ∀ c ∈ s.chain.copies, ∃ h ∈ s.ledger.handled, h.sent.buffer = c.1 ∧
    h.sent.lookup.isSome ∧ h.asked = 0 ∧ h.next = mirror

theorem Right.wanted {mirror nexts : Nat} {s : Watched} (h : Right mirror nexts s)
    (hm : mirror ≠ ftNextEthernetInput) {b : Buffer} (hb : b ∈ toMirror mirror s.ledger.handled) :
    ∃ p ∈ s.ledger.handled, p.sent.buffer = b ∧ p.sent.lookup.isSome ∧ p.asked = 0 ∧
      p.next = mirror := by
  obtain ⟨p, hp, rfl⟩ := List.mem_map.mp hb
  obtain ⟨hp, hto⟩ := List.mem_filter.mp hp
  have hgoes := (h.forwarded p hp).1.goes
  rw [of_decide_eq_true hto] at hgoes
  by_cases hc : p.sent.lookup.isSome ∧ p.asked = 0
  · rw [if_pos hc] at hgoes
    exact ⟨p, hp, rfl, hc.1, hc.2, hgoes.symm⟩
  · rw [if_neg hc] at hgoes
    exact absurd hgoes hm

theorem Forwarded.exists {nexts : Nat} {p : Handled} (h : Forwarded p) (hn : p.next < nexts)
    (he : ftNextEthernetInput < nexts) : p.sent.next0 < nexts := by
  rw [h.goes]
  split
  · exact hn
  · exact he

def mirroredPacket : List Event :=
  [.frame (fun _ => 255) 0 1 7 [⟨udpBuffer 1 2, fun _ => []⟩], .pmCommand (.conf ⟨5, 1, 0⟩),
    .mirror (fun _ => 255) (Fin.last 2) 1]

end Vppsb.FlowMirroring
