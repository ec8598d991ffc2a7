import Vppsb.PortMirror
import Vppsb.StepRun

namespace Vppsb.PortCopies

open Vppsb.StepRun Vppsb.FlowProcess Vppsb.NextFrames Vppsb.PortMirror

def pmOutHitNextIfOut : Nat := 0

abbrev pmOutHitNNext : Nat := 1

structure OutResult where
  sent : List (Nat × List Buffer)
  copies : List (Buffer × UInt32)
  noCollector : Nat
  hits : Nat

/-- Both loops over the buffers. A full frame is put, and the next one begun. -/
def outLoop (room : Nat → Nat) : Frames Buffer → List Buffer → Frames Buffer
  | l, [] => putNextFrame l
  | l, b :: rest =>
    outLoop room (validateBufferEnqueue room (write (withRoom room l) b) b pmOutHitNextIfOut) rest

def outFrames (room : Nat → Nat) (cachedNextIndex : Fin pmOutHitNNext) :
    List Buffer → List (Nat × List Buffer)
  | [] => []
  | b :: rest => (outLoop room (getNextFrame room noFrames cachedNextIndex) (b :: rest)).sent

def pmOutHitNodeFn (room : Nat → Nat) (pm : PmMain) (cachedNextIndex : Fin pmOutHitNNext)
    (frame : List Buffer) : OutResult :=
  let sent := outFrames room cachedNextIndex frame
  if pm.swIfIndex = noIndex then ⟨sent, [], frame.length, frame.length⟩
  else ⟨sent, frame.map (fun b => (b, pm.swIfIndex)), 0, frame.length⟩

/-- The configuration, the packets that have left both nodes with their next indices, the
copies that have been sent, and the counters. -/
structure Mirror where
  pm : PmMain
  inSent : List (Nat × Buffer)
  outSent : List (Nat × Buffer)
  copies : List (Buffer × UInt32)
  noIntfOut : Nat
  noCollector : Nat
  inHits : Nat
  outHits : Nat

inductive Event where
  | command (c : Command)
  | inFrame (room : Nat → Nat) (cachedNextIndex : Fin pmInHitNNext) (frame : List Buffer)
  | outFrame (room : Nat → Nat) (cachedNextIndex : Fin pmOutHitNNext) (frame : List Buffer)

def step (s : Mirror) : Event → Option Mirror
  | .command c => some { s with pm := apply s.pm c }
  | .inFrame room cached frame =>
    (pmInHitNodeFn room s.pm cached frame).map fun r =>
      { s with
        inSent := s.inSent ++ enqueued r.sent
        copies := s.copies ++ r.copies
        noIntfOut := s.noIntfOut + r.noIntfOut
        inHits := s.inHits + r.hits }
  | .outFrame room cached frame =>
    let r := pmOutHitNodeFn room s.pm cached frame
    some { s with
      outSent := s.outSent ++ enqueued r.sent
      copies := s.copies ++ r.copies
      noCollector := s.noCollector + r.noCollector
      outHits := s.outHits + r.hits }

def start : Mirror := ⟨pmInit, [], [], [], 0, 0, 0, 0⟩

/-- The next node of `pm-in-hit` after a command, none after a deletion. `set pm` does not set
it. -/
def nextAfter (next : Option Nat) : Command → Option Nat
  | .conf c => if c.isDel = 0 then some (confNext c).toNat else none
  | .set _ => next

/-- The interface that the copies go to after a command. A `pm_conf` for a previous node that
does not exist fails and still sets it, and a `set pm` that fails changes nothing. -/
def collectorAfter (collector : Option UInt32) : Command → Option UInt32
  | .conf c => if c.isDel = 0 then some c.dstInterface.toUInt32 else none
  | .set words =>
    let a := pmArgs words
    if a.swIfIndex = noIndex ∨ a.fromNode = noIndex then collector
    else if a.enableDisable then some a.swIfIndex else none

/-- What the nodes are to do: for each packet that a node sees there is one copy for the
interface that is configured at the time, or none while there is no interface, and what `pm-in-hit`
sees goes on to the next node of that time. -/
structure Copying where
  collector : Option UInt32
  next : Option Nat
  copies : List (Buffer × UInt32)
  inMissed : Nat
  outMissed : Nat
  inSeen : List (Nat × Buffer)
  outSeen : List Buffer

def copiesOf (collector : Option UInt32) (frame : List Buffer) : List (Buffer × UInt32) :=
  frame.flatMap (fun b => (collector.map (fun i => (b, i))).toList)

def missed (collector : Option UInt32) (frame : List Buffer) : Nat :=
  if collector = none then frame.length else 0

def toward (next : Option Nat) (frame : List Buffer) : List (Nat × Buffer) :=
  frame.flatMap (fun b => (next.map (fun n => (n, b))).toList)

def watch (a : Copying) : Event → Copying
  | .command c =>
    { a with collector := collectorAfter a.collector c, next := nextAfter a.next c }
  | .inFrame _ _ frame =>
    { a with
      copies := a.copies ++ copiesOf a.collector frame
      inMissed := a.inMissed + missed a.collector frame
      inSeen := a.inSeen ++ toward a.next frame }
  | .outFrame _ _ frame =>
    { a with
      copies := a.copies ++ copiesOf a.collector frame
      outMissed := a.outMissed + missed a.collector frame
      outSeen := a.outSeen ++ frame }

def watched (events : List Event) : Copying :=
  events.foldl watch ⟨none, some 0, [], 0, 0, [], []⟩

def Configured (pm : PmMain) (collector : Option UInt32) : Prop :=
  pm.swIfIndex = collector.getD noIndex ∧ collector ≠ some noIndex

/-- The next node that `pm_main_t` says. After a deletion it does not exist. -/
def Directed (pm : PmMain) (next : Option Nat) : Prop :=
  match next with
  | some n => pm.nextNodeIndex.toNat = n ∧ n < pmInHitNNext
  | none => ¬ pm.nextNodeIndex.toNat < pmInHitNNext

/-- The nodes do what they are for: all packets go on, once and in order, the copies are those
that are asked for, and the counters say how many there were and how many had no copy. -/
structure Mirrors (s : Mirror) (a : Copying) : Prop where
  collector : Configured s.pm a.collector
  next : Directed s.pm a.next
  copies : s.copies = a.copies
  inSent : s.inSent = a.inSeen
  inExists : ∀ e ∈ s.inSent, e.1 < pmInHitNNext
  outSent : s.outSent = a.outSeen.map (fun b => (pmOutHitNextIfOut, b))
  noIntfOut : s.noIntfOut = a.inMissed
  noCollector : s.noCollector = a.outMissed
  inHits : s.inHits = a.inSeen.length
  outHits : s.outHits = a.outSeen.length
  account : s.copies.length + s.noIntfOut + s.noCollector = s.inHits + s.outHits

/-- No packet comes to `pm-in-hit` between a deletion and the next addition. -/
def Served (a : Copying) : Event → Prop
  | .inFrame _ _ frame => frame ≠ [] → a.next ≠ none
  | .command _ | .outFrame _ _ _ => True

section Nodes

variable {room : Nat → Nat} {pm : PmMain} {collector : Option UInt32}

theorem outLoop_spec (bs : List Buffer) (l : Frames Buffer) :
    enqueued (outLoop room l bs).sent =
      placed l ++ bs.map (fun b => (pmOutHitNextIfOut, b)) := by
  induction bs generalizing l with
  | nil => rw [outLoop, enqueued_putNextFrame, List.map_nil, List.append_nil]
  | cons b bs ih =>
    rw [outLoop, ih, placed_validate_write, placed_withRoom,
      List.append_assoc, List.map_cons, List.singleton_append]

theorem outFrames_enqueued (cached : Fin pmOutHitNNext) (frame : List Buffer) :
    enqueued (outFrames room cached frame) =
      frame.map (fun b => (pmOutHitNextIfOut, b)) := by
  cases frame with
  | nil => rfl
  | cons b bs =>
    rw [outFrames, outLoop_spec, placed_get]
    rfl

theorem restoreOpaque_same (b : Buffer) : restoreOpaque pm b = b := by
  rw [restoreOpaque]
  split <;> rfl

theorem copiesOf_none (frame : List Buffer) : copiesOf none frame = [] := by
  rw [copiesOf]
  exact List.flatMap_eq_nil_iff.mpr fun _ _ => rfl

theorem copiesOf_some (i : UInt32) (frame : List Buffer) :
    copiesOf (some i) frame = frame.map (fun b => (b, i)) := by
  induction frame with
  | nil => rfl
  | cons b bs ih =>
    rw [List.map_cons, ← ih]
    rfl

theorem copies_missed (frame : List Buffer) :
    (copiesOf collector frame).length + missed collector frame = frame.length := by
  cases collector with
  | none => rw [copiesOf_none, missed, if_pos rfl, List.length_nil, Nat.zero_add]
  | some i => rw [copiesOf_some, missed, if_neg (Option.some_ne_none i), List.length_map, Nat.add_zero]

theorem Configured.off (h : Configured pm none) : pm.swIfIndex = noIndex := h.1

theorem Configured.on {i : UInt32} (h : Configured pm (some i)) :
    pm.swIfIndex = i ∧ pm.swIfIndex ≠ noIndex := by
  obtain ⟨heq, hne⟩ := h
  refine ⟨heq, fun hno => hne ?_⟩
  rw [← hno, heq]
  rfl

theorem Directed.lt {n : Nat} (h : Directed pm (some n)) :
    pm.nextNodeIndex.toNat = n ∧ pm.nextNodeIndex.toNat < pmInHitNNext := ⟨h.1, h.1 ▸ h.2⟩

theorem toward_some (n : Nat) (frame : List Buffer) :
    toward (some n) frame = frame.map (fun b => (n, b)) := by
  induction frame with
  | nil => rfl
  | cons b bs ih =>
    rw [List.map_cons, ← ih]
    rfl

/-- What the input node leaves, by the interface and the next node that are configured. -/
theorem inNode_spec {next : Option Nat} {cached : Fin pmInHitNNext} {frame : List Buffer}
    (hc : Configured pm collector) (hd : Directed pm next) (hserved : frame ≠ [] → next ≠ none) :
    ∃ r, pmInHitNodeFn room pm cached frame = some r ∧ enqueued r.sent = toward next frame ∧
      (∀ e ∈ enqueued r.sent, e.1 < pmInHitNNext) ∧ (toward next frame).length = frame.length ∧
      r.copies = copiesOf collector frame ∧ r.noIntfOut = missed collector frame ∧
      r.hits = frame.length := by
  obtain ⟨r, hr, hput, hlt, hlen⟩ : ∃ r, pmInHitNodeFn room pm cached frame = some r ∧
      enqueued r.sent = toward next frame ∧ (∀ e ∈ enqueued r.sent, e.1 < pmInHitNNext) ∧
      (toward next frame).length = frame.length := by
    cases next with
    | none =>
      obtain rfl : frame = [] := by
        by_contra hne
        exact hserved hne rfl
      refine ⟨_, rfl, ?_, ?_, rfl⟩
      · split <;> rfl
      · split <;> exact fun e he => absurd he List.not_mem_nil
    | some n =>
      obtain ⟨rfl, hlt⟩ := hd.lt
      obtain ⟨r, hr, hput⟩ := @pmInHitNodeFn_spec room pm hlt cached frame
      simp only [restoreOpaque_same] at hput
      have htoward := toward_some pm.nextNodeIndex.toNat frame
      refine ⟨r, hr, hput.trans htoward.symm, fun e he => ?_, by rw [htoward, List.length_map]⟩
      rw [hput] at he
      obtain ⟨b, -, rfl⟩ := List.mem_map.mp he
      exact hlt
  refine ⟨r, hr, hput, hlt, hlen, ?_⟩
  obtain ⟨sent, -, rfl⟩ := Option.map_eq_some_iff.mp hr
  cases collector with
  | none =>
    rw [if_pos hc.off]
    exact ⟨(copiesOf_none frame).symm, (if_pos rfl).symm, rfl⟩
  | some i =>
    obtain ⟨heq, hon⟩ := hc.on
    rw [if_neg hon, heq]
    exact ⟨(copiesOf_some i frame).symm, (if_neg (Option.some_ne_none i)).symm, rfl⟩

theorem outNode_spec (hc : Configured pm collector) (cached : Fin pmOutHitNNext) (frame : List Buffer) :
    (pmOutHitNodeFn room pm cached frame).copies = copiesOf collector frame ∧
      (pmOutHitNodeFn room pm cached frame).noCollector = missed collector frame ∧
      (pmOutHitNodeFn room pm cached frame).hits = frame.length := by
  cases collector with
  | none =>
    rw [pmOutHitNodeFn, if_pos hc.off]
    exact ⟨(copiesOf_none frame).symm, (if_pos rfl).symm, rfl⟩
  | some i =>
    obtain ⟨heq, hon⟩ := hc.on
    rw [pmOutHitNodeFn, if_neg hon, heq]
    exact ⟨(copiesOf_some i frame).symm, (if_neg (Option.some_ne_none i)).symm, rfl⟩

theorem outNode_enqueued (cached : Fin pmOutHitNNext) (frame : List Buffer) :
    enqueued (pmOutHitNodeFn room pm cached frame).sent =
      frame.map (fun b => (pmOutHitNextIfOut, b)) := by
  rw [← outFrames_enqueued cached frame, pmOutHitNodeFn]
  split <;> rfl

theorem conf_configured (c : Conf) :
    Configured (pmConf pm c).1 (collectorAfter collector (.conf c)) := by
  have hdst : c.dstInterface.toUInt32 ≠ noIndex := by
    intro h
    have hlt : c.dstInterface.toUInt32.toNat < 256 := c.dstInterface.toNat_lt
    rw [h] at hlt
    exact absurd hlt (by decide)
  rw [pmConf, collectorAfter]
  by_cases hd : c.isDel = 0
  · rw [if_pos hd, if_pos hd]
    refine ⟨?_, fun h => hdst (Option.some.inj h)⟩
    split
    · rfl
    · split <;> rfl
  · rw [if_neg hd, if_neg hd]
    exact ⟨rfl, (Option.some_ne_none noIndex).symm⟩

theorem set_configured (hc : Configured pm collector) (words : List Word) :
    Configured (setPmCommandFn pm words).1 (collectorAfter collector (.set words)) := by
  rw [setPmCommandFn, collectorAfter]
  by_cases hsw : (pmArgs words).swIfIndex = noIndex
  · rw [if_pos hsw, if_pos (Or.inl hsw)]
    exact hc
  by_cases hfrom : (pmArgs words).fromNode = noIndex
  · rw [if_neg hsw, if_pos hfrom, if_pos (Or.inr hfrom)]
    exact hc
  rw [if_neg hsw, if_neg hfrom, if_neg (not_or.mpr ⟨hsw, hfrom⟩)]
  by_cases hen : (pmArgs words).enableDisable = true
  · rw [if_pos hen, if_pos hen]
    exact ⟨rfl, fun h => hsw (Option.some.inj h)⟩
  · rw [if_neg hen, if_neg hen]
    exact ⟨rfl, (Option.some_ne_none noIndex).symm⟩

theorem apply_configured (hc : Configured pm collector) (c : Command) :
    Configured (apply pm c) (collectorAfter collector c) := by
  cases c with
  | conf c => exact conf_configured c
  | set words => exact set_configured hc words

theorem apply_directed {next : Option Nat} (hd : Directed pm next) (c : Command) :
    Directed (apply pm c) (nextAfter next c) := by
  cases c with
  | set words =>
    rw [nextAfter]
    have hsame : (apply pm (.set words)).nextNodeIndex = pm.nextNodeIndex := setPmCommandFn_next words
    unfold Directed at hd ⊢
    rwa [hsame]
  | conf c =>
    have hnext : (apply pm (.conf c)).nextNodeIndex = confNext c := pmConf_next c
    have hlt := next_lt_iff (some c)
    rw [Option.map_some, Option.getD_some] at hlt
    rw [nextAfter]
    by_cases hdel : c.isDel = 0
    · rw [if_pos hdel]
      exact ⟨congrArg UInt32.toNat hnext, hlt.mpr fun c' hc' => Option.some.inj hc' ▸ hdel⟩
    · rw [if_neg hdel, Directed, hnext, hlt]
      exact fun h => hdel (h c rfl)

end Nodes

section Runs

variable {s : Mirror} {a : Copying}

theorem step_mirrors (h : Mirrors s a) (e : Event) (hs : Served a e) :
    ∃ t, step s e = some t ∧ Mirrors t (watch a e) := by
  cases e with
  | command c =>
    exact ⟨_, rfl, apply_configured h.collector c, apply_directed h.next c, h.copies, h.inSent,
      h.inExists, h.outSent, h.noIntfOut, h.noCollector, h.inHits, h.outHits, h.account⟩
  | inFrame room cached frame =>
    obtain ⟨r, hr, hsent, hlt, hlen, hcopies, hmissed, hhits⟩ :=
      @inNode_spec room s.pm a.collector a.next cached frame h.collector h.next hs
    have hcount := @copies_missed a.collector frame
    have haccount := h.account
    refine ⟨_, by rw [step, hr, Option.map_some], ?_⟩
    constructor
    case collector => exact h.collector
    case next => exact h.next
    case copies => rw [watch, hcopies, h.copies]
    case inSent => rw [watch, hsent, h.inSent]
    case inExists => exact fun e he => (List.mem_append.mp he).elim (h.inExists e) (hlt e)
    case outSent => exact h.outSent
    case noIntfOut => rw [watch, hmissed, h.noIntfOut]
    case noCollector => exact h.noCollector
    case inHits => rw [watch, hhits, h.inHits, List.length_append, hlen]
    case outHits => exact h.outHits
    case account =>
      rw [hcopies, hmissed, hhits, List.length_append]
      dsimp only
      omega
  | outFrame room cached frame =>
    obtain ⟨hcopies, hmissed, hhits⟩ := @outNode_spec room s.pm a.collector h.collector cached frame
    have hcount := @copies_missed a.collector frame
    have haccount := h.account
    refine ⟨_, rfl, ?_⟩
    constructor
    case collector => exact h.collector
    case next => exact h.next
    case copies => rw [watch, hcopies, h.copies]
    case inSent => exact h.inSent
    case inExists => exact h.inExists
    case outSent => rw [watch, outNode_enqueued, h.outSent, List.map_append]
    case noIntfOut => exact h.noIntfOut
    case noCollector => rw [watch, hmissed, h.noCollector]
    case inHits => exact h.inHits
    case outHits => rw [watch, hhits, h.outHits, List.length_append]
    case account =>
      rw [hcopies, hmissed, hhits, List.length_append]
      dsimp only
      omega

theorem step_none (h : Mirrors s a) {e : Event} (hs : ¬ Served a e) : step s e = none := by
  cases e with
  | command c => exact absurd trivial hs
  | outFrame room cached frame => exact absurd trivial hs
  | inFrame room cached frame =>
    obtain ⟨hne, hnext⟩ := Classical.not_imp.mp hs
    have hd := h.next
    rw [not_not.mp hnext] at hd
    cases frame with
    | nil => exact absurd rfl hne
    | cons b bs => rw [step, pmInHitNodeFn_none hd, Option.map_none]

/-- The whole run, with what the nodes are to do beside it. -/
theorem run_mirrors (h : Mirrors s a) {events : List Event}
    (hs : Meets (fun a e => some (watch a e)) Served a events) :
    ∃ t, run step s events = some t ∧ Mirrors t (events.foldl watch a) := by
  induction events generalizing s a with
  | nil => exact ⟨s, rfl, h⟩
  | cons e events ih =>
    obtain ⟨t, ht, hm⟩ := step_mirrors h e hs.1
    obtain ⟨u, hu, hfinal⟩ := ih hm (hs.2 _ rfl)
    exact ⟨u, run_cons_eq_some.mpr ⟨t, ht, hu⟩, hfinal⟩

theorem start_mirrors : Mirrors start ⟨none, some 0, [], 0, 0, [], []⟩ :=
  ⟨⟨rfl, (Option.some_ne_none _).symm⟩, ⟨rfl, by decide⟩, rfl, rfl, fun _ he => absurd he
    List.not_mem_nil, rfl, rfl, rfl, rfl, rfl, rfl⟩

end Runs

/-- Whatever commands come between the frames, and with whatever room there is in the frames of
the next nodes, packets go on and are copied as the last command that took effect says, as long
as none comes to the input node while a deletion leaves it without a next node. -/
theorem run_copies (events : List Event)
    (hs : Meets (fun a e => some (watch a e)) Served (watched []) events) :
    ∃ s, run step start events = some s ∧ Mirrors s (watched events) ∧
      ∀ e, (∃ t, step s e = some t) ↔ Served (watched events) e := by
  obtain ⟨s, hr, hm⟩ := run_mirrors start_mirrors hs
  refine ⟨s, hr, hm, fun e => ⟨fun ⟨t, ht⟩ => ?_, fun h => ?_⟩⟩
  · by_contra hno
    exact absurd (ht.symm.trans (step_none hm hno)) (Option.some_ne_none t)
  · obtain ⟨t, ht, -⟩ := step_mirrors hm e h
    exact ⟨t, ht⟩

def onAndOff : List Event :=
  [.command (.conf ⟨5, 0, 0⟩), .inFrame (fun _ => 255) 0 [⟨fun _ => 0, 0, 64, ⟨7, 0, []⟩⟩],
    .outFrame (fun _ => 0) 0 [⟨fun _ => 1, 0, 64, ⟨7, 0, []⟩⟩], .command (.conf ⟨5, 0, 1⟩),
    .outFrame (fun _ => 0) 0 [⟨fun _ => 2, 0, 64, ⟨7, 0, []⟩⟩]]

theorem run_copies_sample : ∃ s, run step start onAndOff = some s ∧
    s.inSent.map Prod.fst = [2] ∧ s.copies.map Prod.snd = [5, 5] ∧ s.noCollector = 1 := by
  obtain ⟨s, hr, hm, -⟩ := run_copies onAndOff ⟨trivial, fun a ha => ⟨fun _ => by
    obtain rfl := Option.some.inj ha
    decide, fun _ _ => ⟨trivial, fun _ _ => ⟨trivial, fun _ _ => ⟨trivial, fun _ _ => trivial⟩⟩⟩⟩⟩
  refine ⟨s, hr, ?_, ?_, ?_⟩
  · rw [hm.inSent]
    decide
  · rw [hm.copies]
    decide
  · rw [hm.noCollector]
    decide

end Vppsb.PortCopies
