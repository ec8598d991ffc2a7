import Vppsb.FlowProcess
import Vppsb.NextFrames

namespace Vppsb.PortMirror

open Vppsb.FlowProcess Vppsb.NextFrames

def noIndex : UInt32 := 0xffffffff

def pmFromClasssifier : UInt32 := 0
def pmFromFlowtable : UInt32 := 1

def pmInHitNextError : UInt32 := 0
def pmInHitNextEthernetInput : UInt32 := 1
def pmInHitNextL2Learn : UInt32 := 2
abbrev pmInHitNNext : Nat := 3

structure PmMain where
  swIfIndex : UInt32
  fromNode : UInt32
  nextNodeIndex : UInt32

structure Conf where
  dstInterface : UInt8
  fromNode : UInt8
  isDel : UInt8

def pmConf (pm : PmMain) (c : Conf) : PmMain × Int :=
  if c.isDel = 0 then
    let pm := { pm with swIfIndex := c.dstInterface.toUInt32, fromNode := c.fromNode.toUInt32 }
    if c.fromNode.toUInt32 = pmFromFlowtable then
      ({ pm with nextNodeIndex := pmInHitNextEthernetInput }, 0)
    else if c.fromNode.toUInt32 = pmFromClasssifier then
      ({ pm with nextNodeIndex := pmInHitNextL2Learn }, 0)
    else ({ pm with nextNodeIndex := pmInHitNextError }, -1)
  else (⟨noIndex, noIndex, noIndex⟩, 0)

inductive Word where
  | fromNode (index : UInt32)
  | toInterface (swIfIndex : UInt32)
  | del
  | disable
  | other

structure PmArgs where
  enableDisable : Bool
  swIfIndex : UInt32
  fromNode : UInt32

def parseOption (a : PmArgs) : Word → Option PmArgs
  | .toInterface i => some { a with swIfIndex := i }
  | .del => some { a with enableDisable := false }
  | .disable => some { a with enableDisable := false }
  | .fromNode _ => none
  | .other => none

/-- The loop over the input. A pass takes a previous node, if there is one, and
goes on with another word, or the loop ends. -/
def parseWords : PmArgs → List Word → PmArgs
  | a, [] => a
  | a, [.fromNode n] => { a with fromNode := n }
  | a, .fromNode n :: w :: rest =>
    match parseOption { a with fromNode := n } w with
    | some a => parseWords a rest
    | none => { a with fromNode := n }
  | a, w :: rest =>
    match parseOption a w with
    | some a => parseWords a rest
    | none => a

def pmArgs (words : List Word) : PmArgs := parseWords ⟨true, noIndex, noIndex⟩ words

def setPmCommandFn (pm : PmMain) (words : List Word) : PmMain × Option String :=
  let a := pmArgs words
  if a.swIfIndex = noIndex then (pm, some "interface required")
  else if a.fromNode = noIndex then (pm, some "previous node required")
  else if a.enableDisable then
    ({ pm with swIfIndex := a.swIfIndex, fromNode := a.fromNode }, none)
  else ({ pm with swIfIndex := noIndex, fromNode := noIndex }, none)

inductive Command where
  | conf (c : Conf)
  | set (words : List Word)

def apply (pm : PmMain) : Command → PmMain
  | .conf c => (pmConf pm c).1
  | .set words => (setPmCommandFn pm words).1

/-- The structure is zero but for what `pm_init` writes. -/
def pmInit : PmMain := ⟨noIndex, noIndex, 0⟩

def after (history : List Command) : PmMain := history.foldl apply pmInit

variable (room : Nat → Nat)

def restoreOpaque (pm : PmMain) (b : Buffer) : Buffer :=
  if pm.fromNode = pmFromFlowtable then
    let flowData := b.vnet
    { b with vnet := { b.vnet with swIfIndexCurrent := flowData.swIfIndexCurrent } }
  else b

/-- Both loops over the buffers. A full frame is put, and the next one begun. There is no frame
for a next node that does not exist. -/
def enqueueLoop (pm : PmMain) : Frames Buffer → List Buffer → Option (Frames Buffer)
  | l, [] => some (putNextFrame l)
  | l, b :: rest =>
    let next0 := pm.nextNodeIndex.toNat
    let b := restoreOpaque pm b
    if next0 < pmInHitNNext then
      enqueueLoop pm (validateBufferEnqueue room (write (withRoom room l) b) b next0) rest
    else none

/-- What a call of the node leaves: the frames that have been put, the copies
with the interfaces they are sent from, and the two counters. -/
structure NodeResult where
  sent : List (Nat × List Buffer)
  copies : List (Buffer × UInt32)
  noIntfOut : Nat
  hits : Nat

def sentFrames (pm : PmMain) (cachedNextIndex : Fin pmInHitNNext) :
    List Buffer → Option (List (Nat × List Buffer))
  | [] => some []
  | b :: rest =>
    (enqueueLoop room pm (getNextFrame room noFrames cachedNextIndex) (b :: rest)).map Frames.sent

def pmInHitNodeFn (pm : PmMain) (cachedNextIndex : Fin pmInHitNNext) (frame : List Buffer) :
    Option NodeResult :=
  (sentFrames room pm cachedNextIndex frame).map fun sent =>
    if pm.swIfIndex = noIndex then ⟨sent, [], frame.length, frame.length⟩
    else ⟨sent, frame.map (fun b => (b, pm.swIfIndex)), 0, frame.length⟩

def Command.conf? : Command → Option Conf
  | .conf c => some c
  | .set _ => none

def lastConf (history : List Command) : Option Conf := (history.filterMap Command.conf?).getLast?

/-- The nodes that packets to mirror come from. -/
inductive Previous where
  | classifier
  | flowtable

def Previous.next : Previous → UInt32
  | .classifier => pmInHitNextL2Learn
  | .flowtable => pmInHitNextEthernetInput

def confPrevious (fromNode : UInt8) : Option Previous :=
  if fromNode.toUInt32 = pmFromFlowtable then some .flowtable
  else if fromNode.toUInt32 = pmFromClasssifier then some .classifier
  else none

-- which previous node an index stands for that is given to `set pm`
variable (nodeOf : UInt32 → Option Previous)

/-- The configuration after a command, none if mirroring is off. -/
def configure (m : Option (Option Previous)) : Command → Option (Option Previous)
  | .conf c => if c.isDel = 0 then some (confPrevious c.fromNode) else none
  | .set words =>
    let a := pmArgs words
    if a.swIfIndex = noIndex then m
    else if a.fromNode = noIndex then m
    else if a.enableDisable then some (nodeOf a.fromNode) else none

/-- The previous node configured last, unless mirroring is off. -/
def configured (history : List Command) : Option (Option Previous) :=
  history.foldl (configure nodeOf) none

/-- Every packet goes to a next node that exists and, while mirroring is on, to the
one that belongs to the configured node. -/
def Delivered (history : List Command) (result : Option NodeResult) : Prop :=
  ∃ r, result = some r ∧ ∀ e ∈ enqueued r.sent, e.1 < pmInHitNNext ∧
    ((after history).swIfIndex ≠ noIndex →
      ∀ p, configured nodeOf history = some (some p) → e.1 = p.next.toNat)

/-- The last `pm_conf` is no deletion, and it is for the node configured last. -/
def Agreed (history : List Command) : Prop :=
  (∀ c, lastConf history = some c → c.isDel = 0) ∧
    ∀ p, configured nodeOf history = some (some p) →
      ∃ c, lastConf history = some c ∧ confPrevious c.fromNode = some p

section Loop

variable {room : Nat → Nat} {pm : PmMain}

theorem enqueueLoop_spec (h : pm.nextNodeIndex.toNat < pmInHitNNext) (bs : List Buffer)
    (l : Frames Buffer) : ∃ t, enqueueLoop room pm l bs = some t ∧ enqueued t.sent =
      placed l ++ bs.map (fun b => (pm.nextNodeIndex.toNat, restoreOpaque pm b)) := by
  induction bs generalizing l with
  | nil => exact ⟨_, rfl, by rw [enqueued_putNextFrame, List.map_nil, List.append_nil]⟩
  | cons b bs ih =>
    obtain ⟨t, ht, hput⟩ := ih (validateBufferEnqueue room
      (write (withRoom room l) (restoreOpaque pm b)) (restoreOpaque pm b) pm.nextNodeIndex.toNat)
    refine ⟨t, ?_, ?_⟩
    · rw [enqueueLoop]
      exact (if_pos h).trans ht
    · rw [hput, placed_validate_write, placed_withRoom, List.append_assoc, List.map_cons,
        List.singleton_append]

theorem pmInHitNodeFn_spec (h : pm.nextNodeIndex.toNat < pmInHitNNext) (cached : Fin pmInHitNNext)
    (frame : List Buffer) : ∃ r, pmInHitNodeFn room pm cached frame = some r ∧ enqueued r.sent =
      frame.map (fun b => (pm.nextNodeIndex.toNat, restoreOpaque pm b)) := by
  obtain ⟨sent, hsent, hput⟩ : ∃ sent, sentFrames room pm cached frame = some sent ∧
      enqueued sent = frame.map (fun b => (pm.nextNodeIndex.toNat, restoreOpaque pm b)) := by
    cases frame with
    | nil => exact ⟨[], rfl, rfl⟩
    | cons b bs =>
      obtain ⟨t, ht, hput⟩ := @enqueueLoop_spec room pm h (b :: bs)
        (getNextFrame room noFrames cached)
      rw [placed_get] at hput
      exact ⟨t.sent, congrArg (Option.map Frames.sent) ht, hput⟩
  refine ⟨_, by rw [pmInHitNodeFn, hsent, Option.map_some], ?_⟩
  split <;> exact hput

theorem pmInHitNodeFn_none (h : ¬ pm.nextNodeIndex.toNat < pmInHitNNext)
    (cached : Fin pmInHitNNext) (b : Buffer) (bs : List Buffer) :
    pmInHitNodeFn room pm cached (b :: bs) = none := by
  have hloop : enqueueLoop room pm (getNextFrame room noFrames cached) (b :: bs) = none := if_neg h
  rw [pmInHitNodeFn, sentFrames, hloop]
  rfl

end Loop

section History

def confNext (c : Conf) : UInt32 :=
  if c.isDel = 0 then ((confPrevious c.fromNode).map Previous.next).getD pmInHitNextError
  else noIndex

variable {nodeOf : UInt32 → Option Previous} {pm : PmMain}

theorem pmConf_next (c : Conf) : (pmConf pm c).1.nextNodeIndex = confNext c := by
  rw [pmConf, confNext, confPrevious]
  by_cases hd : c.isDel = 0
  · rw [if_pos hd, if_pos hd]
    split
    · rfl
    · split <;> rfl
  · rw [if_neg hd, if_neg hd]

theorem setPmCommandFn_next (words : List Word) :
    (setPmCommandFn pm words).1.nextNodeIndex = pm.nextNodeIndex := by
  rw [setPmCommandFn]
  split
  · rfl
  · split
    · rfl
    · split <;> rfl

/-- The mirror interface of `pm_conf` fits in a byte, so that it is never `~0`. -/
theorem pmConf_on (c : Conf) (m : Option (Option Previous)) :
    (pmConf pm c).1.swIfIndex = noIndex ↔ configure nodeOf m (.conf c) = none := by
  have hdst : c.dstInterface.toUInt32 ≠ noIndex := by
    intro h
    have hlt : c.dstInterface.toUInt32.toNat < 256 := c.dstInterface.toNat_lt
    rw [h] at hlt
    exact absurd hlt (by decide)
  rw [pmConf, configure]
  by_cases hd : c.isDel = 0
  · rw [if_pos hd, if_pos hd]
    refine iff_of_false ?_ nofun
    split
    · exact hdst
    · split
      · exact hdst
      · exact hdst
  · rw [if_neg hd, if_neg hd]
    exact iff_of_true rfl rfl

theorem setPmCommandFn_on (words : List Word) {m : Option (Option Previous)}
    (hm : pm.swIfIndex = noIndex ↔ m = none) :
    (setPmCommandFn pm words).1.swIfIndex = noIndex ↔ configure nodeOf m (.set words) = none := by
  rw [setPmCommandFn, configure]
  by_cases hsw : (pmArgs words).swIfIndex = noIndex
  · rw [if_pos hsw, if_pos hsw]
    exact hm
  rw [if_neg hsw, if_neg hsw]
  by_cases hfrom : (pmArgs words).fromNode = noIndex
  · rw [if_pos hfrom, if_pos hfrom]
    exact hm
  rw [if_neg hfrom, if_neg hfrom]
  by_cases hen : (pmArgs words).enableDisable = true
  · rw [if_pos hen, if_pos hen]
    exact iff_of_false hsw nofun
  · rw [if_neg hen, if_neg hen]
    exact iff_of_true rfl rfl

/-- The next index is that of the last `pm_conf`, whatever `set pm` was called with
since, and the mirror interface tells whether mirroring is on. -/
theorem after_spec (nodeOf : UInt32 → Option Previous) (history : List Command) :
    (after history).nextNodeIndex = ((lastConf history).map confNext).getD 0 ∧
      ((after history).swIfIndex = noIndex ↔ configured nodeOf history = none) := by
  induction history using List.reverseRecOn with
  | nil => exact ⟨rfl, iff_of_true rfl rfl⟩
  | append_singleton history c ih =>
    obtain ⟨hnext, hon⟩ := ih
    have hafter : after (history ++ [c]) = apply (after history) c := List.foldl_concat ..
    have hconf : configured nodeOf (history ++ [c]) = configure nodeOf (configured nodeOf history) c :=
      List.foldl_concat ..
    rw [hafter, hconf]
    cases c with
    | conf c =>
      have hlast : lastConf (history ++ [.conf c]) = some c := by
        simp [lastConf, Command.conf?]
      rw [hlast]
      exact ⟨pmConf_next c, pmConf_on c _⟩
    | set words =>
      have hlast : lastConf (history ++ [.set words]) = lastConf history := by
        simp [lastConf, Command.conf?]
      rw [hlast, ← hnext]
      exact ⟨setPmCommandFn_next words, setPmCommandFn_on words hon⟩

theorem next_lt_iff (last : Option Conf) :
    ((last.map confNext).getD 0).toNat < pmInHitNNext ↔ ∀ c, last = some c → c.isDel = 0 := by
  cases last with
  | none => exact iff_of_true (by decide) nofun
  | some c =>
    rw [Option.map_some, Option.getD_some, confNext]
    by_cases hd : c.isDel = 0
    · refine iff_of_true ?_ fun c' hc' => Option.some.inj hc' ▸ hd
      rw [if_pos hd]
      cases confPrevious c.fromNode with
      | none => decide
      | some p => cases p <;> decide
    · rw [if_neg hd]
      exact iff_of_false (by decide) fun h => hd (h c rfl)

theorem next_eq_iff {last : Option Conf} (hadd : ∀ c, last = some c → c.isDel = 0)
    (p : Previous) : (last.map confNext).getD 0 = p.next ↔
      ∃ c, last = some c ∧ confPrevious c.fromNode = some p := by
  have hne : pmInHitNextError ≠ p.next := by
    cases p <;> decide
  cases last with
  | none => exact iff_of_false hne nofun
  | some c =>
    rw [Option.map_some, Option.getD_some, confNext, if_pos (hadd c rfl)]
    constructor
    · intro h
      refine ⟨c, rfl, ?_⟩
      cases hc : confPrevious c.fromNode with
      | none =>
        rw [hc] at h
        exact absurd h hne
      | some q =>
        rw [hc] at h
        cases p <;> cases q
        · rfl
        · exact absurd h (by decide)
        · exact absurd h (by decide)
        · rfl
    · rintro ⟨c', hc', hp⟩
      rw [Option.some.inj hc', hp]
      rfl

/-- All that matters for the packets is the next index. -/
theorem delivered_iff (history : List Command) :
    (∀ room cached frame, Delivered nodeOf history
      (pmInHitNodeFn room (after history) cached frame)) ↔
      (after history).nextNodeIndex.toNat < pmInHitNNext ∧ ((after history).swIfIndex ≠ noIndex →
        ∀ p, configured nodeOf history = some (some p) →
          (after history).nextNodeIndex = p.next) := by
  constructor
  · intro h
    obtain ⟨r, hr, hone⟩ := h (fun _ => 0) 0 [⟨fun _ => 0, 0, 0, ⟨0, 0, []⟩⟩]
    have hlt : (after history).nextNodeIndex.toNat < pmInHitNNext := by
      by_contra hno
      rw [pmInHitNodeFn_none hno] at hr
      exact absurd hr.symm (Option.some_ne_none r)
    obtain ⟨r', hr', hput⟩ := @pmInHitNodeFn_spec (fun _ => 0) _ hlt 0 [⟨fun _ => 0, 0, 0, ⟨0, 0, []⟩⟩]
    obtain rfl := Option.some.inj (hr.symm.trans hr')
    rw [hput] at hone
    refine ⟨hlt, fun hon p hp => UInt32.toNat_inj.mp ?_⟩
    exact (hone _ List.mem_cons_self).2 hon p hp
  · rintro ⟨hlt, hnext⟩ room cached frame
    obtain ⟨r, hr, hput⟩ := @pmInHitNodeFn_spec room _ hlt cached frame
    refine ⟨r, hr, fun e he => ?_⟩
    rw [hput] at he
    obtain ⟨b, _, rfl⟩ := List.mem_map.mp he
    exact ⟨hlt, fun hon p hp => congrArg UInt32.toNat (hnext hon p hp)⟩

end History

/-- After a history every packet of every frame is delivered right, if and only if
the last `pm_conf` is no deletion and is for the node configured last. -/
theorem history_delivered (nodeOf : UInt32 → Option Previous) (history : List Command) :
    (∀ room cached frame, Delivered nodeOf history
      (pmInHitNodeFn room (after history) cached frame)) ↔ Agreed nodeOf history := by
  obtain ⟨hnext, hon⟩ := after_spec nodeOf history
  rw [delivered_iff, hnext, next_lt_iff, Agreed]
  refine and_congr_right fun hadd => ?_
  constructor
  · intro h p hconf
    rw [← next_eq_iff hadd p]
    exact h (fun hoff => absurd (hconf.symm.trans (hon.mp hoff)) nofun) p hconf
  · exact fun h _ p hconf => (next_eq_iff hadd p).mpr (h p hconf)

/-- The previous nodes as the help of `set pm` numbers them. -/
def helpNode (node : UInt32) : Option Previous :=
  if node = pmFromFlowtable then some .flowtable
  else if node = pmFromClasssifier then some .classifier
  else none

/-- After a deletion there is no frame to put a packet in, and a `set pm` for the flowtable
leaves the next index of the drops. -/
theorem next_index_left_over :
    ¬ Delivered helpNode [.conf ⟨5, 1, 0⟩, .conf ⟨5, 1, 1⟩]
      (pmInHitNodeFn (fun _ => 255) (after [.conf ⟨5, 1, 0⟩, .conf ⟨5, 1, 1⟩]) 0
        [⟨fun _ => 0, 0, 64, ⟨7, 0, []⟩⟩]) ∧
    ¬ Delivered helpNode [.set [.fromNode 1, .toInterface 5]]
      (pmInHitNodeFn (fun _ => 255) (after [.set [.fromNode 1, .toInterface 5]]) 0
        [⟨fun _ => 0, 0, 64, ⟨7, 0, []⟩⟩]) := by
  constructor
  · rintro ⟨r, hr, -⟩
    have hnone := @pmInHitNodeFn_none (fun _ => 255) (after [.conf ⟨5, 1, 0⟩, .conf ⟨5, 1, 1⟩])
      (by decide) 0 ⟨fun _ => 0, 0, 64, ⟨7, 0, []⟩⟩ []
    exact absurd (hr.symm.trans hnone) (Option.some_ne_none r)
  · rintro ⟨r, hr, hone⟩
    obtain rfl := Option.some.inj hr
    have hnext := (hone _ List.mem_cons_self).2 (by decide) .flowtable rfl
    exact absurd hnext (by decide)

end Vppsb.PortMirror
