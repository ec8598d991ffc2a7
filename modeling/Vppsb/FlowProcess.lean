import Vppsb.FlowTable
import Vppsb.StepRun

namespace Vppsb.FlowProcess

open Vppsb.PoolStore Vppsb.LinkedRing Vppsb.FlowSignature Vppsb.FlowTable

/-- The address orders of the packet library. -/
structure AddressCompare where
  ip4 : BitVec 32 → BitVec 32 → Int
  ip6 : BitVec 128 → BitVec 128 → Int

/-- The part of `vlib_buffer_t` that the node uses. `vnet` is the private area,
whose first word is the receive interface. -/
structure Buffer where
  data : Int → UInt8
  currentData : Int
  currentLength : Int
  vnet : FlowData

def vlibBufferAdvance (b : Buffer) (n : Int) : Buffer :=
  { b with currentData := b.currentData + n, currentLength := b.currentLength - n }

def vlibBufferReset (b : Buffer) : Buffer :=
  { b with currentData := 0, currentLength := b.currentLength + max b.currentData 0 }

section Loads

variable (d : Int → UInt8) (o : Int)

def load16 : BitVec 16 := (d (o + 1)).toBitVec ++ (d o).toBitVec
def load32 : BitVec 32 := load16 d (o + 2) ++ load16 d o
def load64 : BitVec 64 := load32 d (o + 4) ++ load32 d o
def load128 : BitVec 128 := load64 d (o + 8) ++ load64 d o

/-- `clib_net_to_host_u16` of the word at the offset. -/
def loadNet16 : BitVec 16 := (d o).toBitVec ++ (d (o + 1)).toBitVec

def udpHeaderAt : UdpHeader := ⟨load16 d o, load16 d (o + 2)⟩

def ip4HeaderAt : IpHeader 32 :=
  ⟨(d (o + 9)).toBitVec, load32 d (o + 12), load32 d (o + 16),
    udpHeaderAt d (o + 4 * ((d o).toNat % 16 : Nat))⟩

def ip6HeaderAt : IpHeader 128 :=
  ⟨(d (o + 6)).toBitVec, load128 d (o + 8), load128 d (o + 24), udpHeaderAt d (o + 40)⟩

end Loads

def ethernetTypeIp4 : BitVec 16 := 0x0800
def ethernetTypeIp6 : BitVec 16 := 0x86dd
def sizeofEthernetHeader : Int := 14

def ftNextEthernetInput : Nat := 1

def ethernetType (b : Buffer) : BitVec 16 := loadNet16 b.data (b.currentData + 12)

/-- The parser for the ethernet type, with the length of its signature. The
buffer already stands at the IP header. -/
def parsePacket (cmp : AddressCompare) (type : BitVec 16) (b : Buffer) : Option (Nat × Parsed) :=
  if type = ethernetTypeIp4 then
    some (sizeofIp4Sig, parseIp4Packet cmp.ip4 (ip4HeaderAt b.data b.currentData) (some 0))
  else if type = ethernetTypeIp6 then
    some (sizeofIp6Sig, parseIp6Packet cmp.ip6 (ip6HeaderAt b.data b.currentData) (some 0))
  else none

def countPacket (e : FlowEntry) (isReverse : Option (BitVec 64)) : FlowEntry :=
  if isReverse = some 0 then { e with stats := { e.stats with straight := e.stats.straight + 1 } }
  else { e with stats := { e.stats with reverse := e.stats.reverse + 1 } }

/-- The offload branch: the flow's data and the buffer's private area. -/
def offloadPacket (e : FlowEntry) (rxSwIfIndex : UInt32) : FlowEntry :=
  if e.infos.offloaded ≠ 0 then e
  else { e with infos := { e.infos with swIfIndexCurrent := rxSwIfIndex } }

/-- A buffer of the frame, with what the memory from `&sig` on holds during the
`n`-th lookup that is made for it. -/
structure Arrival where
  buffer : Buffer
  stack : Nat → Bytes

/-- A buffer that leaves the node, with its next index and, for an IP packet,
the signature it was looked up under and the flow entry it got. -/
structure Sent where
  buffer : Buffer
  next0 : Nat
  lookup : Option (Signature × Nat)

/-- A flow that was found goes back into the slot of its lifetime. -/
def refreshFlow (fm : FlowtableMain) (f now : Nat) (created : Bool) : Option FlowtableMain :=
  if created then some fm else timerWheelReschedFlow fm f now

/-- One pass of the inner loop over buffer `b`. No `Sent` means that no flow
could be allocated: the buffer stays the first of those left, standing at its
IP header. -/
def processPacket (cmp : AddressCompare) (now : Nat) (fm : FlowtableMain) (b : Buffer)
    (stack : Bytes) : Option (FlowtableMain × Buffer × Option Sent) :=
  let swIfIndex0 := b.vnet.swIfIndexCurrent
  let type := ethernetType b
  let b' := vlibBufferAdvance b sizeofEthernetHeader
  match parsePacket cmp type b' with
  | none => some (fm, b, some ⟨vlibBufferReset b, ftNextEthernetInput, none⟩)
  | some (sigLen, p) => do
    let r ← flowtableEntryLookupCreate fm p.hash stack sigLen now
    match r with
    | (fm, none, _) => some (fm, b', none)
    | (fm, some f, created) => do
      let fm ← refreshFlow fm f now created
      let e := offloadPacket (countPacket (fm.flows.elt f) p.isReverse) swIfIndex0
      let next0 := if e.infos.offloaded ≠ 0 then ftNextEthernetInput else fm.nextNodeIndex
      some (setFlow fm f e, b',
        some ⟨vlibBufferReset { b' with vnet := e.infos }, next0, some (p.sig, f)⟩)

/-- The loop over the buffers of a frame. After a failed allocation the source
jumps over the bookkeeping, and the same buffer is processed again. The first
number bounds the passes, the second counts the lookups made for a buffer. -/
def processLoop (cmp : AddressCompare) (now : Nat) :
    Nat → Nat → FlowtableMain → List Arrival → Option (FlowtableMain × List Sent)
  | _, _, fm, [] => some (fm, [])
  | 0, _, _, _ :: _ => none
  | n + 1, k, fm, a :: rest => do
    let r ← processPacket cmp now fm a.buffer (a.stack k)
    match r with
    | (fm, b, none) => processLoop cmp now n (k + 1) fm (⟨b, a.stack⟩ :: rest)
    | (fm, _, some sent) =>
      let r ← processLoop cmp now n 0 fm rest
      some (r.1, sent :: r.2)

/-- A call of the node at the time `now` on a frame. Returns the buffers in the
order in which they leave, and the number of flows that expired. -/
def flowtableProcess (cmp : AddressCompare) (passes now : Nat) (fm : FlowtableMain)
    (frame : List Arrival) : Option (FlowtableMain × List Sent × Nat) := do
  let fm ← timerWheelIndexUpdate fm now
  let r ← processLoop cmp now passes 0 fm frame
  let r' ← flowtableTimerExpire r.1
  some (r'.1, r.2, r'.2)

/-- Arguments of `flowtable_update`. Addresses are the words that their sixteen
bytes form in memory. -/
structure UpdateArgs where
  isIp4 : Bool
  ipSrc : BitVec 128
  ipDst : BitVec 128
  ipUpperProto : BitVec 8
  portSrc : BitVec 16
  portDst : BitVec 16
  lifetime : UInt16
  offloaded : UInt8
  infos : Bytes

def updateSignature (a : UpdateArgs) : Signature :=
  if a.isIp4 then
    .ip4 ⟨a.ipSrc.setWidth 32, a.ipDst.setWidth 32, a.ipUpperProto, a.portSrc, a.portDst⟩
  else .ip6 ⟨a.ipSrc, a.ipDst, a.ipUpperProto, a.portSrc, a.portDst⟩

/-- The first `n` bytes of a word in memory. -/
def wordBytes {w : Nat} (n : Nat) (x : BitVec w) : Bytes :=
  (List.range n).map (fun i => ⟨x.extractLsb' (8 * i) 8⟩)

def sigBytes : Signature → Bytes
  | .ip4 s => wordBytes 4 s.src ++ wordBytes 4 s.dst ++ wordBytes 1 s.proto ++
      wordBytes 2 s.portSrc ++ wordBytes 2 s.portDst
  | .ip6 s => wordBytes 16 s.src ++ wordBytes 16 s.dst ++ wordBytes 1 s.proto ++
      wordBytes 2 s.portSrc ++ wordBytes 2 s.portDst

/-- The loop of `flowtable_update`: where it ends, `flow` is the last flow that
was looked at. -/
def updateLine (fm : FlowtableMain) (sig : Bytes) (sigLen : Nat) :
    Nat → Option Nat → Option Nat → Option (Option Nat)
  | 0, _, _ => none
  | _ + 1, none, _ => none
  | n + 1, some e, flow =>
    match (fm.htLines.elt e).value with
    | none => some flow
    | some f =>
      if sameBytes (fm.flows.elt f).sig sig sigLen then some (some f)
      else updateLine fm sig sigLen n (fm.htLines.elt e).next (some f)

def applyUpdate (e : FlowEntry) (a : UpdateArgs) : FlowEntry :=
  { e with
    lifetime := if a.lifetime ≠ 0xffff then a.lifetime.toNat else e.lifetime
    infos := { e.infos with offloaded := a.offloaded, info := a.infos } }

def flowtableUpdate (fm : FlowtableMain) (a : UpdateArgs) : Option (FlowtableMain × Int) :=
  let sigLen := if a.isIp4 then sizeofIp4Sig else sizeofIp6Sig
  let sig := updateSignature a
  match fm.flowsHt (hashSignature sig) with
  | none => some (fm, -1)
  | some head =>
    if dlistIsEmpty fm.htLines.elt head then some (fm, -1)
    else do
      let r ← updateLine fm (sigBytes sig) sigLen (fm.htLines.len + 1)
        (fm.htLines.elt head).next none
      match r with
      | none => some (fm, -1)
      | some flow => some (setFlow fm flow (applyUpdate (fm.flows.elt flow) a), 0)

def noNode : DlistElt := ⟨none, none, none⟩

/-- One round of the loop of `flowtable_init` that sets up the timer wheel. -/
def initSlot (fm : FlowtableMain) : FlowtableMain :=
  let head := fresh fm.timers
  { fm with
    timers := withElt (get fm.timers) (init fm.timers.elt head)
    timerWheel := fm.timerWheel ++ [head] }

@[irreducible] def flowtableInit (nextNodeIndex : Nat) : FlowtableMain :=
  initSlot^[timerMaxLifetime]
    { flows := empty zeroFlow
      flowsHt := fun _ => none
      htLines := empty noNode
      flowsCpt := 0
      timers := empty noNode
      timerWheel := []
      timeIndex := noIndex
      nextNodeIndex := nextNodeIndex }

inductive Event where
  | frame (passes now : Nat) (arrivals : List Arrival)
  | update (args : UpdateArgs)

def step (cmp : AddressCompare) (fm : FlowtableMain) : Event → Option FlowtableMain
  | .frame passes now arrivals =>
    (flowtableProcess cmp passes now fm arrivals).map (fun r => r.1)
  | .update args => (flowtableUpdate fm args).map (fun r => r.1)

end Vppsb.FlowProcess
