import Vppsb.FlowSignature
import Vppsb.PoolStore
import Vppsb.RingFamily

namespace Vppsb.FlowTable

open Vppsb.PoolStore Vppsb.LinkedRing Vppsb.FlowSignature

abbrev Bytes := List UInt8

structure FlowStats where
  straight : UInt32
  reverse : UInt32
deriving DecidableEq

/-- `flow_data_t`, the 32 bytes that are copied into a buffer's private area. -/
structure FlowData where
  swIfIndexCurrent : UInt32
  offloaded : UInt8
  info : Bytes
deriving DecidableEq

structure FlowEntry where
  sigLen : Nat
  sig : Bytes
  sigHash : BitVec 64
  htLineIndex : Nat
  htIndex : Nat
  stats : FlowStats
  expire : Nat
  lifetime : Nat
  timerIndex : Nat
  infos : FlowData
deriving DecidableEq

abbrev DlistElt := Node Nat Nat

structure FlowtableMain where
  flows : Pool FlowEntry
  flowsHt : BitVec 64 → Option Nat
  htLines : Pool DlistElt
  flowsCpt : Nat
  timers : Pool DlistElt
  timerWheel : List Nat
  timeIndex : Nat
  nextNodeIndex : Nat

def timerDefaultLifetime : Nat := 60
def timerMaxLifetime : Nat := 300
def timerMaxExpire : Nat := 256
def fmPoolCount : Nat := 2 ^ 20

def sizeofSignature : Nat := 37
def sizeofIp6Sig : Nat := 37
def sizeofIp4Sig : Nat := 13

def noIndex : Nat := 2 ^ 32 - 1

def u32 (n : Nat) : Nat := n % 2 ^ 32

def zeroFlow : FlowEntry :=
  ⟨0, List.replicate sizeofSignature 0, 0, 0, 0, ⟨0, 0⟩, 0, 0, 0, ⟨0, 0, List.replicate 27 0⟩⟩

def dlistIsEmpty (m : Mem Nat Nat) (head : Nat) : Bool :=
  (m head).next == none || (m head).next == some head

def withElt {α : Type} (p : Pool α) (elt : Nat → α) : Pool α := { p with elt := elt }

def flowtableEntryRemove (fm : FlowtableMain) (f : Nat) : Option FlowtableMain := do
  let e := fm.flows.elt f
  let lines ← remove fm.htLines.elt e.htIndex
  let htLines := put (withElt fm.htLines lines) e.htIndex
  let fm' : FlowtableMain :=
    if dlistIsEmpty lines e.htLineIndex then
      { fm with
        htLines := put htLines e.htLineIndex
        flowsHt := Function.update fm.flowsHt e.sigHash none }
    else { fm with htLines := htLines }
  some { fm' with flows := put fm'.flows f, flowsCpt := fm'.flowsCpt - 1 }

/-- The loop of `flowtable_timer_expire` at element `e`, with the number of
flows it may still remove. Returns how many it removed. -/
def timerExpireLoop : Nat → FlowtableMain → Nat → Option (FlowtableMain × Nat)
  | 0, fm, _ => some (fm, 0)
  | n + 1, fm, e =>
    match (fm.timers.elt e).value with
    | none => some (fm, 0)
    | some f => do
      let fm ← flowtableEntryRemove fm f
      let nextIndex := (fm.timers.elt e).next
      let timers ← remove fm.timers.elt e
      let fm := { fm with timers := put (withElt fm.timers timers) e }
      let r ← timerExpireLoop n fm (← nextIndex)
      some (r.1, r.2 + 1)

def flowtableTimerExpire (fm : FlowtableMain) : Option (FlowtableMain × Nat) := do
  let slot ← fm.timerWheel[fm.timeIndex]?
  if dlistIsEmpty fm.timers.elt slot then some (fm, 0)
  else timerExpireLoop timerMaxExpire fm (← (fm.timers.elt slot).next)

def setFlow (fm : FlowtableMain) (f : Nat) (e : FlowEntry) : FlowtableMain :=
  { fm with flows := set fm.flows f e }

def timerWheelInsertFlow (fm : FlowtableMain) (f : Nat) : Option FlowtableMain := do
  let e := fm.flows.elt f
  let timerSlotHeadIndex := u32 (fm.timeIndex + e.lifetime) % timerMaxLifetime
  let timers ← addtail fm.timers.elt timerSlotHeadIndex e.timerIndex
  some { fm with timers := withElt fm.timers timers }

def timerWheelReschedFlow (fm : FlowtableMain) (f now : Nat) : Option FlowtableMain := do
  let e := fm.flows.elt f
  let timers ← remove fm.timers.elt e.timerIndex
  let fm := { fm with timers := withElt fm.timers timers }
  timerWheelInsertFlow (setFlow fm f { e with expire := u32 (now + e.lifetime) }) f

/-- `memcmp (a, b, len) == 0`. -/
def sameBytes (a b : Bytes) (len : Nat) : Bool := a.take len == b.take len

/-- The loop over a hash line, at the element it looks at next. The list heads
carry no value. The number bounds the elements it may visit. -/
def lookupLine (fm : FlowtableMain) (sig : Bytes) (sigLen : Nat) :
    Nat → Option Nat → Option (Option Nat)
  | 0, _ => none
  | _ + 1, none => none
  | n + 1, some e =>
    match (fm.htLines.elt e).value with
    | none => some none
    | some f =>
      if sameBytes (fm.flows.elt f).sig sig sigLen then some (some f)
      else lookupLine fm sig sigLen n (fm.htLines.elt e).next

/-- The flow entry before it is linked into a slot and a line. -/
def newFlow (key : BitVec 64) (sig : Bytes) (sigLen now timerIndex : Nat) : FlowEntry :=
  { zeroFlow with
    sigLen := sigLen
    sig := sig.take sigLen ++ zeroFlow.sig.drop sigLen
    sigHash := key
    lifetime := timerDefaultLifetime
    expire := u32 (now + timerDefaultLifetime)
    timerIndex := timerIndex }

def createTimer (fm : FlowtableMain) (key : BitVec 64) (sig : Bytes) (sigLen now : Nat) :
    Option FlowtableMain :=
  let f := fresh fm.flows
  let t := fresh fm.timers
  timerWheelInsertFlow
    { fm with
      flows := set (get fm.flows) f (newFlow key sig sigLen now t)
      flowsCpt := fm.flowsCpt + 1
      timers := withElt (get fm.timers) (setValue fm.timers.elt t (some f)) } f

def createLineEntry (fm : FlowtableMain) (f head : Nat) : Option FlowtableMain := do
  let e := fresh fm.htLines
  let lines ← addhead (setValue fm.htLines.elt e (some f)) head e
  some (setFlow { fm with htLines := withElt (get fm.htLines) lines } f
    { fm.flows.elt f with htIndex := e, htLineIndex := head })

/-- What follows the search of the line with the given head. No flow is
returned when the limit is exceeded. -/
def createFlow (fm : FlowtableMain) (key : BitVec 64) (sig : Bytes) (sigLen now head : Nat) :
    Option (FlowtableMain × Option Nat × Bool) :=
  if fmPoolCount < fm.flowsCpt then some (fm, none, false)
  else do
    let f := fresh fm.flows
    let fm ← createTimer fm key sig sigLen now
    let fm ← createLineEntry fm f head
    some (fm, some f, true)

def createLine (fm : FlowtableMain) (key : BitVec 64) : FlowtableMain :=
  let head := fresh fm.htLines
  { fm with
    htLines := withElt (get fm.htLines) (init fm.htLines.elt head)
    flowsHt := Function.update fm.flowsHt key (some head) }

/-- `sig` holds the bytes that are found from `&sig` on, the address of the
pointer parameter, which is what the source compares and copies. The result is
the flow entry and the flag `created`. -/
def flowtableEntryLookupCreate (fm : FlowtableMain) (key : BitVec 64) (sig : Bytes)
    (sigLen now : Nat) : Option (FlowtableMain × Option Nat × Bool) :=
  match fm.flowsHt key with
  | some head =>
    match lookupLine fm sig sigLen (fm.htLines.len + 1) (fm.htLines.elt head).next with
    | none => none
    | some (some f) => some (fm, some f, false)
    | some none => createFlow fm key sig sigLen now head
  | none => createFlow (createLine fm key) key sig sigLen now (fresh fm.htLines)

/-- The slot list of `curr` is put in front of the one of `next`. -/
def spliceSlots (m : Mem Nat Nat) (curr next : Nat) : Option (Mem Nat Nat) := do
  let currPrev ← (m curr).prev
  let currNext ← (m curr).next
  if dlistIsEmpty m next then
    let m := setPrev (setNext m next (some currNext)) next (some currPrev)
    some (init (setPrev (setNext m currPrev (some next)) currNext (some next)) curr)
  else
    let nextNext ← (m next).next
    let m := setNext (setNext m currPrev (some nextNext)) next (some currNext)
    some (init (setPrev (setPrev m nextNext (some currPrev)) currNext (some next)) curr)

def timerWheelIndexUpdate (fm : FlowtableMain) (now : Nat) : Option FlowtableMain :=
  let newIndex := now % timerMaxLifetime
  if fm.timeIndex = noIndex then some { fm with timeIndex := newIndex }
  else if newIndex = fm.timeIndex then some fm
  else do
    let curr ← fm.timerWheel[fm.timeIndex]?
    let next ← fm.timerWheel[newIndex]?
    if dlistIsEmpty fm.timers.elt curr then some { fm with timeIndex := newIndex }
    else
      let timers ← spliceSlots fm.timers.elt curr next
      some { fm with timers := withElt fm.timers timers, timeIndex := newIndex }

end Vppsb.FlowTable
