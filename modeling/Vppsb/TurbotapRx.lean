import Vppsb.NextFrames
import Vppsb.StepRun
import Vppsb.Turbotap
import Vppsb.VlibBuffer

namespace Vppsb.TurbotapRx

open Vppsb.StepRun Vppsb.NextFrames Vppsb.VlibBuffer
open Vppsb.Turbotap (Interface noIndex)

def maxRecv : Nat := 256

def turbotapRxNextEthernetInput : Nat := 2
def turbotapRxNextDrop : Nat := 3

/-- The part of `turbotap_main_t` that the node uses, with the buffers. -/
structure RxMain where
  rxBuffers : List Nat
  unusedBufferList : List Nat
  buffers : Nat → Buffer

structure Counters where
  bufferAllocation : Nat
  read : Nat
  rxPackets : Nat
  rxBytes : Nat

/-- What a call finds: the buffers that the allocator has, the interface and the
frames, the messages that `recvmmsg` returns, and whether `errno` is `EAGAIN`. -/
structure Call where
  allocated : List Nat
  adminDown : Bool
  room : Nat → Nat
  messages : List (List UInt8)
  again : Bool

structure RxResult where
  main : RxMain
  rxReady : Nat
  sent : List (Nat × List Nat)
  counters : Counters
  count : Nat

/-- Sums and products with a `u32`. `rx_ready` is only used in such. -/
def wanted (ti : Interface) (rxReady : Nat) : Nat := u32 (rxReady * ti.mtuBuffers)

def desiredAllocation (ti : Interface) (rxReady : Nat) : Nat := u32 (wanted ti rxReady + 32)

def allocation (c : Call) (ti : Interface) (tr : RxMain) (rxReady : Nat) : List Nat :=
  if tr.rxBuffers.length < wanted ti rxReady then
    c.allocated.take (u32 (desiredAllocation ti rxReady - tr.rxBuffers.length))
  else []

/-- The loop that fills the messages, from the end of `rx_buffers` on: each gets
the buffers of its vector. -/
def fillMsgs (mtuBuffers : Nat) : Nat → List Nat → List (List Nat)
  | 0, _ => []
  | n + 1, free =>
    if mtuBuffers < free.length then
      free.take mtuBuffers :: fillMsgs mtuBuffers n (free.drop mtuBuffers)
    else []

/-- What `recvmmsg` does with the messages that it returns. -/
def recvInto (size : Nat) : List (List Nat) → List (List UInt8) → (Nat → Buffer) → Nat → Buffer
  | iov :: iovs, msg :: msgs, m => recvInto size iovs msgs (readvInto size iov msg m)
  | _, _, m => m

def bufferAddToChain (m : Nat → Buffer) (bi firstBi prevBi : Nat) : Nat → Buffer :=
  let m := Function.update m firstBi
    { m firstBi with
      totalLengthNotIncludingFirstBuffer :=
        u32 ((m firstBi).totalLengthNotIncludingFirstBuffer + (m bi).currentLength) }
  let m := Function.update m prevBi { m prevBi with nextBuffer := bi, nextPresent := true }
  Function.update m bi { m bi with nextBuffer := 0 }

structure Building where
  bi0 : Nat
  firstBi0 : Nat
  bytesAlreadyPut : Nat
  j : Nat

def grabBuffers (lengths size swIfIndex : Nat) :
    List Nat → Nat → Building → (Nat → Buffer) → Building × List Nat × (Nat → Buffer)
  | [], _, c, m => (c, [], m)
  | bi0 :: free, remainLen, c, m =>
    if remainLen = 0 then (c, bi0 :: free, m)
    else
      let bytesToPut := if size < remainLen then size else remainLen
      let m := Function.update m bi0 { m bi0 with currentLength := lengthField lengths bytesToPut }
      if c.bytesAlreadyPut = 0 then
        let m := Function.update m bi0
          { m bi0 with
            totalLengthNotIncludingFirstBuffer := 0
            nextPresent := false
            totalLengthValid := true
            swIfIndexRx := swIfIndex
            swIfIndexTx := noIndex }
        grabBuffers lengths size swIfIndex free (remainLen - bytesToPut)
          ⟨bi0, bi0, bytesToPut, c.j + 1⟩ m
      else
        grabBuffers lengths size swIfIndex free (remainLen - bytesToPut)
          ⟨bi0, c.firstBi0, c.bytesAlreadyPut + bytesToPut, c.j + 1⟩
          (bufferAddToChain m bi0 c.firstBi0 c.bi0)

/-- The variables of the loop over the messages. `free` are the buffers below
`len`, the last one first. -/
structure RxLoop where
  free : List Nat
  unused : List Nat
  buffers : Nat → Buffer
  frames : Frames Nat
  next : Nat
  i : Nat
  counters : Counters

/-- One message. Undefined where the source would look below the start of
`rx_buffers`. -/
def rxMessage (lengths size : Nat) (c : Call) (ti : Interface) (s : RxLoop) (msg : List UInt8) :
    Option RxLoop :=
  let r := grabBuffers lengths size ti.swIfIndex s.free msg.length ⟨0, 0, 0, 0⟩ s.buffers
  let spare := ti.mtuBuffers - r.1.j
  if r.2.1.length < spare then none
  else
    let next := if c.adminDown then turbotapRxNextDrop else s.next
    some
      { free := r.2.1.drop spare
        unused := s.unused ++ r.2.1.take spare
        buffers := r.2.2
        frames := validateBufferEnqueue c.room (write s.frames r.1.firstBi0) r.1.firstBi0 next
        next := next
        i := s.i + 1
        counters :=
          if c.adminDown then s.counters
          else
            { s.counters with
              rxPackets := s.counters.rxPackets + 1
              rxBytes := s.counters.rxBytes + msg.length } }

def rxLoop (lengths size : Nat) (c : Call) (ti : Interface) :
    List (List UInt8) → RxLoop → Option RxLoop
  | [], s => some s
  | msg :: msgs, s =>
    if s.frames.left = 0 then some s
    else do
      let s ← rxMessage lengths size c ti s msg
      rxLoop lengths size c ti msgs s

/-- The number of messages to ask for in the next call. The difference wraps like a `u32`, so that
it is only not positive when it is zero. -/
def nextReady (rxReady i : Nat) : Nat :=
  if 0 < u32 ((rxReady : Int) - i) then
    if u32 ((rxReady : Int) - i) < i then i else u32 ((rxReady : Int) - i)
  else if maxRecv < u32 (rxReady + i) then maxRecv
  else u32 (rxReady + i)

def startIndex (ti : Interface) : Nat :=
  if ti.perInterfaceNextIndex = noIndex then turbotapRxNextEthernetInput
  else ti.perInterfaceNextIndex

/-- `lengths` is the number of values of `current_length`, and `size` is what a
buffer of the free list holds. -/
def turbotapRxIface (lengths size : Nat) (c : Call) (ti : Interface) (tr : RxMain) (rxReady : Nat) :
    Option RxResult :=
  let nextIndex := startIndex ti
  let rxBuffers := tr.rxBuffers ++ allocation c ti tr rxReady
  let counters : Counters :=
    ⟨if rxBuffers.length < wanted ti rxReady then 1 else 0, 0, 0, 0⟩
  let iovs := fillMsgs ti.mtuBuffers rxReady rxBuffers.reverse
  let m := recvInto size iovs c.messages tr.buffers
  if c.messages = [] then
    some
      { main := { tr with rxBuffers := rxBuffers, buffers := m }
        rxReady := rxReady
        sent := []
        counters := if c.again then counters else { counters with read := 1 }
        count := 0 }
  else do
    let s ← rxLoop lengths size c ti c.messages
      { free := rxBuffers.reverse
        unused := if tr.rxBuffers.length < wanted ti rxReady then [] else tr.unusedBufferList
        buffers := m
        frames := getNextFrame c.room noFrames nextIndex
        next := nextIndex
        i := 0
        counters := counters }
    some
      { main := ⟨s.free.reverse ++ s.unused.reverse, [], s.buffers⟩
        rxReady := nextReady rxReady s.i
        sent := (putNextFrame s.frames).sent
        counters := s.counters
        count := s.i }

section Chains

variable {lengths size : Nat} {m : Nat → Buffer} {bi first prev b : Nat}

theorem addToChain_self (hf : bi ≠ first) (hp : bi ≠ prev) :
    bufferAddToChain m bi first prev bi = { m bi with nextBuffer := 0 } := by
  rw [bufferAddToChain, Function.update_self, Function.update_of_ne hp, Function.update_of_ne hf]

theorem addToChain_prev (hp : bi ≠ prev) :
    bufferAddToChain m bi first prev prev =
      { m prev with
        nextBuffer := bi
        nextPresent := true
        totalLengthNotIncludingFirstBuffer :=
          (bufferAddToChain m bi first prev prev).totalLengthNotIncludingFirstBuffer } := by
  rw [bufferAddToChain, Function.update_of_ne hp.symm, Function.update_self]
  by_cases hfp : prev = first
  · rw [hfp, Function.update_self]
  · rw [Function.update_of_ne hfp]

theorem addToChain_other (hb : b ≠ bi) (hp : b ≠ prev) :
    bufferAddToChain m bi first prev b =
      { m b with
        totalLengthNotIncludingFirstBuffer :=
          (bufferAddToChain m bi first prev b).totalLengthNotIncludingFirstBuffer } := by
  rw [bufferAddToChain, Function.update_of_ne hb, Function.update_of_ne hp]
  by_cases hf : b = first
  · rw [hf, Function.update_self]
  · rw [Function.update_of_ne hf]

theorem addToChain_far (hb : b ≠ bi) (hp : b ≠ prev) (hf : b ≠ first) :
    bufferAddToChain m bi first prev b = m b := by
  rw [bufferAddToChain, Function.update_of_ne hb, Function.update_of_ne hp, Function.update_of_ne hf]

theorem addToChain_data (hf : bi ≠ first) (hp : bi ≠ prev) (b : Nat) :
    (bufferAddToChain m bi first prev b).data = (m b).data := by
  by_cases hb : b = bi
  · rw [hb, addToChain_self hf hp]
  · by_cases hbp : b = prev
    · rw [hbp, addToChain_prev hp]
    · rw [addToChain_other hb hbp]

theorem exists_bytesToPut (hsize : 0 < size) {remain : Nat} (hpos : 0 < remain) :
    ∃ put, put = (if size < remain then size else remain) ∧ 0 < put ∧ put ≤ size ∧ put ≤ remain ∧
      (0 < remain - put → put = size) := by
  refine ⟨_, rfl, ?_⟩
  split <;> omega

structure ChainedTo (m m' : Nat → Buffer) (bi first prev put : Nat) : Prop where
  self : m' bi = { m bi with currentLength := put, nextBuffer := 0 }
  link : m' prev = { m prev with
    nextBuffer := bi
    nextPresent := true
    totalLengthNotIncludingFirstBuffer := (m' prev).totalLengthNotIncludingFirstBuffer }
  other : ∀ b, b ≠ bi → b ≠ prev → m' b = { m b with
    totalLengthNotIncludingFirstBuffer := (m' b).totalLengthNotIncludingFirstBuffer }
  far : ∀ b, b ≠ bi → b ≠ prev → b ≠ first → m' b = m b
  data : ∀ b, (m' b).data = (m b).data

theorem chainedTo {put : Nat} (hf : bi ≠ first) (hp : bi ≠ prev) (hput : put < lengths) :
    ChainedTo m (bufferAddToChain (Function.update m bi
      { m bi with currentLength := lengthField lengths put }) bi first prev) bi first prev put where
  self := by rw [addToChain_self hf hp, Function.update_self, lengthField_of_lt hput]
  link := by rw [addToChain_prev hp, Function.update_of_ne hp.symm]
  other := by
    intro b hb hbp
    rw [addToChain_other hb hbp, Function.update_of_ne hb]
  far := by
    intro b hb hbp hbf
    rw [addToChain_far hb hbp hbf, Function.update_of_ne hb]
  data := by
    intro b
    rw [addToChain_data hf hp]
    by_cases hb : b = bi
    · rw [hb, Function.update_self]
    · rw [Function.update_of_ne hb]

/-- The chain that starts at a buffer, and what becomes of the other ones. -/
structure Extended (m m' : Nat → Buffer) (size n first : Nat) (bs : List Nat) : Prop where
  chain : Chain m' size n bs
  kept : ∀ b, b ∉ bs → b ≠ first → m' b = m b
  other : ∀ b, b ∉ bs → m' b = { m b with
    totalLengthNotIncludingFirstBuffer := (m' b).totalLengthNotIncludingFirstBuffer }
  data : ∀ b, (m' b).data = (m b).data

theorem Extended.last (first : Nat) {bi n : Nat} (hends : (m bi).nextPresent = false)
    (hlen : (m bi).currentLength = n) (hpos : 0 < n) (hle : n ≤ size) :
    Extended m m size n first [bi] :=
  ⟨.last n bi hpos hle hlen hends, fun _ _ _ => rfl, fun _ _ => rfl, fun _ => rfl⟩

theorem Extended.cons {m m₂ m' : Nat → Buffer} {bi first prev put n : Nat} {bs : List Nat}
    (hc : ChainedTo m m₂ bi first prev put) (he : Extended m₂ m' size n first (bi :: bs))
    (hprev : prev ∉ bi :: bs) (hfull : (m prev).currentLength = size) :
    Extended m m' size (size + n) first (prev :: bi :: bs) where
  chain := by
    refine .more n prev bi bs ?_ ?_ ?_ he.chain
    · rw [he.other prev hprev, hc.link, hfull]
    · rw [he.other prev hprev, hc.link]
    · rw [he.other prev hprev, hc.link]
  kept := by
    intro b hb hbf
    obtain ⟨hbp, hb'⟩ := List.ne_and_not_mem_of_not_mem_cons hb
    rw [he.kept b hb' hbf, hc.far b (List.ne_of_not_mem_cons hb') hbp hbf]
  other := by
    intro b hb
    obtain ⟨hbp, hb'⟩ := List.ne_and_not_mem_of_not_mem_cons hb
    rw [he.other b hb', hc.other b (List.ne_of_not_mem_cons hb') hbp]
  data := by
    intro b
    rw [he.data, hc.data]

/-- What the rest of the message does, when the buffer `c.bi0` has been filled
as far as it goes: it is chained with as many free buffers as it takes. -/
theorem grabBuffers_rest (swIfIndex : Nat) (hsize : 0 < size) (hfits : size < lengths)
    (free : List Nat) {remain len : Nat} {c : Building} {m : Nat → Buffer} (hn : free.Nodup)
    (hbi : c.bi0 ∉ free) (hfirst : c.firstBi0 ∉ free) (hput : 0 < c.bytesAlreadyPut)
    (hclear : ∀ b ∈ free, (m b).nextPresent = false) (hends : (m c.bi0).nextPresent = false)
    (hlen : (m c.bi0).currentLength = len) (hpos : 0 < len) (hle : len ≤ size)
    (hfull : 0 < remain → len = size) (hcap : remain ≤ free.length * size) :
    ∃ k c' m', grabBuffers lengths size swIfIndex free remain c m = (c', free.drop k, m') ∧
      k ≤ free.length ∧ c'.j = c.j + k ∧ c'.firstBi0 = c.firstBi0 ∧
      Extended m m' size (len + remain) c.firstBi0 (c.bi0 :: free.take k) := by
  induction free generalizing remain len c m with
  | nil =>
    have hnone : remain = 0 := by simpa using hcap
    subst hnone
    exact ⟨0, c, m, rfl, Nat.le_refl 0, rfl, rfl, .last _ hends hlen hpos hle⟩
  | cons bi free ih =>
    by_cases hnone : remain = 0
    · subst hnone
      refine ⟨0, c, m, ?_, Nat.zero_le _, rfl, rfl, .last _ hends hlen hpos hle⟩
      rw [grabBuffers, if_pos rfl]
      rfl
    · obtain ⟨hbn, hn'⟩ := List.nodup_cons.mp hn
      obtain ⟨hbi, hbi'⟩ := List.ne_and_not_mem_of_not_mem_cons hbi
      obtain ⟨hfi, hfirst'⟩ := List.ne_and_not_mem_of_not_mem_cons hfirst
      obtain ⟨put, hputs, hput0, hputle, hputr, hputfull⟩ :=
        exists_bytesToPut hsize (Nat.pos_of_ne_zero hnone)
      have hlenfull : len = size := hfull (Nat.pos_of_ne_zero hnone)
      obtain ⟨m₂, hm₂⟩ : ∃ m₂, m₂ = bufferAddToChain (Function.update m bi
        { m bi with currentLength := lengthField lengths put }) bi c.firstBi0 c.bi0 := ⟨_, rfl⟩
      have hc : ChainedTo m m₂ bi c.firstBi0 c.bi0 put :=
        hm₂ ▸ chainedTo hfi.symm hbi.symm (Nat.lt_of_le_of_lt hputle hfits)
      have hclear' : ∀ b ∈ free, (m₂ b).nextPresent = false := by
        intro b hb
        rw [hc.far b (fun h => hbn (h ▸ hb)) (fun h => hbi' (h ▸ hb)) fun h => hfirst' (h ▸ hb)]
        exact hclear b (List.mem_cons_of_mem bi hb)
      have hcap' : remain - put ≤ free.length * size := by
        rw [List.length_cons, Nat.succ_mul] at hcap
        omega
      obtain ⟨k, c', m', hrun, hk, hj, hf, he⟩ :=
        ih (c := ⟨bi, c.firstBi0, c.bytesAlreadyPut + put, c.j + 1⟩) (m := m₂) hn' hbn
          hfirst' (Nat.add_pos_left hput put) hclear'
          (by rw [hc.self]; exact hclear bi List.mem_cons_self) (by rw [hc.self]) hput0 hputle
          hputfull hcap'
      have hsum : len + remain = size + (put + (remain - put)) := by
        rw [hlenfull, Nat.add_sub_cancel' hputr]
      have hout : c.bi0 ∉ bi :: free.take k := by
        rintro (_ | ⟨_, h⟩)
        · exact hbi rfl
        · exact hbi' (List.mem_of_mem_take h)
      refine ⟨k + 1, c', m', ?_, Nat.succ_le_succ hk, hj.trans (Nat.add_right_comm c.j 1 k), hf, ?_⟩
      · rw [grabBuffers, if_neg hnone, if_neg (Nat.ne_of_gt hput), ← hputs, ← hm₂]
        exact hrun
      · rw [hsum, List.take_succ_cons]
        exact he.cons hc hout (hlen.trans (congrArg _ hlenfull))

structure Began (m m' : Nat → Buffer) (bi put : Nat) : Prop where
  length : (m' bi).currentLength = put
  ends : (m' bi).nextPresent = false
  data : (m' bi).data = (m bi).data
  other : ∀ b, b ≠ bi → m' b = m b

theorem began (m : Nat → Buffer) (bi swIfIndex : Nat) {put : Nat} (hput : put < lengths) :
    Began m (Function.update
      (Function.update m bi { m bi with currentLength := lengthField lengths put }) bi
      { Function.update m bi { m bi with currentLength := lengthField lengths put } bi with
        totalLengthNotIncludingFirstBuffer := 0
        nextPresent := false
        totalLengthValid := true
        swIfIndexRx := swIfIndex
        swIfIndexTx := noIndex }) bi put := by
  constructor
  case length => rw [Function.update_self, Function.update_self, lengthField_of_lt hput]
  case ends => rw [Function.update_self]
  case data => rw [Function.update_self, Function.update_self]
  case other =>
    intro b hb
    rw [Function.update_of_ne hb, Function.update_of_ne hb]

theorem grabBuffers_spec (swIfIndex : Nat) (hsize : 0 < size) (hfits : size < lengths)
    {free : List Nat} {n : Nat} (hn : free.Nodup) (hclear : ∀ b ∈ free, (m b).nextPresent = false)
    (hpos : 0 < n) (hcap : n ≤ free.length * size) :
    ∃ c' m', grabBuffers lengths size swIfIndex free n ⟨0, 0, 0, 0⟩ m =
        (c', free.drop ((n + size - 1) / size), m') ∧
      c'.j = (n + size - 1) / size ∧
      c'.firstBi0 = (free.take ((n + size - 1) / size)).headD 0 ∧
      Chain m' size n (free.take ((n + size - 1) / size)) ∧
      (∀ b, b ∉ free.take ((n + size - 1) / size) → m' b = m b) ∧
      ∀ b, (m' b).data = (m b).data := by
  cases free with
  | nil =>
    rw [List.length_nil, Nat.zero_mul] at hcap
    omega
  | cons bi free =>
    obtain ⟨hbn, hn'⟩ := List.nodup_cons.mp hn
    obtain ⟨put, hputs, hput0, hputle, hputn, hputfull⟩ := exists_bytesToPut hsize hpos
    have hb := began m bi swIfIndex (Nat.lt_of_le_of_lt hputle hfits)
    have hclear' := fun b (h : b ∈ free) => (congrArg Buffer.nextPresent
      (hb.other b fun heq => hbn (heq ▸ h))).trans (hclear b (List.mem_cons_of_mem bi h))
    have hcap' : n - put ≤ free.length * size := by
      rw [List.length_cons, Nat.succ_mul] at hcap
      omega
    obtain ⟨k, c', m', hrun, hk, hj, hf, hchain, hkept, -, hdata⟩ :=
      grabBuffers_rest swIfIndex (c := ⟨bi, bi, put, 1⟩) hsize hfits free hn' hbn hbn hput0 hclear'
        hb.ends hb.length hput0 hputle hputfull hcap'
    rw [Nat.add_sub_cancel' hputn] at hchain
    have hcount : k + 1 = (n + size - 1) / size := by
      rw [← hchain.length hsize, List.length_cons, List.length_take, Nat.min_eq_left hk]
    rw [← hcount, List.take_succ_cons, List.drop_succ_cons]
    refine ⟨c', m', ?_, ?_, hf, hchain, ?_, ?_⟩
    · rw [grabBuffers, if_neg (Nat.ne_of_gt hpos), if_pos rfl, ← hputs]
      exact hrun
    · exact hj.trans (Nat.add_comm 1 k)
    · intro b hout
      have hne := List.ne_of_not_mem_cons hout
      rw [hkept b hout hne, hb.other b hne]
    · intro b
      rw [hdata]
      by_cases hbb : b = bi
      · rw [hbb, hb.data]
      · rw [hb.other b hbb]

end Chains

/-- A message in its chain: the buffers that lead its vector, as many as it takes. -/
structure Taken (m : Nat → Buffer) (size : Nat) (iov : List Nat) (msg : List UInt8)
    (chain : List Nat) : Prop where
  leading : chain = iov.take ((msg.length + size - 1) / size)
  chain : Chain m size msg.length chain

theorem Taken.congr {m m' : Nat → Buffer} {size : Nat} {iov chain : List Nat} {msg : List UInt8}
    (h : Taken m size iov msg chain) (heq : ∀ b ∈ chain, m' b = m b) :
    Taken m' size iov msg chain := ⟨h.leading, h.chain.congr heq⟩

theorem Taken.subset {m : Nat → Buffer} {size : Nat} {iov chain : List Nat} {msg : List UInt8}
    (h : Taken m size iov msg chain) : ∀ b ∈ chain, b ∈ iov := by
  rw [h.leading]
  exact fun b hb => List.mem_of_mem_take hb

theorem take_div_le {n size k : Nat} (hsize : 0 < size) (h : n ≤ k * size) :
    (n + size - 1) / size ≤ k := by
  refine Nat.lt_succ_iff.mp (Nat.div_lt_of_lt_mul ?_)
  rw [Nat.mul_succ, Nat.mul_comm size k]
  omega

section Loop

variable {lengths size : Nat} {ti : Interface}

def target (c : Call) (next : Nat) : Nat := if c.adminDown then turbotapRxNextDrop else next

theorem target_idem (c : Call) (next : Nat) : target c (target c next) = target c next := by
  rw [target, target]
  split <;> rfl

/-- The free slots of the frame for the node to which the messages go. It is the
second frame of the call if that is not the node with which the call begins. -/
def freeSlots (c : Call) (ti : Interface) : Nat :=
  if target c (startIndex ti) = startIndex ti then c.room 0 + 1 else c.room 1 + 1

/-- One message takes one vector: its chain, and the spare buffers that are parked. -/
theorem rxMessage_spec (call : Call) (hsize : 0 < size) (hfits : size < lengths) {s : RxLoop} {iov tail : List Nat}
    (hfree : s.free = iov ++ tail) (hiov : iov.length = ti.mtuBuffers) {msg : List UInt8}
    (hpos : 0 < msg.length) (hcap : msg.length ≤ ti.mtuBuffers * size) (hn : s.free.Nodup)
    (hclear : ∀ b ∈ s.free, (s.buffers b).nextPresent = false) :
    ∃ s' chain, rxMessage lengths size call ti s msg = some s' ∧
      Taken s'.buffers size iov msg chain ∧ s'.free = tail ∧
      s'.unused = s.unused ++ iov.drop ((msg.length + size - 1) / size) ∧
      s'.frames = validateBufferEnqueue call.room (write s.frames (chain.headD 0)) (chain.headD 0)
        (target call s.next) ∧
      s'.next = target call s.next ∧ s'.i = s.i + 1 ∧
      (∀ b, b ∉ chain → s'.buffers b = s.buffers b) ∧
      ∀ b, (s'.buffers b).data = (s.buffers b).data := by
  have hle := take_div_le hsize hcap
  have hcap' : msg.length ≤ s.free.length * size := by
    rw [hfree, List.length_append, hiov, Nat.add_mul]
    omega
  obtain ⟨c', m', hrun, hj, hfirst, hchain, hkept, hdata⟩ :=
    grabBuffers_spec ti.swIfIndex hsize hfits hn hclear hpos hcap'
  obtain ⟨k, hk⟩ : ∃ k, k = (msg.length + size - 1) / size := ⟨_, rfl⟩
  rw [← hk] at hle hrun hj hfirst hchain hkept
  have hkiov : k ≤ iov.length := hle.trans_eq hiov.symm
  have htake : s.free.take k = iov.take k := by rw [hfree, List.take_append_of_le_length hkiov]
  have hdrop : s.free.drop k = iov.drop k ++ tail := by
    rw [hfree, List.drop_append_of_le_length hkiov]
  have hspare : (iov.drop k).length = ti.mtuBuffers - c'.j := by rw [List.length_drop, hiov, hj]
  rw [htake] at hfirst hchain hkept
  rw [hdrop] at hrun
  have hroom : ¬ (iov.drop k ++ tail).length < ti.mtuBuffers - c'.j := by
    rw [List.length_append, hspare]
    omega
  obtain ⟨s', hs⟩ : ∃ s', rxMessage lengths size call ti s msg = some s' ∧
      s'.free = (iov.drop k ++ tail).drop (ti.mtuBuffers - c'.j) ∧
      s'.unused = s.unused ++ (iov.drop k ++ tail).take (ti.mtuBuffers - c'.j) ∧
      s'.buffers = m' ∧
      s'.frames = validateBufferEnqueue call.room (write s.frames c'.firstBi0) c'.firstBi0
        (target call s.next) ∧ s'.next = target call s.next ∧ s'.i = s.i + 1 := by
    simp only [rxMessage, hrun, if_neg hroom, Option.some.injEq, exists_eq_left', target, and_self]
  obtain ⟨hrun', hfree', hunused, hm, hframes, hnext, hi⟩ := hs
  rw [List.drop_left' hspare] at hfree'
  rw [List.take_left' hspare] at hunused
  rw [hfirst] at hframes
  rw [← hm] at hchain hkept hdata
  rw [← hk]
  exact ⟨s', iov.take k, hrun', ⟨by rw [hk], hchain⟩, hfree', hunused, hframes, hnext, hi, hkept,
    hdata⟩

variable {c : Call}

theorem rxMessage_frames {msg : List UInt8} (hr : rxMessage lengths size c ti s msg = some s') :
    s'.next = target c s.next ∧ ∃ first, s'.frames =
      validateBufferEnqueue c.room (write s.frames first) first (target c s.next) := by
  simp only [rxMessage] at hr
  split at hr
  · cases hr
  · obtain rfl := Option.some.inj hr
    exact ⟨rfl, _, rfl⟩

/-- In the frame for the right node, each message takes a slot, until there is
none left. -/
theorem rxLoop_placed (msgs : List (List UInt8)) {s s' : RxLoop}
    (hr : rxLoop lengths size c ti msgs s = some s')
    (hnext : target c s.next = s.frames.nextIndex) :
    (placed s'.frames).length = (placed s.frames).length + min msgs.length s.frames.left := by
  induction msgs generalizing s with
  | nil =>
    obtain rfl := Option.some.inj hr
    simp
  | cons msg msgs ih =>
    rw [rxLoop] at hr
    by_cases hleft : s.frames.left = 0
    · rw [if_pos hleft] at hr
      obtain rfl := Option.some.inj hr
      rw [hleft, Nat.min_zero, Nat.add_zero]
    · rw [if_neg hleft] at hr
      obtain ⟨s₁, hm, hr⟩ := Option.bind_eq_some_iff.mp hr
      obtain ⟨hn, first, hf⟩ := rxMessage_frames hm
      have hsame : s₁.frames = write s.frames first := by rw [hf, hnext]; exact validate_same
      have hplaced : (placed s₁.frames).length = (placed s.frames).length + 1 := by
        rw [hf, placed_validate_write, List.length_append]
        rfl
      have hleft₁ : s₁.frames.left = s.frames.left - 1 := by rw [hsame]; rfl
      have hnext₁ : target c s₁.next = s₁.frames.nextIndex := by
        rw [hn, target_idem, hsame]
        exact hnext
      rw [ih hr hnext₁, hplaced, hleft₁, List.length_cons]
      omega

theorem rxLoop_start {msgs : List (List UInt8)} (hne : msgs ≠ [])
    (hr : rxLoop lengths size c ti msgs s = some s') (hnext : s.next = startIndex ti)
    (hframes : s.frames = getNextFrame c.room noFrames (startIndex ti)) :
    (placed s'.frames).length = min msgs.length (freeSlots c ti) := by
  have hempty : placed s.frames = [] := by
    rw [hframes, placed_get]
    rfl
  by_cases hsame : target c (startIndex ti) = startIndex ti
  · have hidx : target c s.next = s.frames.nextIndex := by rw [hnext, hsame, hframes]; rfl
    have hleft : s.frames.left = c.room 0 + 1 := by rw [hframes]; rfl
    rw [rxLoop_placed msgs hr hidx, hempty, hleft, freeSlots, if_pos hsame, List.length_nil,
      Nat.zero_add]
  · obtain ⟨msg, msgs, rfl⟩ := List.exists_cons_of_ne_nil hne
    have hroom : s.frames.left ≠ 0 := by
      rw [hframes]
      exact Nat.succ_ne_zero _
    rw [rxLoop, if_neg hroom] at hr
    obtain ⟨s₁, hm, hr⟩ := Option.bind_eq_some_iff.mp hr
    obtain ⟨hn, first, hf⟩ := rxMessage_frames hm
    have hidx : target c s₁.next = s₁.frames.nextIndex := by
      rw [hn, target_idem, hf, nextIndex_validate]
    have hswitch : s₁.frames = write (getNextFrame c.room
        (putNextFrame { write s.frames first with
          current := (write s.frames first).current.dropLast
          left := (write s.frames first).left + 1 }) (target c s.next)) first := by
      rw [hf, validateBufferEnqueue, if_neg]
      rw [hnext, hframes]
      exact hsame
    have hleft : s₁.frames.left = c.room 1 := by
      rw [hswitch, hframes]
      rfl
    have hone : (placed s₁.frames).length = 1 := by
      rw [hf, placed_validate_write, hempty]
      rfl
    rw [rxLoop_placed msgs hr hidx, hone, hleft, freeSlots, if_neg hsame, List.length_cons]
    omega

end Loop

end Vppsb.TurbotapRx
