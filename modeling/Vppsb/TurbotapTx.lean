import Mathlib.Algebra.GroupWithZero.Nat
import Vppsb.TurbotapSlots
import Vppsb.VlibBuffer

namespace Vppsb.TurbotapTx

open Vppsb.StepRun Vppsb.Turbotap Vppsb.TurbotapSlots Vppsb.VlibBuffer

def maxSend : Nat := 256

/-- `struct mmsghdr` with the bytes that its vector points to. What is the same in
every message is left out. -/
structure Message where
  msgIov : List (List UInt8)
  msgLen : Nat

/-- The counters `TX` and `TX_ERROR` by `sw_if_index`. -/
structure Counters where
  txPackets : Nat → Nat
  txBytes : Nat → Nat
  txError : Nat → Nat

def Counters.incrementTx (c : Counters) (swIfIndex packets bytes : Nat) : Counters :=
  { c with
    txPackets := Function.update c.txPackets swIfIndex (c.txPackets swIfIndex + packets)
    txBytes := Function.update c.txBytes swIfIndex (c.txBytes swIfIndex + bytes) }

def Counters.incrementTxError (c : Counters) (swIfIndex packets : Nat) : Counters :=
  { c with txError := Function.update c.txError swIfIndex (c.txError swIfIndex + packets) }

/-- What `vnet` and the kernel answer. `sendmmsg` is the number of messages sent,
and below `1` if there are none. -/
structure Host where
  supSwIfIndex : Nat → Nat
  isAdminUp : Nat → Bool
  sendmmsg : Int

/-- What a call leaves. `freed` are the buffers given to `vlib_buffer_free`, which
frees the chain of each. -/
structure TxResult where
  messages : List Message
  freed : List Nat
  counters : Counters
  warning : Option String
  count : Nat

/-- A `current_length` is not below `0`. -/
def segmentLength (b : Buffer) : Nat := b.currentLength.toNat

def addSegment (msg : Message) (b : Buffer) : Message :=
  ⟨msg.msgIov ++ [currentBytes b], u32 (msg.msgLen + segmentLength b)⟩

/-- The loop over the other buffers of a chain, undefined if it takes more passes. -/
def nextLoop (m : Nat → Buffer) : Nat → Buffer → Message → Option Message
  | 0, b, msg => if b.nextPresent then none else some msg
  | passes + 1, b, msg =>
    if b.nextPresent then nextLoop m passes (m b.nextBuffer) (addSegment msg (m b.nextBuffer))
    else some msg

def txMessage (m : Nat → Buffer) (passes b : Nat) : Option Message :=
  nextLoop m passes (m b) ⟨[currentBytes (m b)], u32 (segmentLength (m b))⟩

/-- The loop over the packets, with `total_bytes`. -/
def txLoop (m : Nat → Buffer) (passes : Nat) :
    List Nat → List Message → Nat → Option (List Message × Nat)
  | [], txMsg, totalBytes => some (txMsg, totalBytes)
  | b :: rest, txMsg, totalBytes => do
    let msg ← txMessage m passes b
    txLoop m passes rest (txMsg ++ [msg]) (u32 (totalBytes + msg.msgLen))

/-- The counters after `sendmmsg`, which is only called with a message. -/
def countTx (h : Host) (swIfIndex nTx totalBytes : Nat) (c : Counters) : Counters :=
  if nTx = 0 then c
  else if h.sendmmsg < 1 then c.incrementTxError swIfIndex nTx
  else c.incrementTx swIfIndex h.sendmmsg.toNat totalBytes

def turbotapTxIface (h : Host) (m : Nat → Buffer) (passes : Nat) (ti : Interface)
    (buffers : List Nat) (c : Counters) : Option TxResult :=
  if h.isAdminUp ti.swIfIndex = false then
    some ⟨[], buffers, c, none, 0⟩
  else do
    let nTx := if maxSend < buffers.length then maxSend else buffers.length
    let r ← txLoop m passes (buffers.take nTx) [] 0
    some ⟨r.1, buffers, countTx h ti.swIfIndex nTx r.2 c, none, buffers.length⟩

/-- The index that the interface is looked up with, that of a hardware interface.
The source asserts that the buffer has one. -/
def txSwIfIndex (h : Host) (b : Buffer) : Nat :=
  h.supSwIfIndex (if b.swIfIndexTx = noIndex then b.swIfIndexRx else b.swIfIndexTx)

def unknownText (swIfIndex : Nat) : String :=
  "sw_if_index " ++ toString (BitVec.ofNat 32 swIfIndex).toInt ++ " unknown"

def turbotapTx (s : State) (h : Host) (m : Nat → Buffer) (passes : Nat) (buffers : List Nat)
    (c : Counters) : Option TxResult :=
  match buffers with
  | [] => some ⟨[], [], c, none, 0⟩
  | b :: _ =>
    match s.turbotapInterfaceIndexBySwIfIndex (txSwIfIndex h (m b)) with
    | none => some ⟨[], [], c, some (unknownText (txSwIfIndex h (m b))), 0⟩
    | some i => do
      let ti ← s.turbotapInterfaces[i]?
      turbotapTxIface h m passes ti buffers c

inductive ChainOf (m : Nat → Buffer) : Nat → List Nat → Prop
  | last (b : Nat) (ends : (m b).nextPresent = false) : ChainOf m b [b]
  | more (b : Nat) (bs : List Nat) (present : (m b).nextPresent = true)
      (rest : ChainOf m (m b).nextBuffer bs) : ChainOf m b (b :: bs)

def chainLength (m : Nat → Buffer) (bs : List Nat) : Nat :=
  (bs.map (fun b => segmentLength (m b))).sum

def chainMessage (m : Nat → Buffer) (bs : List Nat) : Message :=
  ⟨bs.map (fun b => currentBytes (m b)), u32 (chainLength m bs)⟩

/-- The index of the interface of the frame is in the table. -/
def Known (s : State) (h : Host) (m : Nat → Buffer) (buffers : List Nat) : Prop :=
  ∀ b ∈ buffers.head?, s.turbotapInterfaceIndexBySwIfIndex (txSwIfIndex h (m b)) ≠ none

/-- The call returns, with each chain of the frame freed once. -/
def FreesFrame (s : State) (h : Host) (m : Nat → Buffer) (buffers : List Nat) (c : Counters) :
    Prop :=
  ∃ r, (∃ enough, ∀ passes, enough ≤ passes → turbotapTx s h m passes buffers c = some r) ∧
    r.freed.Perm buffers

/-- The counters of the interface go up by the packets that were sent, their
lengths, and the packets that were not. -/
structure Balances (swIfIndex : Nat) (lengths : List Nat) (sent : Nat) (c d : Counters) : Prop where
  packets : d.txPackets swIfIndex = c.txPackets swIfIndex + sent
  bytes : d.txBytes swIfIndex = c.txBytes swIfIndex + (lengths.take sent).sum
  error : d.txError swIfIndex = c.txError swIfIndex + (lengths.length - sent)
  others : ∀ i, i ≠ swIfIndex → d.txPackets i = c.txPackets i ∧ d.txBytes i = c.txBytes i ∧
    d.txError i = c.txError i

def CountsFrame (h : Host) (m : Nat → Buffer) (ti : Interface) (buffers : List Nat)
    (chains : List (List Nat)) (c : Counters) : Prop :=
  ∃ r, (∃ enough, ∀ passes, enough ≤ passes →
      turbotapTxIface h m passes ti buffers c = some r) ∧
    Balances ti.swIfIndex (chains.map (chainLength m)) h.sendmmsg.toNat c r.counters

variable {m : Nat → Buffer} {passes : Nat} {buffers : List Nat} {chains : List (List Nat)}
  {h : Host} {ti : Interface} {s : State} {c : Counters}

theorem u32_add (a b : Nat) : u32 (u32 a + b) = u32 ((a + b : Nat) : Int) := by
  simp only [u32]
  omega

section Messages

theorem chainLength_append (bs cs : List Nat) :
    chainLength m (bs ++ cs) = chainLength m bs + chainLength m cs := by
  rw [chainLength, List.map_append, List.sum_append]
  rfl

theorem addSegment_chainMessage (bs : List Nat) (b : Nat) :
    addSegment (chainMessage m bs) (m b) = chainMessage m (bs ++ [b]) := by
  have hlen : chainLength m [b] = segmentLength (m b) := Nat.add_zero _
  rw [addSegment, chainMessage, chainMessage, u32_add, chainLength_append, hlen, List.map_append]
  rfl

theorem nextLoop_spec {b : Nat} {bs : List Nat} (hb : ChainOf m b bs) (seen : List Nat)
    (hp : bs.length ≤ passes) :
    nextLoop m passes (m b) (chainMessage m (seen ++ [b])) =
      some (chainMessage m (seen ++ bs)) := by
  induction hb generalizing seen passes with
  | last b ends => cases passes <;> rw [nextLoop, if_neg (by simp [ends])]
  | more b bs present rest ih =>
    cases passes with
    | zero => simp at hp
    | succ passes =>
      rw [nextLoop, if_pos present, addSegment_chainMessage, ih _ (Nat.le_of_succ_le_succ hp),
        List.append_assoc]
      rfl

theorem txMessage_spec {b : Nat} {bs : List Nat} (hb : ChainOf m b bs) (hp : bs.length ≤ passes) :
    txMessage m passes b = some (chainMessage m bs) :=
  nextLoop_spec hb [] hp

/-- The packets become the messages, and their lengths are summed up in 32 bits. -/
theorem txLoop_spec (hchains : List.Forall₂ (ChainOf m) buffers chains)
    (hp : ∀ bs ∈ chains, bs.length ≤ passes) (txMsg : List Message) (total : Nat) :
    txLoop m passes buffers txMsg (u32 total) = some (txMsg ++ chains.map (chainMessage m),
      u32 ((total + (chains.map (chainLength m)).sum : Nat) : Int)) := by
  induction hchains generalizing txMsg total with
  | nil => simp [txLoop]
  | @cons b bs buffers chains hb _ ih =>
    have hadd : u32 (u32 total + u32 (chainLength m bs)) =
        u32 ((total + chainLength m bs : Nat) : Int) := by
      simp only [u32]
      omega
    rw [txLoop, txMessage_spec hb (hp bs List.mem_cons_self), Option.bind_eq_bind,
      Option.bind_some, chainMessage, hadd, ih fun cs hcs => hp cs (List.mem_cons_of_mem _ hcs),
      List.map_cons, List.map_cons, List.sum_cons, List.append_assoc, Nat.add_assoc]
    rfl

theorem exists_chains (hends : ∀ b ∈ buffers, ∃ bs, ChainOf m b bs) :
    ∃ chains, List.Forall₂ (ChainOf m) buffers chains := by
  induction buffers with
  | nil => exact ⟨[], .nil⟩
  | cons b buffers ih =>
    obtain ⟨bs, hb⟩ := hends b List.mem_cons_self
    obtain ⟨chains, hchains⟩ := ih fun b hb => hends b (List.mem_cons_of_mem _ hb)
    exact ⟨bs :: chains, .cons hb hchains⟩

end Messages

section Frees

theorem length_le_flatten {bs : List Nat} (hbs : bs ∈ chains) : bs.length ≤ chains.flatten.length :=
  (List.sublist_flatten_of_mem hbs).length_le

def sentResult (h : Host) (m : Nat → Buffer) (ti : Interface) (buffers : List Nat)
    (chains : List (List Nat)) (c : Counters) : TxResult :=
  { messages := chains.map (chainMessage m)
    freed := buffers
    counters := countTx h ti.swIfIndex chains.length (u32 ((chains.map (chainLength m)).sum : Nat)) c
    warning := none
    count := buffers.length }

theorem turbotapTxIface_up (hup : h.isAdminUp ti.swIfIndex = true)
    (hchains : List.Forall₂ (ChainOf m) buffers chains) (hp : chains.flatten.length ≤ passes) :
    turbotapTxIface h m passes ti buffers c =
      some (sentResult h m ti buffers (chains.take maxSend) c) := by
  have hnTx : (if maxSend < buffers.length then maxSend else buffers.length) =
      (chains.take maxSend).length := by
    rw [List.length_take, hchains.length_eq]
    split <;> omega
  have htake : buffers.take (chains.take maxSend).length = buffers.take maxSend := by
    rw [List.length_take, ← hchains.length_eq, ← List.take_take, List.take_length]
  have hfit : ∀ bs ∈ chains.take maxSend, bs.length ≤ passes :=
    fun bs hbs => (length_le_flatten (List.mem_of_mem_take hbs)).trans hp
  have hloop := txLoop_spec (List.forall₂_take maxSend hchains) hfit [] 0
  have hzero : u32 ((0 : Nat) : Int) = 0 := rfl
  rw [hzero, Nat.zero_add, List.nil_append] at hloop
  rw [turbotapTxIface, if_neg (by simp [hup])]
  simp only [hnTx, htake, hloop, Option.bind_eq_bind, Option.bind_some]
  rfl

/-- With a known interface all is freed, whether it is up and whatever is sent. -/
theorem turbotapTxIface_frees (h : Host) (ti : Interface) (c : Counters)
    (hchains : List.Forall₂ (ChainOf m) buffers chains) :
    ∃ r, (∀ passes, chains.flatten.length ≤ passes →
      turbotapTxIface h m passes ti buffers c = some r) ∧ r.freed = buffers := by
  cases hup : h.isAdminUp ti.swIfIndex with
  | false => exact ⟨⟨[], buffers, c, none, 0⟩, fun passes _ => if_pos hup, rfl⟩
  | true =>
    exact ⟨sentResult h m ti buffers (chains.take maxSend) c,
      fun passes hp => turbotapTxIface_up hup hchains hp, rfl⟩

theorem run_found {isDisabled : Bool} {mtuBytes bufferSize : Nat} {devices : String → BitVec 16}
    {events : List Event}
    (hp : Meets step Possible (start isDisabled mtuBytes bufferSize devices) events)
    (hr : run step (start isDisabled mtuBytes bufferSize devices) events = some s) {sw i : Nat}
    (hi : s.turbotapInterfaceIndexBySwIfIndex sw = some i) :
    ∃ ti, s.turbotapInterfaces[i]? = some ti := by
  have hs : Sound s :=
    invariant_of_meets (fun s e t hs hp ht => (stepped hs hp ht).sound hs hp) start_sound hp hr
  obtain ⟨ti, hti, _⟩ := hs.bySw sw i hi
  exact ⟨ti, hti.1⟩

/-- The branch that warns drops the frame without freeing it. -/
theorem unknown_not_freed {b : Nat} {rest : List Nat}
    (hi : s.turbotapInterfaceIndexBySwIfIndex (txSwIfIndex h (m b)) = none) :
    ¬ FreesFrame s h m (b :: rest) c := by
  rintro ⟨r, ⟨enough, hr⟩, hfreed⟩
  have hleft := hr enough (Nat.le_refl _)
  simp only [turbotapTx, hi, Option.some.injEq] at hleft
  rw [← hleft] at hfreed
  exact List.cons_ne_nil _ _ hfreed.nil_eq.symm

/-- In every state of the tables a call frees the chains of its frame, each once,
if and only if the frame is empty or its interface is known. The frame of an
unknown interface is not freed at all. -/
theorem turbotapTx_frees_iff (isDisabled : Bool) (mtuBytes bufferSize : Nat)
    (devices : String → BitVec 16) (events : List Event)
    (hp : Meets step Possible (start isDisabled mtuBytes bufferSize devices) events)
    (hr : run step (start isDisabled mtuBytes bufferSize devices) events = some s)
    (h : Host) (m : Nat → Buffer) (buffers : List Nat) (c : Counters)
    (hends : ∀ b ∈ buffers, ∃ bs, ChainOf m b bs) :
    FreesFrame s h m buffers c ↔ Known s h m buffers := by
  cases buffers with
  | nil => exact iff_of_true ⟨_, ⟨0, fun _ _ => rfl⟩, .refl _⟩ nofun
  | cons b rest =>
    have hknown : Known s h m (b :: rest) ↔
        s.turbotapInterfaceIndexBySwIfIndex (txSwIfIndex h (m b)) ≠ none := by simp [Known]
    rw [hknown]
    cases hi : s.turbotapInterfaceIndexBySwIfIndex (txSwIfIndex h (m b)) with
    | none => exact iff_of_false (unknown_not_freed hi) (fun hne => hne rfl)
    | some i =>
      obtain ⟨ti, hti⟩ := run_found hp hr hi
      obtain ⟨chains, hchains⟩ := exists_chains hends
      obtain ⟨r, hr, hfreed⟩ := turbotapTxIface_frees h ti c hchains
      refine iff_of_true ⟨r, ⟨chains.flatten.length, fun passes hp => ?_⟩, hfreed ▸ .refl _⟩ nofun
      simp only [turbotapTx, hi, hti, Option.bind_eq_bind, Option.bind_some]
      exact hr passes hp

private def txStart : State := start false 1500 2048 fun _ => 0

private def connectOne : List Event := [.connect (allDone 3 "tap0" 7 9)]

private def txBuffers : Nat → Buffer := fun _ => ⟨fun _ => 0, 0, 60, false, false, 0, 0, 5, 9⟩

private def txCounters : Counters := ⟨fun _ => 0, fun _ => 0, fun _ => 0⟩

/-- Two packets of which the kernel takes one. -/
theorem turbotapTx_frees_sample : ∃ s, run step txStart connectOne = some s ∧
    FreesFrame s ⟨id, fun _ => true, 1⟩ txBuffers [0, 1] txCounters := by
  refine ⟨_, rfl, (turbotapTx_frees_iff false 1500 2048 (fun _ => 0) connectOne ?_ rfl _ _ _ _
    fun b _ => ⟨[b], .last b rfl⟩).mpr ?_⟩
  · exact ⟨⟨by decide, fun hw sw _ i ti h => nomatch h⟩, fun _ _ => trivial⟩
  · intro b hb
    obtain rfl := Option.some.inj hb
    decide

/-- The packet is on its way while its interface is deleted. -/
theorem deleted_frame_not_freed :
    Meets step Possible txStart (connectOne ++ [.delete 9]) ∧
    ChainOf txBuffers 0 [0] ∧
    ∃ s, run step txStart (connectOne ++ [.delete 9]) = some s ∧
      ¬ FreesFrame s ⟨id, fun _ => true, 1⟩ txBuffers [0] txCounters := by
  refine ⟨⟨⟨by decide, fun hw sw _ i ti h => nomatch h⟩, fun _ _ => ⟨trivial, fun _ _ => trivial⟩⟩,
    .last 0 rfl, _, rfl, unknown_not_freed (by decide)⟩

end Frees

section Counts

theorem u32_eq_iff (n : Nat) : u32 n = n ↔ n < 0x100000000 := by
  simp only [u32]
  omega

theorem incrementTx_bytes (swIfIndex packets bytes : Nat) :
    (c.incrementTx swIfIndex packets bytes).txBytes swIfIndex = c.txBytes swIfIndex + bytes :=
  Function.update_self _ _ _

theorem countTx_unsent (hfail : h.sendmmsg < 1) (swIfIndex totalBytes : Nat) (lengths : List Nat) :
    Balances swIfIndex lengths h.sendmmsg.toNat c
      (countTx h swIfIndex lengths.length totalBytes c) := by
  have hnone : h.sendmmsg.toNat = 0 := by omega
  rw [hnone]
  by_cases hnTx : lengths.length = 0
  · rw [countTx, if_pos hnTx]
    exact ⟨rfl, rfl, by rw [hnTx]; rfl, fun i _ => ⟨rfl, rfl, rfl⟩⟩
  · rw [countTx, if_neg hnTx, if_pos hfail]
    exact ⟨rfl, rfl, Function.update_self _ _ _,
      fun i hi => ⟨rfl, rfl, Function.update_of_ne hi _ _⟩⟩

theorem incrementTx_balances_iff (swIfIndex : Nat) {lengths : List Nat} {sent : Nat}
    (hsent : sent ≤ lengths.length) :
    Balances swIfIndex lengths sent c (c.incrementTx swIfIndex sent (u32 lengths.sum)) ↔
      sent = lengths.length ∧ lengths.sum < 0x100000000 := by
  constructor
  · intro hb
    have herror : lengths.length - sent = 0 := Nat.left_eq_add.mp hb.error
    have hall : sent = lengths.length := by omega
    have hbytes := hb.bytes
    rw [incrementTx_bytes, Nat.add_left_cancel_iff, hall, List.take_length] at hbytes
    exact ⟨hall, (u32_eq_iff _).mp hbytes⟩
  · rintro ⟨hall, hsum⟩
    refine ⟨Function.update_self _ _ _, ?_, ?_, fun i hi =>
      ⟨Function.update_of_ne hi _ _, Function.update_of_ne hi _ _, rfl⟩⟩
    · rw [incrementTx_bytes, (u32_eq_iff _).mpr hsum, hall, List.take_length]
    · rw [hall, Nat.sub_self]
      rfl

theorem countTx_balances_iff (h : Host) (swIfIndex : Nat) (lengths : List Nat) (c : Counters)
    (hsent : h.sendmmsg ≤ lengths.length) :
    Balances swIfIndex lengths h.sendmmsg.toNat c
        (countTx h swIfIndex lengths.length (u32 lengths.sum) c) ↔
      h.sendmmsg < 1 ∨ (h.sendmmsg = lengths.length ∧ lengths.sum < 0x100000000) := by
  by_cases hfail : h.sendmmsg < 1
  · exact iff_of_true (countTx_unsent hfail _ _ _) (.inl hfail)
  · have hnTx : lengths.length ≠ 0 := by omega
    have hall : h.sendmmsg = lengths.length ↔ h.sendmmsg.toNat = lengths.length := by omega
    rw [countTx, if_neg hnTx, if_neg hfail, or_iff_right hfail, hall]
    exact incrementTx_balances_iff swIfIndex (by omega)

/-- In a frame that is not too long all lengths are counted before it is known what
is sent. -/
theorem countsFrame_iff (hchains : List.Forall₂ (ChainOf m) buffers chains)
    (hmax : buffers.length ≤ maxSend) (hup : h.isAdminUp ti.swIfIndex = true) :
    CountsFrame h m ti buffers chains c ↔
      Balances ti.swIfIndex (chains.map (chainLength m)) h.sendmmsg.toNat c
        (countTx h ti.swIfIndex buffers.length
          (u32 ((chains.map (chainLength m)).sum : Nat)) c) := by
  have htake : chains.take maxSend = chains :=
    List.take_of_length_le (hchains.length_eq ▸ hmax)
  constructor
  · rintro ⟨r, ⟨enough, hr⟩, hb⟩
    have hleft := hr (max enough chains.flatten.length) (Nat.le_max_left _ _)
    rw [turbotapTxIface_up hup hchains (Nat.le_max_right _ _), htake, Option.some.injEq] at hleft
    rw [← hleft, sentResult, ← hchains.length_eq] at hb
    exact hb
  · intro hb
    refine ⟨sentResult h m ti buffers chains c, ⟨chains.flatten.length, fun passes hp => ?_⟩, ?_⟩
    · rw [turbotapTxIface_up hup hchains hp, htake]
    · rw [sentResult, ← hchains.length_eq]
      exact hb

/-- The counters balance if and only if nothing is sent, or all is and its
length fits in 32 bits. What is left of a frame that is sent in part counts as
sent in bytes, and as no error. -/
theorem turbotapTxIface_counts_iff (h : Host) (m : Nat → Buffer) (ti : Interface)
    (buffers : List Nat) (chains : List (List Nat)) (c : Counters)
    (hchains : List.Forall₂ (ChainOf m) buffers chains) (hmax : buffers.length ≤ maxSend)
    (hup : h.isAdminUp ti.swIfIndex = true) (hsent : h.sendmmsg ≤ buffers.length) :
    CountsFrame h m ti buffers chains c ↔
      h.sendmmsg < 1 ∨
        (h.sendmmsg = buffers.length ∧ (chains.map (chainLength m)).sum < 0x100000000) := by
  have hlen : (chains.map (chainLength m)).length = buffers.length := by
    rw [List.length_map, hchains.length_eq]
  have hcount := countTx_balances_iff h ti.swIfIndex (chains.map (chainLength m)) c (hlen ▸ hsent)
  rw [hlen] at hcount
  exact (countsFrame_iff hchains hmax hup).trans hcount

private def txInterface : Interface := { Interface.zero with swIfIndex := 9, active := true }

/-- Both packets are sent. -/
theorem turbotapTxIface_counts_sample :
    CountsFrame ⟨id, fun _ => true, 2⟩ txBuffers txInterface [0, 1] [[0], [1]] txCounters :=
  (turbotapTxIface_counts_iff _ txBuffers txInterface [0, 1] [[0], [1]] txCounters
    (.cons (.last 0 rfl) (.cons (.last 1 rfl) .nil)) (by decide) rfl (by decide)).mpr
    (.inr ⟨rfl, by decide⟩)

/-- Of the two packets the kernel takes one, and no error is counted. -/
theorem partial_send_not_counted :
    List.Forall₂ (ChainOf txBuffers) [0, 1] [[0], [1]] ∧
      ¬ CountsFrame ⟨id, fun _ => true, 1⟩ txBuffers txInterface [0, 1] [[0], [1]] txCounters := by
  have hchains : List.Forall₂ (ChainOf txBuffers) [0, 1] [[0], [1]] :=
    .cons (.last 0 rfl) (.cons (.last 1 rfl) .nil)
  refine ⟨hchains, fun hcounts => ?_⟩
  have hb := (countsFrame_iff hchains (by decide) rfl).mp hcounts
  exact absurd hb.error (by decide)

end Counts

end Vppsb.TurbotapTx
