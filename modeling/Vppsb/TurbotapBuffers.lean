import Vppsb.TurbotapRx

namespace Vppsb.TurbotapBuffers

open Vppsb.StepRun Vppsb.NextFrames Vppsb.VlibBuffer Vppsb.TurbotapRx
open Vppsb.Turbotap (Interface noIndex)

/-- What the loop has done with the messages that it has come to, whose chains
are `chains`. -/
structure Looped (size : Nat) (call : Call) (iovs : List (List Nat)) (msgs : List (List UInt8))
    (s s' : RxLoop) (chains : List (List Nat)) : Prop where
  taken : List.Forall₂ (fun p chain => Taken s'.buffers size p.1 p.2 chain)
    ((iovs.zip msgs).take chains.length) chains
  inside : ∀ b ∈ chains.flatten, b ∈ iovs.flatten
  perm : (s'.free ++ s'.unused ++ chains.flatten).Perm (s.free ++ s.unused)
  entries : placed s'.frames =
    placed s.frames ++ chains.map (fun chain => (target call s.next, chain.headD 0))
  count : s'.i = s.i + chains.length
  le : chains.length ≤ msgs.length
  kept : ∀ b, b ∉ chains.flatten → s'.buffers b = s.buffers b
  data : ∀ b, (s'.buffers b).data = (s.buffers b).data

theorem looped_refl (size : Nat) (call : Call) (iovs : List (List Nat)) (msgs : List (List UInt8))
    (s : RxLoop) : Looped size call iovs msgs s s [] where
  taken := .nil
  inside := fun _ hb => absurd hb List.not_mem_nil
  perm := by rw [List.flatten_nil, List.append_nil]
  entries := (List.append_nil _).symm
  count := rfl
  le := Nat.zero_le _
  kept := fun _ _ => rfl
  data := fun _ => rfl

section Loop

variable {lengths size : Nat}

theorem Looped.cons {call : Call} {iov chain : List Nat} {iovs chains : List (List Nat)}
    {msg : List UInt8} {msgs : List (List UInt8)} {s s₁ s' : RxLoop} {tail : List Nat}
    (hl : Looped size call iovs msgs s₁ s' chains) (htaken : Taken s₁.buffers size iov msg chain)
    (hfree : s.free = iov ++ (iovs.flatten ++ tail)) (hn : s.free.Nodup)
    (hfree₁ : s₁.free = iovs.flatten ++ tail)
    (hunused : s₁.unused = s.unused ++ iov.drop ((msg.length + size - 1) / size))
    (hframes : placed s₁.frames = placed s.frames ++ [(target call s.next, chain.headD 0)])
    (hnext : s₁.next = target call s.next) (hi : s₁.i = s.i + 1)
    (hkept : ∀ b, b ∉ chain → s₁.buffers b = s.buffers b)
    (hdata : ∀ b, (s₁.buffers b).data = (s.buffers b).data) :
    Looped size call (iov :: iovs) (msg :: msgs) s s' (chain :: chains) := by
  have hapart : ∀ b ∈ chain, b ∉ chains.flatten := fun b hb hc =>
    (List.nodup_append.mp (hfree ▸ hn)).2.2 b (htaken.subset b hb) b
      (List.mem_append_left tail (hl.inside b hc)) rfl
  constructor
  case taken => exact .cons (htaken.congr fun b hb => hl.kept b (hapart b hb)) hl.taken
  case inside =>
    intro b hb
    rw [List.flatten_cons, List.mem_append] at hb ⊢
    exact hb.imp (htaken.subset b) (hl.inside b)
  case perm =>
    have hcut := List.take_append_drop ((msg.length + size - 1) / size) iov
    rw [← htaken.leading] at hcut
    rw [List.perm_iff_count]
    intro b
    have hcount := hl.perm.count_eq b
    rw [hfree₁, hunused] at hcount
    rw [hfree, ← hcut]
    simp only [List.flatten_cons, List.count_append] at hcount ⊢
    omega
  case entries =>
    rw [hl.entries, hframes, hnext, target_idem, List.map_cons, List.append_assoc]
    rfl
  case count =>
    rw [hl.count, hi, List.length_cons]
    omega
  case le => exact Nat.succ_le_succ hl.le
  case kept =>
    intro b hb
    rw [List.flatten_cons, List.mem_append, not_or] at hb
    rw [hl.kept b hb.2, hkept b hb.1]
  case data =>
    intro b
    rw [hl.data, hdata]

/-- The loop serves message after message from vector after vector. -/
theorem rxLoop_spec (call : Call) (ti : Interface) (hsize : 0 < size) (hfits : size < lengths)
    (msgs : List (List UInt8)) {iovs : List (List Nat)} {tail : List Nat} {s : RxLoop}
    (hfree : s.free = iovs.flatten ++ tail) (hiovs : ∀ iov ∈ iovs, iov.length = ti.mtuBuffers)
    (hle : msgs.length ≤ iovs.length)
    (hmsgs : ∀ msg ∈ msgs, 0 < msg.length ∧ msg.length ≤ ti.mtuBuffers * size)
    (hn : s.free.Nodup) (hclear : ∀ b ∈ s.free, (s.buffers b).nextPresent = false) :
    ∃ s' chains, rxLoop lengths size call ti msgs s = some s' ∧
      Looped size call iovs msgs s s' chains := by
  induction msgs generalizing iovs s with
  | nil => exact ⟨s, [], rfl, looped_refl size call iovs [] s⟩
  | cons msg msgs ih =>
    by_cases hleft : s.frames.left = 0
    · exact ⟨s, [], if_pos hleft, looped_refl size call iovs _ s⟩
    · cases iovs with
      | nil => exact absurd hle (Nat.not_succ_le_zero _)
      | cons iov iovs =>
        rw [List.flatten_cons, List.append_assoc] at hfree
        obtain ⟨hpos, hcap⟩ := hmsgs msg List.mem_cons_self
        obtain ⟨s₁, chain, hrun, htaken, hfree₁, hunused, hframes, hnext, hi, hkept, hdata⟩ :=
          rxMessage_spec call hsize hfits hfree (hiovs iov List.mem_cons_self) hpos hcap hn hclear
        obtain ⟨_, hn₁, hapart⟩ := List.nodup_append.mp (hfree ▸ hn)
        have hclear₁ : ∀ b ∈ s₁.free, (s₁.buffers b).nextPresent = false := by
          intro b hb
          rw [hfree₁] at hb
          rw [hkept b fun hc => hapart b (htaken.subset b hc) b hb rfl]
          exact hclear b (hfree ▸ List.mem_append_right iov hb)
        obtain ⟨s', chains, hrun', hl⟩ := ih hfree₁
          (fun iov' h => hiovs iov' (List.mem_cons_of_mem iov h)) (Nat.le_of_succ_le_succ hle)
          (fun msg' h => hmsgs msg' (List.mem_cons_of_mem msg h)) (hfree₁ ▸ hn₁) hclear₁
        have hplaced := congrArg placed hframes
        rw [placed_validate_write] at hplaced
        refine ⟨s', chain :: chains, ?_, ?_⟩
        · rw [rxLoop, if_neg hleft, hrun]
          exact hrun'
        · exact hl.cons htaken hfree hn hfree₁ hunused hplaced hnext hi hkept hdata

end Loop

section Messages

variable {size : Nat} {m : Nat → Buffer}

theorem fillMsgs_length_eq (mtuBuffers n : Nat) {free : List Nat} :
    ∀ iov ∈ fillMsgs mtuBuffers n free, iov.length = mtuBuffers := by
  induction n generalizing free with
  | zero => exact fun _ h => absurd h List.not_mem_nil
  | succ n ih =>
    intro iov h
    rw [fillMsgs] at h
    by_cases hlt : mtuBuffers < free.length
    · rw [if_pos hlt] at h
      obtain rfl | h := List.mem_cons.mp h
      · rw [List.length_take, Nat.min_eq_left (Nat.le_of_lt hlt)]
      · exact ih iov h
    · rw [if_neg hlt] at h
      exact absurd h List.not_mem_nil

theorem fillMsgs_prefix (mtuBuffers n : Nat) (free : List Nat) : (fillMsgs mtuBuffers n free).flatten <+: free := by
  induction n generalizing free with
  | zero => exact List.nil_prefix
  | succ n ih =>
    rw [fillMsgs]
    split
    · obtain ⟨tail, htail⟩ := ih (free.drop mtuBuffers)
      refine ⟨tail, ?_⟩
      rw [List.flatten_cons, List.append_assoc, htail, List.take_append_drop]
    · exact List.nil_prefix

theorem fillMsgs_le (mtuBuffers n : Nat) (free : List Nat) : (fillMsgs mtuBuffers n free).length ≤ n := by
  induction n generalizing free with
  | zero => exact Nat.le_refl 0
  | succ n ih =>
    rw [fillMsgs]
    split
    · exact Nat.succ_le_succ (ih _)
    · exact Nat.zero_le _

theorem recvInto_nil (iovs : List (List Nat)) : recvInto size iovs [] m = m := by
  cases iovs <;> rfl

theorem recvInto_data (size : Nat) (iovs : List (List Nat)) (msgs : List (List UInt8))
    (m : Nat → Buffer) (b : Nat) :
    recvInto size iovs msgs m b = { m b with data := (recvInto size iovs msgs m b).data } := by
  induction iovs generalizing msgs m with
  | nil => rfl
  | cons iov iovs ih =>
    cases msgs with
    | nil => rfl
    | cons msg msgs => rw [recvInto, ih, readvInto_data]

theorem recvInto_of_notMem {iovs : List (List Nat)} {msgs : List (List UInt8)} {b : Nat}
    (hb : b ∉ iovs.flatten) : recvInto size iovs msgs m b = m b := by
  induction iovs generalizing msgs m with
  | nil => rfl
  | cons iov iovs ih =>
    cases msgs with
    | nil => rfl
    | cons msg msgs =>
      rw [List.flatten_cons, List.mem_append, not_or] at hb
      rw [recvInto, ih hb.2, readvInto_of_notMem hb.1]

theorem recvInto_held {iovs : List (List Nat)} {msgs : List (List UInt8)}
    (hn : iovs.flatten.Nodup) : ∀ p ∈ iovs.zip msgs, p.1.Nodup ∧ ∃ m₀ : Nat → Buffer, ∀ b ∈ p.1,
      (recvInto size iovs msgs m b).data = (readvInto size p.1 p.2 m₀ b).data := by
  induction iovs generalizing msgs m with
  | nil => exact fun _ h => absurd h List.not_mem_nil
  | cons iov iovs ih =>
    cases msgs with
    | nil => exact fun _ h => absurd h List.not_mem_nil
    | cons msg msgs =>
      obtain ⟨hiov, hrest, hapart⟩ := List.nodup_append.mp (List.flatten_cons ▸ hn)
      intro p hp
      obtain rfl | hp := List.mem_cons.mp hp
      · refine ⟨hiov, m, fun b hb => ?_⟩
        rw [recvInto, recvInto_of_notMem fun h => hapart b hb b h rfl]
      · exact ih hrest p hp

end Messages

structure Served (m : Nat → Buffer) (size : Nat) (iov : List Nat) (msg : List UInt8)
    (bs : List Nat) : Prop where
  leading : bs = iov.take ((msg.length + size - 1) / size)
  chain : Chain m size msg.length bs
  sum : (bs.map (fun b => (m b).currentLength)).sum = msg.length
  bytes : payload m bs = msg

theorem forall₂_of_mem {α γ : Type} {R S : α → γ → Prop} {xs : List α} {ys : List γ}
    (h : List.Forall₂ R xs ys) (himp : ∀ x ∈ xs, ∀ y, R x y → S x y) : List.Forall₂ S xs ys := by
  induction h with
  | nil => exact .nil
  | cons hr _ ih =>
    refine .cons (himp _ List.mem_cons_self _ hr) (ih fun x hx => ?_)
    exact himp x (List.mem_cons_of_mem _ hx)

theorem nextReady_bounds {rxReady i : Nat} (hpos : 1 ≤ rxReady) (hle : rxReady ≤ maxRecv)
    (hi : i ≤ rxReady) : 1 ≤ nextReady rxReady i ∧ nextReady rxReady i ≤ maxRecv := by
  rw [maxRecv] at hle
  have hsub : u32 (rxReady - i) = rxReady - i := by
    rw [u32]
    omega
  have hadd : u32 (rxReady + i) = rxReady + i := by
    rw [u32]
    omega
  rw [nextReady, hsub, hadd, maxRecv]
  split <;> split <;> omega

def offered (c : Call) (ti : Interface) (tr : RxMain) (rxReady : Nat) : List (List Nat) :=
  fillMsgs ti.mtuBuffers rxReady (tr.rxBuffers ++ allocation c ti tr rxReady).reverse

/-- What the allocator and the kernel return: buffers that are in no other place,
and no more messages than were asked for, each within its vector. -/
structure Possible (size : Nat) (c : Call) (ti : Interface) (tr : RxMain) (rxReady : Nat) : Prop where
  mtuBuffers : 1 ≤ ti.mtuBuffers
  distinct : (tr.rxBuffers ++ c.allocated).Nodup
  clear : ∀ b ∈ c.allocated, (tr.buffers b).nextPresent = false
  count : c.messages.length ≤ (offered c ti tr rxReady).length
  lengths : ∀ msg ∈ c.messages, 1 ≤ msg.length ∧ msg.length ≤ ti.mtuBuffers * size

/-- What a call is to do with the buffers: none is lost and none is there twice,
as many messages get a chain as find a slot in the frame, each in the buffers that
lead its vector, and `rx_ready` stays in its range. -/
structure Received (size : Nat) (c : Call) (ti : Interface) (tr : RxMain) (rxReady : Nat)
    (r : RxResult) (chains : List (List Nat)) : Prop where
  buffers : (r.main.rxBuffers ++ chains.flatten).Perm
    (tr.rxBuffers ++ allocation c ti tr rxReady)
  entries : enqueued r.sent = chains.map (fun bs => (target c (startIndex ti), bs.headD 0))
  served : List.Forall₂ (fun p bs => Served r.main.buffers size p.1 p.2 bs)
    (((offered c ti tr rxReady).zip c.messages).take chains.length) chains
  count : chains.length = r.count
  serves : chains.length = min c.messages.length (freeSlots c ti)
  ready : 1 ≤ r.rxReady ∧ r.rxReady ≤ maxRecv

/-- Buffers that wait in `rx_buffers` are not chained, and none is parked. -/
structure Sound (tr : RxMain) : Prop where
  clear : ∀ b ∈ tr.rxBuffers, (tr.buffers b).nextPresent = false
  unused : tr.unusedBufferList = []

section Iface

variable {lengths size rxReady : Nat} {c : Call} {ti : Interface} {tr : RxMain}

theorem allocation_sublist : (allocation c ti tr rxReady).Sublist c.allocated := by
  rw [allocation]
  split
  · exact List.take_sublist _ _
  · exact List.nil_sublist _

theorem Possible.nodup (hp : Possible size c ti tr rxReady) :
    (tr.rxBuffers ++ allocation c ti tr rxReady).Nodup :=
  hp.distinct.sublist (allocation_sublist.append_left _)

theorem Possible.clear_all (hp : Possible size c ti tr rxReady) (hs : Sound tr) :
    ∀ b ∈ tr.rxBuffers ++ allocation c ti tr rxReady, (tr.buffers b).nextPresent = false := by
  intro b hb
  obtain hb | hb := List.mem_append.mp hb
  · exact hs.clear b hb
  · exact hp.clear b (allocation_sublist.subset hb)

theorem rxIface_idle (lengths : Nat) (hready : 1 ≤ rxReady ∧ rxReady ≤ maxRecv) (hs : Sound tr)
    (hp : Possible size c ti tr rxReady) (hnil : c.messages = []) :
    ∃ r, turbotapRxIface lengths size c ti tr rxReady = some r ∧
      Received size c ti tr rxReady r [] ∧ Sound r.main := by
  refine ⟨_, if_pos hnil, ?_, ?_⟩
  · constructor
    case buffers => rw [List.flatten_nil, List.append_nil]
    case entries => rfl
    case served => exact .nil
    case count => rfl
    case serves => rw [hnil, List.length_nil, List.length_nil, Nat.zero_min]
    case ready => exact hready
  · constructor
    case clear =>
      intro b hb
      rw [hnil, recvInto_nil]
      exact hp.clear_all hs b hb
    case unused => exact hs.unused

def beginLoop (size : Nat) (c : Call) (ti : Interface) (tr : RxMain) (rxReady : Nat) : RxLoop where
  free := (tr.rxBuffers ++ allocation c ti tr rxReady).reverse
  unused := []
  buffers := recvInto size (offered c ti tr rxReady) c.messages tr.buffers
  frames := getNextFrame c.room noFrames (startIndex ti)
  next := startIndex ti
  i := 0
  counters :=
    ⟨if (tr.rxBuffers ++ allocation c ti tr rxReady).length < wanted ti rxReady then 1 else 0, 0, 0, 0⟩

theorem rxIface_of_loop (hs : Sound tr) (hne : c.messages ≠ []) {s : RxLoop}
    (hrun : rxLoop lengths size c ti c.messages (beginLoop size c ti tr rxReady) = some s) :
    turbotapRxIface lengths size c ti tr rxReady = some
      { main := ⟨s.free.reverse ++ s.unused.reverse, [], s.buffers⟩
        rxReady := nextReady rxReady s.i
        sent := (putNextFrame s.frames).sent
        counters := s.counters
        count := s.i } := by
  rw [beginLoop, offered] at hrun
  simp only [turbotapRxIface, if_neg hne, hs.unused, ite_self]
  rw [hrun]
  rfl

theorem rxIface_spec (hsize : 0 < size) (hfits : size < lengths)
    (hready : 1 ≤ rxReady ∧ rxReady ≤ maxRecv) (hs : Sound tr) (hp : Possible size c ti tr rxReady) :
    ∃ r chains, turbotapRxIface lengths size c ti tr rxReady = some r ∧
      Received size c ti tr rxReady r chains ∧ Sound r.main := by
  by_cases hnil : c.messages = []
  · obtain ⟨r, hr, hrec, hsound⟩ := rxIface_idle lengths hready hs hp hnil
    exact ⟨r, [], hr, hrec, hsound⟩
  · obtain ⟨tail, htail⟩ := fillMsgs_prefix ti.mtuBuffers rxReady
      (tr.rxBuffers ++ allocation c ti tr rxReady).reverse
    have hnrev : (tr.rxBuffers ++ allocation c ti tr rxReady).reverse.Nodup :=
      List.pairwise_reverse.mpr (hp.nodup.imp Ne.symm)
    have hclear : ∀ b ∈ tr.rxBuffers ++ allocation c ti tr rxReady,
        ((beginLoop size c ti tr rxReady).buffers b).nextPresent = false := by
      intro b hb
      have hdata := recvInto_data size (offered c ti tr rxReady) c.messages tr.buffers b
      exact (congrArg Buffer.nextPresent hdata).trans (hp.clear_all hs b hb)
    obtain ⟨s, chains, hrun, hl⟩ := rxLoop_spec c ti hsize hfits c.messages
      (s := beginLoop size c ti tr rxReady) htail.symm (fillMsgs_length_eq ti.mtuBuffers rxReady)
      hp.count hp.lengths hnrev fun b hb => hclear b (List.mem_reverse.mp hb)
    have hperm : (s.free.reverse ++ s.unused.reverse ++ chains.flatten).Perm
        (tr.rxBuffers ++ allocation c ti tr rxReady) := by
      rw [List.perm_iff_count]
      intro b
      have hcount := hl.perm.count_eq b
      simp only [beginLoop, List.append_nil, List.count_append, List.count_reverse] at hcount ⊢
      exact hcount
    have hi : s.i = chains.length := hl.count.trans (Nat.zero_add _)
    refine ⟨_, chains, rxIface_of_loop hs hnil hrun, ?_, ?_⟩
    · constructor
      case buffers => exact hperm
      case entries =>
        rw [enqueued_putNextFrame, hl.entries, beginLoop, placed_get]
        exact List.nil_append _
      case served =>
        refine forall₂_of_mem hl.taken fun p hpm bs htaken => ?_
        have hniovs : (offered c ti tr rxReady).flatten.Nodup :=
          (List.nodup_append.mp (htail.symm ▸ hnrev)).1
        obtain ⟨hniov, m₀, hdata⟩ := recvInto_held hniovs p (List.mem_of_mem_take hpm)
        refine ⟨htaken.leading, htaken.chain, htaken.chain.sum, ?_⟩
        refine payload_readvInto (m := m₀) hniov htaken.chain ?_ fun b hb => ?_
        · rw [htaken.leading]
          exact List.take_prefix _ _
        · rw [hl.data, ← hdata b hb, beginLoop]
      case count => exact hi.symm
      case serves =>
        have hplaced := rxLoop_start hnil hrun rfl rfl
        rw [hl.entries, beginLoop, placed_get, List.length_append, List.length_map] at hplaced
        exact (Nat.zero_add _).symm.trans hplaced
      case ready =>
        refine nextReady_bounds hready.1 hready.2 ?_
        have hle := fillMsgs_le ti.mtuBuffers rxReady (tr.rxBuffers ++ allocation c ti tr rxReady).reverse
        rw [hi]
        exact (hl.le.trans hp.count).trans hle
    · constructor
      case clear =>
        intro b hb
        have hnp := hperm.nodup_iff.mpr hp.nodup
        have hout : b ∉ chains.flatten := fun h => (List.nodup_append.mp hnp).2.2 b hb b h rfl
        exact (congrArg Buffer.nextPresent (hl.kept b hout)).trans
          (hclear b (hperm.subset (List.mem_append_left _ hb)))
      case unused => rfl

end Iface

structure RxState where
  main : RxMain
  rxReady : Nat → Nat

/-- A call for interface number `iface`. `elsewhere` are the buffers that are not
in `rx_buffers`, as other nodes have left them. -/
structure Event where
  iface : Nat
  ti : Interface
  call : Call
  elsewhere : Nat → Buffer

def found (s : RxState) (e : Event) : RxMain :=
  { s.main with buffers := fun b => if b ∈ s.main.rxBuffers then s.main.buffers b else e.elsewhere b }

def step (lengths size : Nat) (s : RxState) (e : Event) : Option RxState :=
  (turbotapRxIface lengths size e.call e.ti (found s e) (s.rxReady e.iface)).map
    (fun r => ⟨r.main, Function.update s.rxReady e.iface r.rxReady⟩)

def start (rxReady : Nat → Nat) : RxState :=
  ⟨⟨[], [], fun _ => ⟨fun _ => 0, 0, 0, false, false, 0, 0, 0, 0⟩⟩, rxReady⟩

def StepPossible (size : Nat) (s : RxState) (e : Event) : Prop :=
  Possible size e.call e.ti (found s e) (s.rxReady e.iface)

def StepReceived (lengths size : Nat) (s : RxState) (e : Event) : Prop :=
  ∃ r chains, turbotapRxIface lengths size e.call e.ti (found s e) (s.rxReady e.iface) = some r ∧
    Received size e.call e.ti (found s e) (s.rxReady e.iface) r chains

structure Waiting (s : RxState) : Prop where
  sound : Sound s.main
  ready : ∀ k, 1 ≤ s.rxReady k ∧ s.rxReady k ≤ maxRecv

theorem Waiting.found {s : RxState} (h : Waiting s) (e : Event) : Sound (found s e) where
  clear := by
    intro b hb
    have hb' : b ∈ s.main.rxBuffers := hb
    rw [TurbotapBuffers.found]
    simp only [if_pos hb']
    exact h.sound.clear b hb'
  unused := h.sound.unused

theorem step_waiting {lengths size : Nat} (hsize : 0 < size) (hfits : size < lengths) {s t : RxState}
    {e : Event} (h : Waiting s) (hp : StepPossible size s e) (ht : step lengths size s e = some t) :
    Waiting t := by
  obtain ⟨r, chains, hr, hrec, hsound⟩ :=
    rxIface_spec hsize hfits (h.ready e.iface) (h.found e) hp
  rw [step, hr] at ht
  obtain rfl := Option.some.inj ht
  refine ⟨hsound, fun k => ?_⟩
  by_cases hk : k = e.iface
  · rw [hk]
    simp only [Function.update_self]
    exact hrec.ready
  · simp only [Function.update_of_ne hk]
    exact h.ready k

/-- In every run of calls, for any interfaces, no call loses a buffer or has one
twice, each message that finds a slot gets a chain of the buffers that lead its
vector, and `rx_ready` stays in its range. -/
theorem run_received (lengths size : Nat) (hsize : 0 < size) (hfits : size < lengths)
    (rxReady : Nat → Nat) (hready : ∀ k, 1 ≤ rxReady k ∧ rxReady k ≤ maxRecv) (events : List Event)
    (hp : Meets (step lengths size) (StepPossible size) (start rxReady) events) :
    Meets (step lengths size) (StepReceived lengths size) (start rxReady) events := by
  have hcalls : ∀ s e, Waiting s → StepPossible size s e →
      (StepReceived lengths size s e ↔ StepPossible size s e) := by
    intro s e h hpe
    obtain ⟨r, chains, hr, hrec, _⟩ := rxIface_spec hsize hfits (h.ready e.iface) (h.found e) hpe
    exact iff_of_true ⟨r, chains, hr, hrec⟩ hpe
  have hstart : Waiting (start rxReady) :=
    ⟨⟨fun _ h => absurd h List.not_mem_nil, rfl⟩, hready⟩
  refine (meets_congr (fun s e t h hpe _ ht => ?_) hcalls hstart hp).mpr hp
  exact step_waiting hsize hfits h hpe ht

def oneMessage : Event where
  iface := 0
  ti := { Turbotap.Interface.zero with mtuBuffers := 1, perInterfaceNextIndex := noIndex }
  call := ⟨[1, 2, 3, 4], false, fun _ => 255, [[7, 8, 9]], false⟩
  elsewhere := fun _ => ⟨fun _ => 0, 0, 0, false, false, 0, 0, 0, 0⟩

theorem oneMessage_possible : StepPossible 2048 (start fun _ => 2) oneMessage := by
  constructor
  case mtuBuffers => exact Nat.le_refl 1
  case distinct => decide
  case clear => exact fun _ _ => rfl
  case count => decide
  case lengths => decide

theorem run_received_sample :
    Meets (step 0x10000 2048) (StepReceived 0x10000 2048) (start fun _ => 2) [oneMessage] := by
  exact run_received 0x10000 2048 (by decide) (by decide) _ (fun _ => by decide) _
    ⟨oneMessage_possible, fun _ _ => trivial⟩

end Vppsb.TurbotapBuffers
