import Vppsb.RtnlStream

namespace Vppsb.RtnlCalm

open Vppsb.NetnsTables Vppsb.RtnlStream

def nextSync : SyncState → SyncState
  | .link => .addr
  | .addr => .route4
  | .route4 => .route6
  | .route6 => .neigh
  | .neigh | .opening => .opening

/-- The messages carry a synchronisation on that waits for the end of the dump
`k`, with the sequence number `seq`. After the last dump nothing can disturb it
any more. -/
def Calm : SyncState → UInt32 → List Arrival → Prop
  | _, _, [] => True
  | k, seq, a :: rest =>
    isNotify a.msg = false ∧ a.msg.nlmsgSeq = seq ∧
      if a.msg.nlmsgType = nlmsgDone then
        k = .neigh ∨ (a.ok = true ∧ Calm (nextSync k) (seq + 1) rest)
      else Calm k seq rest

instance decidableCalm : (k : SyncState) → (seq : UInt32) → (msgs : List Arrival) →
    Decidable (Calm k seq msgs)
  | _, _, [] => inferInstanceAs (Decidable True)
  | k, seq, a :: rest =>
    have := decidableCalm (nextSync k) (seq + 1) rest
    have := decidableCalm k seq rest
    inferInstanceAs (Decidable (isNotify a.msg = false ∧ a.msg.nlmsgSeq = seq ∧
      if a.msg.nlmsgType = nlmsgDone then
        k = .neigh ∨ (a.ok = true ∧ Calm (nextSync k) (seq + 1) rest)
      else Calm k seq rest))

/-- The messages do not restart the synchronisation. A ready stream has nothing
to restart; its `sync_state` is zero. -/
def Undisturbed (ns : RtnlNs) (msgs : List Arrival) : Prop :=
  (ns.state = .ready ∧ ns.syncState = .opening) ∨
    (ns.state = .sync ∧ ns.syncState ≠ .opening ∧ Calm ns.syncState ns.rtnlSeq msgs)

instance (ns : RtnlNs) (msgs : List Arrival) : Decidable (Undisturbed ns msgs) :=
  inferInstanceAs (Decidable (_ ∨ _))

def IsOpen (ns : RtnlNs) : Prop := ns.state = .ready ∨ (ns.state = .sync ∧ ns.syncState ≠ .opening)

instance (ns : RtnlNs) : Decidable (IsOpen ns) := inferInstanceAs (Decidable (_ ∨ _))

/-- The operations that leave the socket and the synchronisation in place. -/
def Plain : Op → Prop
  | .send _ _ _ _ | .message _ _ | .deliver _ | .ready => True
  | _ => False

/-- From `s` the stream came to `t` by such operations, and the messages that
are left do not disturb it either. -/
def Onward (s : Sys) (rest : List Arrival) (t : Sys) : Prop :=
  Undisturbed t.ns rest ∧ ∃ ops, t.log = ops ++ s.log ∧ ∀ op ∈ ops, Plain op

variable {s : Sys} {a : Arrival} {rest : List Arrival}

theorem Undisturbed.isOpen {ns : RtnlNs} {msgs : List Arrival} (h : Undisturbed ns msgs) :
    IsOpen ns :=
  h.imp And.left fun h => ⟨h.1, h.2.1⟩

theorem IsOpen.not_init {ns : RtnlNs} (h : IsOpen ns) : ns.state ≠ .init := by
  intro hi
  cases h with
  | inl hr => exact absurd (hr.symm.trans hi) (by decide)
  | inr hs => exact absurd (hs.1.symm.trans hi) (by decide)

theorem IsOpen.syncState {ns : RtnlNs} (h : IsOpen ns) (hs : ns.state = .sync) :
    ns.syncState ≠ .opening := by
  cases h with
  | inl hr => exact absurd (hs.symm.trans hr) (by decide)
  | inr h => exact h.2

theorem syncNext_ok (s : Sys) (req : Request) (next : SyncState) :
    rtnlSyncNext s req next true =
      setSyncState (rtnlScheduleTimeout (rtnlDumpRequest s req true).1 (s.now + 1)) next := rfl

theorem undisturbed_not (h : Undisturbed s.ns (a :: rest)) : disturbs s.ns a.msg = false := by
  cases h with
  | inl h => simp [disturbs, h.1]
  | inr h => simp [disturbs, h.2.2.1, h.2.2.2.1]

theorem undisturbed_tail (h : Undisturbed s.ns (a :: rest)) (hd : a.msg.nlmsgType ≠ nlmsgDone) :
    Undisturbed s.ns rest := by
  cases h with
  | inl h => exact Or.inl h
  | inr h =>
    have hc := h.2.2.2.2
    rw [if_neg hd] at hc
    exact Or.inr ⟨h.1, h.2.1, hc⟩

/-- The end of a dump, in its place, leads on to the next dump or to the ready
state. -/
theorem undisturbed_done (h : Undisturbed s.ns (a :: rest)) (hd : a.msg.nlmsgType = nlmsgDone) :
    Onward s rest (rtnlSyncDone s a.ok) := by
  unfold rtnlSyncDone
  cases h with
  | inl h =>
    rw [h.2]
    exact ⟨Or.inl h, [], rfl, fun op ho => absurd ho List.not_mem_nil⟩
  | inr h =>
    obtain ⟨hs, hne, _, _, hc⟩ := h
    rw [if_pos hd] at hc
    cases hk : s.ns.syncState with
    | opening => exact absurd hk hne
    | link | addr | route4 | route6 =>
      rw [hk] at hc
      obtain ⟨hok, hc⟩ := hc.resolve_left (by decide)
      dsimp only
      rw [hok, syncNext_ok]
      refine ⟨Or.inr ⟨hs, SyncState.noConfusion, hc⟩, [_], rfl, fun op ho => ?_⟩
      rw [List.mem_singleton.mp ho]
      trivial
    | neigh =>
      refine ⟨Or.inl ⟨rfl, rfl⟩, [.ready], rfl, fun op ho => ?_⟩
      rw [List.mem_singleton.mp ho]
      trivial

theorem undisturbed_step (h : Undisturbed s.ns (a :: rest)) :
    Onward s rest (rtnlNsRecv s a).1 := by
  have hr := received_of_calm (undisturbed_not h)
  by_cases hd : a.msg.nlmsgType = nlmsgDone
  · rw [nsRecv_done hd, hr]
    have hu : Undisturbed (emit s (.message s.ns.rtnlSocket a.msg)).ns (a :: rest) := h
    obtain ⟨hu, ops, hl, hp⟩ := undisturbed_done hu hd
    refine ⟨hu, ops ++ [.message s.ns.rtnlSocket a.msg], by rw [hl]; simp, fun op ho => ?_⟩
    cases List.mem_append.mp ho with
    | inl ho => exact hp op ho
    | inr ho =>
      rw [List.mem_singleton.mp ho]
      trivial
  · have ht := undisturbed_tail h hd
    apply nsRecv_rule
    · rw [hr]
      exact ⟨ht, [_], rfl, by simp [Plain]⟩
    · exact fun hd' => absurd hd' hd
    · rw [hr]
      exact ⟨ht, [.deliver a.msg, .message s.ns.rtnlSocket a.msg], rfl, by simp [Plain]⟩

def endsRead (b : Buffer) : Bool := b.msgs.any refused || b.malformed

def drained : List Buffer → List Arrival
  | [] => []
  | b :: rest => if endsRead b then [] else b.msgs ++ drained rest

theorem recvAll_result (s : Sys) (msgs : List Arrival) :
    (rtnlRecvAll s msgs).2 = msgs.any refused := by
  induction msgs generalizing s with
  | nil => rfl
  | cons a rest ih =>
    rw [rtnlRecvAll, List.any_cons]
    cases hr : refused a with
    | true =>
      rw [if_pos ((nsRecv_result s a).mpr hr)]
      rfl
    | false =>
      have hn : ¬ (rtnlNsRecv s a).2 ≠ 0 :=
        fun h => Bool.noConfusion (hr.symm.trans ((nsRecv_result s a).mp h))
      rw [if_neg hn, ih]
      rfl

theorem recvAll_undisturbed {msgs rest : List Arrival} (hu : Undisturbed s.ns (msgs ++ rest))
    (hr : msgs.any refused = false) : Undisturbed (rtnlRecvAll s msgs).1.ns rest := by
  induction msgs generalizing s with
  | nil => exact hu
  | cons a msgs ih =>
    obtain ⟨ha, hr⟩ := Bool.or_eq_false_iff.mp hr
    have hn : ¬ (rtnlNsRecv s a).2 ≠ 0 :=
      fun h => Bool.noConfusion (ha.symm.trans ((nsRecv_result s a).mp h))
    rw [rtnlRecvAll, if_neg hn]
    exact ih (undisturbed_step hu).1 hr

/-- The messages that are looked at, up to the first one that is refused. -/
def taken : List Arrival → List Arrival
  | [] => []
  | a :: rest => a :: if refused a then [] else taken rest

def handed : List Buffer → List Arrival
  | [] => []
  | b :: rest => taken b.msgs ++ if endsRead b then [] else handed rest

theorem read_cons (s : Sys) (b : Buffer) (rest : List Buffer) :
    rtnlProcessRead s (b :: rest) =
      if endsRead b then (rtnlRecvAll (emit s (.recv s.ns.rtnlSocket)) b.msgs).1
      else rtnlProcessRead (rtnlRecvAll (emit s (.recv s.ns.rtnlSocket)) b.msgs).1 rest := by
  rw [rtnlProcessRead, recvAll_result]
  rfl

end Vppsb.RtnlCalm
