import Vppsb.RtnlStream

namespace Vppsb.RtnlSync

open Vppsb.StepRun Vppsb.NetnsTables Vppsb.RtnlStream

structure EndOf (q : UInt32) (m : RtnlMsg) : Prop where
  type : m.nlmsgType = nlmsgDone
  seq : m.nlmsgSeq = q
  notify : isNotify m = false

/-- What may happen on the socket `x` while a dump is going on. -/
def Quiet (x : Nat) (q : UInt32) : Op → Prop
  | .message i m =>
    i = some x ∧ m.nlmsgSeq = q ∧ isNotify m = false ∧ m.nlmsgType ≠ nlmsgDone
  | .recv _ | .deliver _ | .fileDel _ | .close _ | .closeNs => True
  | _ => False

/-- Since the socket `x` was opened the dumps in the list, the last one first,
were requested on it, each after the end of the one before it. The last request
has the sequence number `q`. -/
inductive Progress (x : Nat) : List Request → UInt32 → List Op → Prop
  | first (q : UInt32) (older : List Op) :
    Progress x [getLink] q (.send (some x) getLink q true :: .fileAdd x :: .socket x :: older)
  | quiet {rs : List Request} {q : UInt32} {log : List Op} (op : Op) (hq : Quiet x q op)
      (h : Progress x rs q log) : Progress x rs q (op :: log)
  | next {rs : List Request} {q : UInt32} {log : List Op} (req : Request) (m : RtnlMsg)
      (hm : EndOf q m) (h : Progress x rs q log) :
    Progress x (req :: rs) (q + 1)
      (.send (some x) req (q + 1) true :: .message (some x) m :: log)

/-- All five dumps were requested in their order since the socket was opened,
and the last one has just ended. -/
def Synchronised (log : List Op) : Prop :=
  ∃ x q m older, log = .message (some x) m :: older ∧ EndOf q m ∧
    Progress x [getNeigh, getRoute6, getRoute4, getAddr, getLink] q older

/-- The end of a dump is received on a socket only if the request with its
sequence number was sent on it. -/
def Honest : List Op → Prop
  | [] => True
  | .message i m :: older =>
    (m.nlmsgType = nlmsgDone → ∃ req, .send i req m.nlmsgSeq true ∈ older) ∧ Honest older
  | _ :: older => Honest older

/-- The requests that were sent when the stream waits for the end of a dump. -/
def requests : SyncState → List Request
  | .opening => []
  | .link => [getLink]
  | .addr => [getAddr, getLink]
  | .route4 => [getRoute4, getAddr, getLink]
  | .route6 => [getRoute6, getRoute4, getAddr, getLink]
  | .neigh => [getNeigh, getRoute6, getRoute4, getAddr, getLink]

def Unsent (x : Nat) (log : List Op) : Prop := ∀ req q, .send (some x) req q true ∉ log

/-- Every time the stream became ready it was synchronised. -/
def ReadyAfterSync : List Op → Prop
  | [] => True
  | .ready :: older => Synchronised older ∧ ReadyAfterSync older
  | _ :: older => ReadyAfterSync older

structure Based (s : Sys) : Prop where
  sent : ∀ i req q ok, .send i req q ok ∈ s.log → ∃ k, i = some k ∧ k < s.sockets
  init : s.ns.state = .init → ∀ i req q ok, .send i req q ok ∉ s.log
  ready : s.ns.state = .ready → s.ns.syncState = .opening ∧ .ready ∈ s.log
  past : ReadyAfterSync s.log

/-- While the stream waits for the end of a dump, all requests up to that one
were sent on its socket in their order. The request for the links may also have
failed. -/
structure InSync (s : Sys) : Prop extends Based s where
  sync : s.ns.state = .sync → s.ns.syncState ≠ .opening → ∃ x, s.ns.rtnlSocket = some x ∧
    (Progress x (requests s.ns.syncState) s.ns.rtnlSeq s.log ∨
      (s.ns.syncState = .link ∧ Unsent x s.log))

def Passive : Op → Prop
  | .recv _ | .deliver _ | .fileDel _ | .close _ | .closeNs => True
  | _ => False

variable {s : Sys} {m : RtnlMsg} {log log' : List Op}

theorem Honest.tail {op : Op} (h : Honest (op :: log)) : Honest log := by
  cases op with
  | message i m => exact h.2
  | _ => exact h

theorem Honest.suffix (h : Honest log) (hs : log' <:+ log) : Honest log' := by
  obtain ⟨front, rfl⟩ := hs
  induction front with
  | nil => exact h
  | cons op front ih => exact ih h.tail

theorem ReadyAfterSync.synchronised {newer older : List Op}
    (h : ReadyAfterSync (newer ++ .ready :: older)) : Synchronised older := by
  induction newer with
  | nil => exact h.1
  | cons op newer ih =>
    cases op with
    | ready => exact ih h.2
    | _ => exact ih h

theorem suffix_reset (s : Sys) : s.log <:+ (rtnlSyncReset s).log := by
  unfold rtnlSyncReset
  split
  · exact List.suffix_refl _
  · exact ⟨[.abandon, .close s.ns.rtnlSocket, .fileDel s.ns.unixIndex], rfl⟩

theorem suffix_received (s : Sys) (m : RtnlMsg) :
    .message s.ns.rtnlSocket m :: s.log <:+ (received s m).log := by
  cases hd : disturbs s.ns m with
  | false =>
    rw [received_of_calm hd]
    exact List.suffix_refl _
  | true =>
    rw [received_of_disturbs hd]
    exact suffix_reset (emit s (.message s.ns.rtnlSocket m))

theorem suffix_syncNext (s : Sys) (req : Request) (next : SyncState) (ok : Bool) :
    s.log <:+ (rtnlSyncNext s req next ok).log := by
  have hs : s.log <:+ (rtnlDumpRequest s req ok).1.log := List.suffix_cons _ _
  unfold rtnlSyncNext
  dsimp only
  split
  · exact hs.trans (suffix_reset _)
  · exact hs

theorem suffix_syncDone (s : Sys) (ok : Bool) : s.log <:+ (rtnlSyncDone s ok).log := by
  unfold rtnlSyncDone
  cases s.ns.syncState with
  | opening => exact List.suffix_refl _
  | link | addr | route4 | route6 => exact suffix_syncNext s _ _ ok
  | neigh => exact List.suffix_cons _ _

theorem Based.keep (h : Based s) {op : Op} (hs : ∀ i req q ok, op ≠ .send i req q ok)
    (hr : op ≠ .ready) : Based (emit s op) := by
  refine ⟨fun i req q ok hm => ?_, fun hi i req q ok hm => ?_,
    fun hr => ⟨(h.ready hr).1, List.mem_cons_of_mem op (h.ready hr).2⟩, ?_⟩
  · cases List.mem_cons.mp hm with
    | inl he => exact absurd he.symm (hs i req q ok)
    | inr hm => exact h.sent i req q ok hm
  · cases List.mem_cons.mp hm with
    | inl he => exact absurd he.symm (hs i req q ok)
    | inr hm => exact h.init hi i req q ok hm
  · have hp := h.past
    cases op with
    | ready => exact absurd rfl hr
    | _ => exact hp

theorem Based.message (h : Based s) (m : RtnlMsg) : Based (emit s (.message s.ns.rtnlSocket m)) :=
  h.keep (fun _ _ _ _ => Op.noConfusion) Op.noConfusion

theorem InSync.passive (h : InSync s) (op : Op) (hp : Passive op) : InSync (emit s op) := by
  have hq : ∀ x q, Quiet x q op := fun x q => by
    cases op with
    | recv | deliver | fileDel | close | closeNs => trivial
    | _ => exact hp.elim
  have hb : Based (emit s op) := by
    apply h.toBased.keep
    · rintro i req q ok rfl
      exact hp
    · rintro rfl
      exact hp
  refine ⟨hb, fun hs hk => ?_⟩
  obtain ⟨x, hx, hor⟩ := h.sync hs hk
  refine ⟨x, hx, hor.imp (fun hpr => hpr.quiet op (hq x _)) fun ⟨hl, hu⟩ => ⟨hl, ?_⟩⟩
  intro req q hm
  cases List.mem_cons.mp hm with
  | inl he =>
    rw [← he] at hp
    exact hp
  | inr hm => exact hu req q hm

theorem reset_inSync (h : Based s) (hs : s.ns.state = .sync) : InSync (rtnlSyncReset s) := by
  unfold rtnlSyncReset
  split
  · rename_i hk
    exact ⟨h, fun _ hne => absurd hk hne⟩
  · have hc : Based (emit (rtnlSocketClose s) .abandon) :=
      ((h.keep (fun _ _ _ _ => Op.noConfusion) Op.noConfusion).keep
        (fun _ _ _ _ => Op.noConfusion) Op.noConfusion).keep
        (fun _ _ _ _ => Op.noConfusion) Op.noConfusion
    exact ⟨⟨hc.sent, hc.init, fun hr => absurd (hs.symm.trans hr) (by decide), hc.past⟩,
      fun _ hne => absurd rfl hne⟩

theorem InSync.schedule (h : InSync s) (t : Rat) : InSync (rtnlScheduleTimeout s t) :=
  ⟨⟨h.sent, h.init, h.ready, h.past⟩, h.sync⟩

theorem reset_syncState (s : Sys) : (rtnlSyncReset s).ns.syncState = .opening := by
  unfold rtnlSyncReset
  split
  · assumption
  · rfl

theorem calm_of_sync (h : disturbs s.ns m = false) (hs : s.ns.state = .sync) :
    m.nlmsgSeq = s.ns.rtnlSeq ∧ isNotify m = false := by
  simp only [disturbs, hs, decide_true, Bool.true_and, Bool.or_eq_false_iff,
    decide_eq_false_iff_not, not_not] at h
  exact ⟨h.2, h.1⟩

theorem received_disturbed (h : InSync s) (hd : disturbs s.ns m = true) :
    InSync (received s m) ∧ (received s m).ns.syncState = .opening := by
  have hs := state_of_disturbs hd
  rw [received_of_disturbs hd]
  exact ⟨(reset_inSync (h.toBased.message m) hs).schedule _, reset_syncState _⟩

theorem received_inSync (h : InSync s) (hm : m.nlmsgType ≠ nlmsgDone) :
    InSync (received s m) := by
  cases hd : disturbs s.ns m with
  | true => exact (received_disturbed h hd).1
  | false =>
    rw [received_of_calm hd]
    refine ⟨h.toBased.message m, fun hs hk => ?_⟩
    obtain ⟨x, hx, hor⟩ := h.sync hs hk
    obtain ⟨hseq, hn⟩ := calm_of_sync hd hs
    refine ⟨x, hx, hor.imp (fun hp => hp.quiet _ ⟨hx, hseq, hn, hm⟩) fun ⟨hl, hu⟩ => ⟨hl, ?_⟩⟩
    intro req q hmem
    cases List.mem_cons.mp hmem with
    | inl he => cases he
    | inr hmem => exact hu req q hmem

theorem syncNext_inSync {x : Nat} {req : Request} {next : SyncState} {ok : Bool} (h : Based s)
    (hs : s.ns.state = .sync) (hx : s.ns.rtnlSocket = some x) (hlt : x < s.sockets)
    (hp : Progress x (requests next) (s.ns.rtnlSeq + 1)
      (.send (some x) req (s.ns.rtnlSeq + 1) true :: s.log)) :
    InSync (rtnlSyncNext s req next ok) := by
  have hb : Based (rtnlDumpRequest s req ok).1 := by
    refine ⟨fun i r q o hm => ?_, fun hi => absurd (hs.symm.trans hi) (by decide),
      fun hr => absurd (hs.symm.trans hr) (by decide), h.past⟩
    cases List.mem_cons.mp hm with
    | inl he =>
      cases he
      exact ⟨x, hx, hlt⟩
    | inr hm => exact h.sent i r q o hm
  unfold rtnlSyncNext
  dsimp only
  split
  · exact (reset_inSync hb hs).schedule _
  · rename_i hok
    have hok : ok = true := by
      by_contra hf
      rw [Bool.not_eq_true] at hf
      rw [hf] at hok
      exact hok (Int.noConfusion)
    refine ⟨⟨hb.sent, hb.init, fun hr => absurd (hs.symm.trans hr) (by decide), hb.past⟩,
      fun _ _ => ⟨x, hx, Or.inl ?_⟩⟩
    rw [hok]
    change Progress x (requests next) (s.ns.rtnlSeq + 1)
      (.send s.ns.rtnlSocket req (s.ns.rtnlSeq + 1) true :: s.log)
    rw [hx]
    exact hp

theorem syncDone_inSync (h : InSync s) (hd : disturbs s.ns m = false)
    (hm : m.nlmsgType = nlmsgDone) (hh : Honest (.message s.ns.rtnlSocket m :: s.log))
    (ok : Bool) : InSync (rtnlSyncDone (emit s (.message s.ns.rtnlSocket m)) ok) := by
  obtain ⟨req, hreq⟩ := hh.1 hm
  have hb := h.toBased.message m
  unfold rtnlSyncDone
  rw [emit_ns]
  by_cases hk : s.ns.syncState = .opening
  · rw [hk]
    exact ⟨hb, fun _ hne => absurd hk hne⟩
  have hs : s.ns.state = .sync := by
    cases hs : s.ns.state with
    | sync => rfl
    | init => exact absurd hreq (h.init hs _ _ _ _)
    | ready => exact absurd (h.ready hs).1 hk
  obtain ⟨x, hx, hor⟩ := h.sync hs hk
  obtain ⟨hseq, hn⟩ := calm_of_sync hd hs
  rw [hx] at hreq
  have hlt : x < s.sockets := by
    obtain ⟨k, he, hlt⟩ := h.sent _ _ _ _ hreq
    obtain rfl := Option.some.inj he
    exact hlt
  have hp := hor.resolve_right fun ⟨_, hu⟩ => hu _ _ hreq
  have hend : EndOf s.ns.rtnlSeq m := ⟨hm, hseq, hn⟩
  have hnext : ∀ req next, requests next = req :: requests s.ns.syncState →
      InSync (rtnlSyncNext (emit s (.message s.ns.rtnlSocket m)) req next ok) := by
    intro req next hr
    apply syncNext_inSync hb hs hx hlt
    rw [hr, emit_log, emit_ns, hx]
    exact hp.next req m hend
  cases hk : s.ns.syncState with
  | opening => contradiction
  | link => exact hnext _ .addr (by rw [hk]; rfl)
  | addr => exact hnext _ .route4 (by rw [hk]; rfl)
  | route4 => exact hnext _ .route6 (by rw [hk]; rfl)
  | route6 => exact hnext _ .neigh (by rw [hk]; rfl)
  | neigh =>
    rw [hk] at hp
    have hsync : Synchronised (.message s.ns.rtnlSocket m :: s.log) :=
      ⟨x, _, m, s.log, by rw [hx], hend, hp⟩
    refine ⟨⟨fun i r q o hmem => ?_, fun hi => RtnlState.noConfusion hi,
      fun _ => ⟨rfl, List.mem_cons_self⟩, hsync, hb.past⟩, fun hs => RtnlState.noConfusion hs⟩
    cases List.mem_cons.mp hmem with
    | inl he => cases he
    | inr hmem => exact hb.sent i r q o hmem

def Kept (s : Sys) : Prop := Honest s.log → InSync s

theorem nsRecv_kept (h : Kept s) (a : Arrival) : Kept (rtnlNsRecv s a).1 := by
  by_cases hm : a.msg.nlmsgType = nlmsgDone
  · intro hh
    rw [nsRecv_done hm] at hh ⊢
    have hh := (hh.suffix (suffix_syncDone _ _)).suffix (suffix_received s a.msg)
    have hs := h hh.tail
    cases hd : disturbs s.ns a.msg with
    | true =>
      obtain ⟨hr, hk⟩ := received_disturbed hs hd
      rw [rtnlSyncDone, hk]
      exact hr
    | false =>
      rw [received_of_calm hd]
      exact syncDone_inSync hs hd hm hh a.ok
  · have hr : Kept (received s a.msg) := fun hh =>
      received_inSync (h (hh.suffix (suffix_received s a.msg)).tail) hm
    apply nsRecv_rule hr
    · exact fun hd => absurd hd hm
    · exact fun hh => (hr hh.tail).passive _ trivial

theorem read_kept (h : Kept s) (buffers : List Buffer) : Kept (rtnlProcessRead s buffers) :=
  read_rule h (fun _ ht hh => (ht hh.tail).passive _ trivial) fun _ a ht => nsRecv_kept ht a

theorem processOpen_kept (h : Kept s) : Kept (rtnlProcessOpen s) := by
  unfold rtnlProcessOpen
  split
  · exact h
  · intro hh
    have hs := h hh
    exact ⟨⟨hs.sent, fun hi => RtnlState.noConfusion hi, fun hr => RtnlState.noConfusion hr,
      hs.past⟩, fun _ hk => absurd rfl hk⟩

theorem processClose_kept (h : Kept s) : Kept (rtnlProcessClose s) := by
  unfold rtnlProcessClose
  split
  · exact h
  · intro hh
    have hs := h (hh.suffix (List.suffix_append [_, _, _] s.log))
    have hc := ((hs.passive (.fileDel s.ns.unixIndex) trivial).passive
      (.close s.ns.rtnlSocket) trivial).passive .closeNs trivial
    exact ⟨⟨hc.sent, hc.init, hc.ready, hc.past⟩, hc.sync⟩

theorem unsent_new (h : Based s) : Unsent s.sockets s.log := by
  intro req q hm
  obtain ⟨k, hk, hlt⟩ := h.sent _ _ _ _ hm
  obtain rfl := Option.some.inj hk
  exact Nat.lt_irrefl _ hlt

theorem syncTimeout_inSync (h : InSync s) (hs : s.ns.state = .sync) (outcome : OpenOutcome)
    (ok : Bool) : InSync (rtnlSyncTimeout s outcome ok) := by
  by_cases hk : s.ns.syncState = .opening
  · have hinit : ∀ P : Prop, s.ns.state = .init → P := fun P hi =>
      absurd (hs.symm.trans hi) (by decide)
    have hready : ∀ P : Prop, s.ns.state = .ready → P := fun P hr =>
      absurd (hs.symm.trans hr) (by decide)
    have hsent : ∀ i req q ok, .send i req q ok ∈ s.log → ∃ k, i = some k ∧ k < s.sockets + 1 := by
      intro i req q ok hm
      obtain ⟨k, hi, hlt⟩ := h.sent i req q ok hm
      exact ⟨k, hi, Nat.lt_succ_of_lt hlt⟩
    cases outcome with
    | noThread =>
      rw [rtnlSyncTimeout, hk]
      exact h.schedule _
    | noSocket =>
      rw [rtnlSyncTimeout, hk]
      exact ⟨⟨h.sent, fun hi => hinit _ hi, fun hr => hready _ hr, h.past⟩,
        fun _ hne => absurd hk hne⟩
    | noBind =>
      rw [rtnlSyncTimeout, hk]
      refine ⟨⟨fun i req q ok hm => ?_, fun hi => hinit _ hi, fun hr => hready _ hr, h.past⟩,
        fun _ hne => absurd hk hne⟩
      exact hsent i req q ok (by simpa [rtnlSocketOpen] using hm)
    | opened =>
      rw [syncTimeout_opened hk]
      refine ⟨⟨fun i req q o hm => ?_, fun hi => hinit _ hi, fun hr => hready _ hr, h.past⟩,
        fun _ _ => ⟨s.sockets, rfl, ?_⟩⟩
      · cases List.mem_cons.mp hm with
        | inl he =>
          cases he
          exact ⟨_, rfl, Nat.lt_succ_self _⟩
        | inr hm => exact hsent i req q o (by simpa [rtnlSocketOpen] using hm)
      · cases ok with
        | true => exact Or.inl (Progress.first _ _)
        | false =>
          refine Or.inr ⟨rfl, fun req q hm => unsent_new h.toBased req q ?_⟩
          simpa [rtnlDumpRequest, rtnlSocketOpen, setSyncState] using hm
  · rw [syncTimeout_reset hk]
    exact (reset_inSync h.toBased hs).schedule _

theorem suffix_syncTimeout (s : Sys) (outcome : OpenOutcome) (ok : Bool) :
    s.log <:+ (rtnlSyncTimeout s outcome ok).log := by
  by_cases hk : s.ns.syncState = .opening
  · cases outcome with
    | noThread | noSocket =>
      rw [rtnlSyncTimeout, hk]
      exact List.suffix_refl _
    | noBind =>
      rw [rtnlSyncTimeout, hk]
      exact ⟨[.close (some s.sockets), .socket s.sockets], rfl⟩
    | opened =>
      rw [syncTimeout_opened hk]
      exact ⟨[.send (some s.sockets) getLink (s.ns.rtnlSeq + 1) ok, .fileAdd s.sockets,
        .socket s.sockets], rfl⟩
  · rw [syncTimeout_reset hk]
    exact suffix_reset s

theorem process_kept (h : Kept s) (e : Event) : Kept (rtnlProcess s e) := by
  cases e with
  | openStream => exact processOpen_kept h
  | closeStream => exact processClose_kept h
  | read buffers => exact read_kept h buffers
  | clock outcome ok =>
    apply clock_rule h
    · exact fun hh => (h hh).schedule dblMax
    · intro _ _ hs hh
      have hh : Honest s.log := hh.suffix (suffix_syncTimeout (rtnlScheduleTimeout s dblMax) outcome ok)
      exact syncTimeout_inSync ((h hh).schedule dblMax) hs outcome ok

theorem round_kept {t : Sys} {e : Rat × Event} (h : Kept s) (ht : round s e = some t) :
    Kept t := by
  obtain rfl := Option.some.inj ht
  apply process_kept
  intro hh
  have hs := h hh
  exact ⟨⟨hs.sent, hs.init, hs.ready, hs.past⟩, hs.sync⟩

theorem kept_fresh (old : RtnlNs) (now : Rat) :
    Kept (fresh old now) :=
  fun _ => ⟨⟨fun _ _ _ _ hm => absurd hm List.not_mem_nil,
    fun _ _ _ _ _ hm => List.not_mem_nil hm, fun hr => RtnlState.noConfusion hr, trivial⟩,
    fun hs => RtnlState.noConfusion hs⟩

def Awaits (ns : RtnlNs) (m : RtnlMsg) : Prop :=
  ns.state = .sync ∧ ns.syncState ≠ .opening ∧ m.nlmsgSeq = ns.rtnlSeq ∧ isNotify m = false

/-- The state does not advance: it stays, or the synchronisation starts over. -/
def Stays (s t : Sys) : Prop :=
  t.ns.state = s.ns.state ∧ t.ns.rtnlSeq = s.ns.rtnlSeq ∧
    (t.ns.syncState = s.ns.syncState ∨ t.ns.syncState = .opening)

theorem stays_reset (s : Sys) : Stays s (rtnlSyncReset s) := by
  refine ⟨?_, ?_, Or.inr (reset_syncState s)⟩ <;>
  · unfold rtnlSyncReset
    split <;> rfl

theorem done_stays (h : InSync s) (hm : m.nlmsgType = nlmsgDone)
    (hh : Honest (.message s.ns.rtnlSocket m :: s.log)) (hn : ¬ Awaits s.ns m) (ok : Bool) :
    Stays s (rtnlNsRecv s ⟨m, ok⟩).1 := by
  rw [nsRecv_done hm]
  cases hd : disturbs s.ns m with
  | true =>
    rw [rtnlSyncDone, (received_disturbed h hd).2, received_of_disturbs hd]
    exact stays_reset (emit s (.message s.ns.rtnlSocket m))
  | false =>
    have hk : s.ns.syncState = .opening := by
      cases hs : s.ns.state with
      | init =>
        obtain ⟨req, hreq⟩ := hh.1 hm
        exact absurd hreq (h.init hs _ _ _ _)
      | ready => exact (h.ready hs).1
      | sync =>
        by_contra hk
        exact hn ⟨hs, hk, calm_of_sync hd hs⟩
    rw [received_of_calm hd, rtnlSyncDone, emit_ns, hk]
    exact ⟨rfl, rfl, Or.inl rfl⟩

/-- A stream becomes ready only after it requested the five dumps in their order
on its socket and got the end of each. No other end of a dump advances it. -/
theorem run_synchronised {old : RtnlNs} {now : Rat} {es : List (Rat × Event)} {u : Sys}
    (hr : run round (fresh old now) es = some u) (hh : Honest u.log) :
    (u.ns.state = .ready → .ready ∈ u.log) ∧
      (∀ newer older, u.log = newer ++ .ready :: older → Synchronised older) ∧
      ∀ m ok, m.nlmsgType = nlmsgDone → Honest (.message u.ns.rtnlSocket m :: u.log) →
        ¬ Awaits u.ns m → Stays u (rtnlNsRecv u ⟨m, ok⟩).1 := by
  have hu : InSync u := invariant (fun s e t h ht => round_kept h ht) (kept_fresh _ _) hr hh
  refine ⟨fun hs => (hu.ready hs).2, fun newer older hl => ?_, fun m ok hm hh' hn =>
    done_stays hu hm hh' hn ok⟩
  have hp := hu.past
  rw [hl] at hp
  exact hp.synchronised

def doneMessage (seq : UInt32) : RtnlMsg := ⟨⟨20, nlmsgDone, fun _ => 0, some fun _ => none⟩, 2, seq⟩

def plainSync : List (Rat × Event) :=
  [(0, .openStream), (1, .clock .opened true),
    (1, .read [⟨[⟨doneMessage 1, true⟩, ⟨doneMessage 2, true⟩, ⟨doneMessage 3, true⟩,
      ⟨doneMessage 4, true⟩, ⟨doneMessage 5, true⟩], false⟩])]

theorem plainSync_run : ∃ u, run round (fresh blank 0) plainSync = some u ∧
    u.ns.state = .ready ∧ u.log = [.recv (some 0), .ready, .message (some 0) (doneMessage 5),
      .send (some 0) getNeigh 5 true, .message (some 0) (doneMessage 4),
      .send (some 0) getRoute6 4 true, .message (some 0) (doneMessage 3),
      .send (some 0) getRoute4 3 true, .message (some 0) (doneMessage 2),
      .send (some 0) getAddr 2 true, .message (some 0) (doneMessage 1),
      .recv (some 0), .send (some 0) getLink 1 true, .fileAdd 0, .socket 0] := by
  refine ⟨_, rfl, ?_, ?_⟩
  · decide +kernel
  · rfl

theorem run_synchronised_sample :
    ∃ u, run round (fresh blank 0) plainSync = some u ∧ u.ns.state = .ready ∧
      ∀ newer older, u.log = newer ++ .ready :: older → Synchronised older := by
  obtain ⟨u, hu, hs, hl⟩ := plainSync_run
  have hh : Honest u.log := by
    rw [hl]
    simp [Honest, doneMessage]
  exact ⟨u, hu, hs, (run_synchronised hu hh).2.1⟩

end Vppsb.RtnlSync
