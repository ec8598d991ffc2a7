import Vppsb.RtnlTimeouts

namespace Vppsb.RtnlRequests

open Vppsb.StepRun Vppsb.RtnlStream Vppsb.RtnlTimeouts

/-- A round of `rtnl_process`, with each call of `recv` and each message as a step of its own. -/
inductive Step where
  | openStream
  | closeStream
  | recv
  | message (a : Arrival)
  | clock (outcome : OpenOutcome) (ok : Bool)

def stepNow (s : Sys) : Step → Sys
  | .openStream => rtnlProcessOpen s
  | .closeStream => rtnlProcessClose s
  | .recv => emit s (.recv s.ns.rtnlSocket)
  | .message a => (rtnlNsRecv s a).1
  | .clock outcome ok => rtnlProcess s (.clock outcome ok)

def step (s : Sys) (e : Rat × Step) : Option Sys := some (stepNow { s with now := e.1 } e.2)

theorem nsRecv_now (s : Sys) (a : Arrival) : (rtnlNsRecv s a).1.now = s.now := by
  apply nsRecv_rule (P := fun t => t.now = s.now)
  · exact received_now a.msg
  · intro _
    rw [syncDone_now]
    exact received_now a.msg
  · exact received_now a.msg

theorem recvAll_steps (s : Sys) (msgs : List Arrival) :
    ∃ es, run step s es = some (rtnlRecvAll s msgs).1 ∧ (rtnlRecvAll s msgs).1.now = s.now := by
  induction msgs generalizing s with
  | nil => exact ⟨[], rfl, rfl⟩
  | cons a rest ih =>
      rw [rtnlRecvAll]
      split
      · exact ⟨[(s.now, .message a)], rfl, nsRecv_now s a⟩
      · obtain ⟨es, he, hn⟩ := ih (rtnlNsRecv s a).1
        exact ⟨(s.now, .message a) :: es, he, hn.trans (nsRecv_now s a)⟩

theorem retimed_self {s : Sys} {now : Rat} (h : s.now = now) : { s with now := now } = s := by
  rw [← h]

theorem read_steps (s : Sys) (now : Rat) (buffers : List Buffer) :
    ∃ es, run step s es = some (rtnlProcessRead { s with now := now } buffers) := by
  induction buffers generalizing s with
  | nil => exact ⟨[(now, .recv)], rfl⟩
  | cons b rest ih =>
      rw [rtnlProcessRead]
      let t := emit { s with now := now } (.recv s.ns.rtnlSocket)
      obtain ⟨es, he, hn⟩ := recvAll_steps t b.msgs
      split
      · exact ⟨(now, .recv) :: es, he⟩
      · obtain ⟨fs, hf⟩ := ih (rtnlRecvAll t b.msgs).1
        have hn : (rtnlRecvAll t b.msgs).1.now = now := hn
        rw [retimed_self hn] at hf
        refine ⟨(now, .recv) :: (es ++ fs), ?_⟩
        change run step t (es ++ fs) = _
        rw [run_append, he]
        exact hf

theorem rounds_steps {s u : Sys} {es : List (Rat × Event)} (h : run round s es = some u) :
    ∃ fs, run step s fs = some u := by
  induction es generalizing s with
  | nil => exact ⟨[], h⟩
  | cons e es ih =>
      obtain ⟨t, ht, hu⟩ := run_cons_eq_some.mp h
      obtain ⟨fs, hf⟩ := ih hu
      obtain rfl := Option.some.inj ht
      obtain ⟨now, e⟩ := e
      cases e with
      | openStream => exact ⟨(now, .openStream) :: fs, hf⟩
      | closeStream => exact ⟨(now, .closeStream) :: fs, hf⟩
      | clock outcome ok => exact ⟨(now, .clock outcome ok) :: fs, hf⟩
      | read buffers =>
          obtain ⟨gs, hg⟩ := read_steps s now buffers
          refine ⟨gs ++ fs, ?_⟩
          rw [run_append, hg]
          exact hf

/-- The request whose answer is awaited. -/
def requestOf : SyncState → Option Request
  | .opening => none
  | .link => some getLink
  | .addr => some getAddr
  | .route4 => some getRoute4
  | .route6 => some getRoute6
  | .neigh => some getNeigh

def retryDelay (req : Request) : Rat := if req = getLink then 10 else 1

/-- While a stream waits for an answer, the request was sent on its socket, which is still
open. -/
def Awaited (s : Sys) : Prop :=
  s.live = true → s.ns.state = .sync → ∀ req, requestOf s.ns.syncState = some req →
    ∃ k, s.ns.rtnlSocket = some k ∧ .socket k ∈ s.log ∧ .close (some k) ∉ s.log ∧
      .send (some k) req s.ns.rtnlSeq true ∈ s.log

/-- If one of the new operations is a request that failed, its socket is closed, and another
attempt to open one is due after the delay. -/
def Recovers (s t : Sys) : Prop :=
  ∃ ops, t.log = ops ++ s.log ∧ ∀ i req q, .send i req q false ∈ ops →
    .close i ∈ ops ∧ t.ns.syncState = .opening ∧ t.ns.timeout = t.now + retryDelay req

def Correct (s : Sys) (e : Rat × Step) : Prop :=
  ∀ t, step s e = some t → Recovers s t ∧ Awaited t

/-- The step does not open a socket on which the links cannot be asked for. -/
def AsksForLinks (s : Sys) (e : Rat × Step) : Prop :=
  match e.2 with
  | .clock .opened false =>
    ¬ (s.live = true ∧ s.ns.timeout < e.1 ∧ s.ns.state = .sync ∧ s.ns.syncState = .opening)
  | _ => True

structure Based (s : Sys) : Prop where
  closed : ∀ k, .close (some k) ∈ s.log → k < s.sockets
  socket : ∀ k, s.ns.rtnlSocket = some k → k < s.sockets
  awaited : Awaited s

def Smooth (s t : Sys) : Prop :=
  ∃ ops, t.log = ops ++ s.log ∧ ∀ i req q, .send i req q false ∉ ops

variable {s t u : Sys}

theorem Smooth.refl (s : Sys) : Smooth s s := ⟨[], rfl, fun _ _ _ => List.not_mem_nil⟩

theorem Smooth.trans (h : Smooth s t) (h' : Smooth t u) : Smooth s u := by
  obtain ⟨ops, ho, hn⟩ := h
  obtain ⟨ops', ho', hn'⟩ := h'
  refine ⟨ops' ++ ops, by rw [ho', ho, List.append_assoc], ?_⟩
  intro i req q hm
  exact (List.mem_append.mp hm).elim (hn' i req q) (hn i req q)

theorem Smooth.recovers (h : Smooth s t) : Recovers s t := by
  obtain ⟨ops, ho, hn⟩ := h
  exact ⟨ops, ho, fun i req q hm => absurd hm (hn i req q)⟩

theorem Smooth.then (h : Smooth s t) (h' : Recovers t u) : Recovers s u := by
  obtain ⟨ops, ho, hn⟩ := h
  obtain ⟨ops', ho', hr⟩ := h'
  refine ⟨ops' ++ ops, by rw [ho', ho, List.append_assoc], ?_⟩
  intro i req q hm
  have hm := (List.mem_append.mp hm).resolve_right (hn i req q)
  obtain ⟨hc, hk, ht⟩ := hr i req q hm
  exact ⟨List.mem_append_left ops hc, hk, ht⟩

theorem smooth_emit (s : Sys) {op : Op} (h : ∀ i req q, .send i req q false ≠ op) :
    Smooth s (emit s op) := by
  refine ⟨[op], rfl, ?_⟩
  intro i req q hm
  exact h i req q (List.mem_singleton.mp hm)

theorem smooth_close (s : Sys) : Smooth s (rtnlSocketClose s) :=
  (smooth_emit s (fun _ _ _ => Op.noConfusion)).trans (smooth_emit _ (fun _ _ _ => Op.noConfusion))

theorem smooth_reset (s : Sys) : Smooth s (rtnlSyncReset s) := by
  rw [rtnlSyncReset]
  split
  · exact Smooth.refl s
  · exact (smooth_close s).trans (smooth_emit _ (fun _ _ _ => Op.noConfusion))

theorem smooth_received (s : Sys) (m : RtnlMsg) : Smooth s (received s m) := by
  have hm : Smooth s (emit s (.message s.ns.rtnlSocket m)) :=
    smooth_emit s (fun _ _ _ => Op.noConfusion)
  cases hd : disturbs s.ns m with
  | false =>
      rw [received_of_calm hd]
      exact hm
  | true =>
      rw [received_of_disturbs hd]
      exact hm.trans (smooth_reset _)

theorem awaited_opening (h : s.ns.syncState = .opening) : Awaited s := by
  intro _ _ req hr
  rw [h] at hr
  exact absurd hr.symm (Option.some_ne_none req)

theorem Based.emit (h : Based s) {op : Op} (ho : ∀ i, op ≠ .close i) : Based (emit s op) := by
  have hclose : ∀ k, .close (some k) ∈ op :: s.log → .close (some k) ∈ s.log := by
    intro k hm
    exact (List.mem_cons.mp hm).resolve_left (fun he => ho (some k) he.symm)
  refine ⟨fun k hm => h.closed k (hclose k hm), h.socket, ?_⟩
  intro hl hs req hr
  obtain ⟨k, hk, hopen, hc, hsend⟩ := h.awaited hl hs req hr
  exact ⟨k, hk, List.mem_cons_of_mem op hopen, fun hm => hc (hclose k hm),
    List.mem_cons_of_mem op hsend⟩

theorem Based.retimed (h : Based s) (x y : Rat) :
    Based { s with ns := { s.ns with timeout := x }, now := y } :=
  ⟨h.closed, h.socket, h.awaited⟩

theorem Based.schedule (h : Based s) (x : Rat) : Based (rtnlScheduleTimeout s x) :=
  h.retimed x s.now

theorem Based.close (h : Based s) {k : Nat} (hm : .close (some k) ∈ (rtnlSocketClose s).log) :
    k < s.sockets := by
  cases List.mem_cons.mp hm with
  | inl he => exact h.socket k (Op.close.inj he).symm
  | inr hm => exact h.closed k ((List.mem_cons.mp hm).resolve_left Op.noConfusion)

theorem Based.reset (h : Based s) : Based (rtnlSyncReset s) := by
  by_cases hk : s.ns.syncState = .opening
  · rw [reset_opening hk]
    exact h
  · rw [rtnlSyncReset, if_neg hk]
    refine ⟨fun k hm => ?_, h.socket, awaited_opening rfl⟩
    exact h.close ((List.mem_cons.mp hm).resolve_left Op.noConfusion)

theorem based_received (h : Based s) (m : RtnlMsg) : Based (received s m) := by
  have hm : Based (emit s (.message s.ns.rtnlSocket m)) := h.emit (fun _ => Op.noConfusion)
  cases hd : disturbs s.ns m with
  | false =>
      rw [received_of_calm hd]
      exact hm
  | true =>
      rw [received_of_disturbs hd]
      exact hm.reset.schedule _

theorem socket_lt_fresh {old : RtnlNs} {now : Rat} {k : Nat} (hk : old.rtnlSocket = some k) :
    k < (fresh old now).sockets := by
  apply Nat.lt_of_succ_le
  calc k + 1 = numberAfter old.rtnlSocket := by rw [hk, numberAfter]
    _ ≤ _ := Nat.le_max_left _ _

theorem based_fresh (old : RtnlNs) (now : Rat) :
    Based (fresh old now) :=
  ⟨fun _ hm => absurd hm List.not_mem_nil, fun _ hk => socket_lt_fresh hk,
    fun _ hs => RtnlState.noConfusion hs⟩

section

variable {req : Request} {next : SyncState}

theorem syncNext_sent : rtnlSyncNext s req next true =
    setSyncState (rtnlScheduleTimeout (rtnlDumpRequest s req true).1 (s.now + 1)) next := rfl

theorem syncNext_failed (hk : s.ns.syncState ≠ .opening) : rtnlSyncNext s req next false =
    rtnlScheduleTimeout (setSyncState
      (emit (rtnlSocketClose (rtnlDumpRequest s req false).1) .abandon) .opening) (s.now + 1) := by
  have hr : rtnlSyncReset (rtnlDumpRequest s req false).1 =
      setSyncState (emit (rtnlSocketClose (rtnlDumpRequest s req false).1) .abandon) .opening :=
    if_neg hk
  rw [← hr]
  rfl

theorem Based.dumpRequest (h : Based s) (ok : Bool) :
    ∀ k, .close (some k) ∈ (rtnlDumpRequest s req ok).1.log → k < s.sockets := by
  intro k hm
  exact h.closed k ((List.mem_cons.mp hm).resolve_left Op.noConfusion)

theorem based_syncNext (h : Based s) (hk : s.ns.syncState ≠ .opening)
    (hn : requestOf next = some req) (ok : Bool) : Based (rtnlSyncNext s req next ok) := by
  have hc : ∀ k, .close (some k) ∈ (rtnlDumpRequest s req ok).1.log → k < s.sockets :=
    h.dumpRequest ok
  cases ok with
  | false =>
      rw [syncNext_failed hk]
      have hd : Based (setSyncState (rtnlDumpRequest s req false).1 .opening) :=
        ⟨hc, h.socket, awaited_opening rfl⟩
      refine ⟨fun k hm => ?_, h.socket, awaited_opening rfl⟩
      exact hd.close ((List.mem_cons.mp hm).resolve_left Op.noConfusion)
  | true =>
      rw [syncNext_sent]
      refine ⟨hc, h.socket, ?_⟩
      intro hl hs req' hr
      obtain rfl := Option.some.inj (hn.symm.trans hr)
      obtain ⟨old, ho⟩ : ∃ old, requestOf s.ns.syncState = some old := by
        cases hv : s.ns.syncState with
        | opening => exact absurd hv hk
        | link | addr | route4 | route6 | neigh => exact ⟨_, rfl⟩
      obtain ⟨k, hsock, hopen, hclose, -⟩ := h.awaited hl hs old ho
      refine ⟨k, hsock, List.mem_cons_of_mem _ hopen, ?_, ?_⟩
      · exact fun hm => hclose ((List.mem_cons.mp hm).resolve_left Op.noConfusion)
      · rw [← hsock]
        exact List.mem_cons_self

theorem recovers_syncNext (hk : s.ns.syncState ≠ .opening) (hl : req ≠ getLink) (ok : Bool) :
    Recovers s (rtnlSyncNext s req next ok) := by
  cases ok with
  | true =>
      have hs : Smooth s (rtnlDumpRequest s req true).1 :=
        smooth_emit s (fun _ _ _ he => Bool.noConfusion (Op.send.inj he).2.2.2)
      have hn : Smooth s (rtnlSyncNext s req next true) := hs
      exact hn.recovers
  | false =>
      rw [syncNext_failed hk]
      refine ⟨[.abandon, .close s.ns.rtnlSocket, .fileDel s.ns.unixIndex,
        .send s.ns.rtnlSocket req (s.ns.rtnlSeq + 1) false], rfl, ?_⟩
      intro i req' q hm
      simp only [List.mem_cons, List.not_mem_nil, or_false, reduceCtorEq, false_or,
        Op.send.injEq] at hm
      obtain ⟨rfl, rfl, -⟩ := hm
      refine ⟨List.mem_cons_of_mem _ List.mem_cons_self, rfl, ?_⟩
      rw [retryDelay, if_neg hl]
      rfl

end

theorem based_syncDone (h : Based s) (ok : Bool) : Based (rtnlSyncDone s ok) := by
  rw [rtnlSyncDone]
  cases hv : s.ns.syncState with
  | opening => exact h
  | neigh =>
      have hr : Based (Vppsb.RtnlStream.emit s .ready) := h.emit (fun _ => Op.noConfusion)
      exact ⟨hr.closed, hr.socket, awaited_opening rfl⟩
  | link | addr | route4 | route6 =>
      apply based_syncNext h
      · rw [hv]
        exact SyncState.noConfusion
      · rfl

theorem recovers_syncDone (s : Sys) (ok : Bool) : Recovers s (rtnlSyncDone s ok) := by
  rw [rtnlSyncDone]
  cases hv : s.ns.syncState with
  | opening => exact (Smooth.refl s).recovers
  | neigh =>
      have hr : Smooth s (emit s .ready) := smooth_emit s (fun _ _ _ => Op.noConfusion)
      have hn : Smooth s (rtnlCancelTimeout (setSyncState (setState (emit s .ready) .ready)
        .opening)) := hr
      exact hn.recovers
  | link | addr | route4 | route6 =>
      apply recovers_syncNext
      · rw [hv]
        exact SyncState.noConfusion
      · decide

theorem based_nsRecv (h : Based s) (a : Arrival) : Based (rtnlNsRecv s a).1 := by
  have hr := based_received h a.msg
  apply nsRecv_rule hr
  · exact fun _ => based_syncDone hr a.ok
  · exact hr.emit (fun _ => Op.noConfusion)

theorem recovers_nsRecv (s : Sys) (a : Arrival) : Recovers s (rtnlNsRecv s a).1 := by
  have hr := smooth_received s a.msg
  apply nsRecv_rule hr.recovers
  · exact fun _ => hr.then (recovers_syncDone _ a.ok)
  · exact (hr.trans (smooth_emit _ (fun _ _ _ => Op.noConfusion))).recovers

theorem based_open (h : Based s) : Based (rtnlProcessOpen s) := by
  rw [rtnlProcessOpen]
  split
  · exact h
  · exact ⟨h.closed, h.socket, awaited_opening rfl⟩

theorem recovers_open (s : Sys) : Recovers s (rtnlProcessOpen s) := by
  have hs : Smooth s (rtnlProcessOpen s) := by
    rw [rtnlProcessOpen]
    split
    · exact Smooth.refl s
    · exact Smooth.refl s
  exact hs.recovers

theorem based_close (h : Based s) : Based (rtnlProcessClose s) := by
  rw [rtnlProcessClose]
  split
  · exact h
  · refine ⟨fun k hm => ?_, h.socket, fun hl => Bool.noConfusion hl⟩
    exact h.close ((List.mem_cons.mp hm).resolve_left Op.noConfusion)

theorem recovers_close (s : Sys) : Recovers s (rtnlProcessClose s) := by
  have hs : Smooth s (rtnlProcessClose s) := by
    rw [rtnlProcessClose]
    split
    · exact Smooth.refl s
    · exact (smooth_close s).trans (smooth_emit _ (fun _ _ _ => Op.noConfusion))
  exact hs.recovers

theorem based_opened (h : Based s) (hk : s.ns.syncState = .opening) :
    Based (rtnlSyncTimeout s .opened true) := by
  rw [syncTimeout_opened hk]
  have hfresh : ∀ k, .close (some k) ∈ (rtnlSyncTimeout s .opened true).log → k < s.sockets := by
    intro k hm
    rw [syncTimeout_opened hk] at hm
    have hm := (List.mem_cons.mp hm).resolve_left Op.noConfusion
    have hm := (List.mem_cons.mp hm).resolve_left Op.noConfusion
    exact h.closed k ((List.mem_cons.mp hm).resolve_left Op.noConfusion)
  rw [syncTimeout_opened hk] at hfresh
  refine ⟨fun k hm => Nat.lt_succ_of_lt (hfresh k hm), fun k hs => ?_, ?_⟩
  · obtain rfl := Option.some.inj hs
    exact Nat.lt_succ_self s.sockets
  · intro _ _ req hr
    obtain rfl := Option.some.inj hr
    refine ⟨s.sockets, rfl, ?_, fun hm => Nat.lt_irrefl _ (hfresh _ hm), List.mem_cons_self⟩
    exact List.mem_cons_of_mem _ (List.mem_cons_of_mem _ List.mem_cons_self)

theorem based_syncTimeout (h : Based s) {outcome : OpenOutcome} {ok : Bool}
    (ha : s.ns.syncState = .opening → outcome = .opened → ok = true) :
    Based (rtnlSyncTimeout s outcome ok) := by
  by_cases hk : s.ns.syncState = .opening
  · cases outcome with
    | noThread =>
        rw [rtnlSyncTimeout, hk]
        exact h.schedule _
    | noSocket =>
        rw [rtnlSyncTimeout, hk]
        exact ⟨h.closed, fun _ hs => absurd hs.symm (Option.some_ne_none _), awaited_opening hk⟩
    | noBind =>
        rw [rtnlSyncTimeout, hk]
        refine ⟨fun k hm => ?_, fun k hs => ?_, awaited_opening hk⟩
        · cases List.mem_cons.mp hm with
          | inl he =>
              obtain rfl := Option.some.inj (Op.close.inj he)
              exact Nat.lt_succ_self s.sockets
          | inr hm =>
              exact Nat.lt_succ_of_lt (h.closed k ((List.mem_cons.mp hm).resolve_left
                Op.noConfusion))
        · obtain rfl := Option.some.inj hs
          exact Nat.lt_succ_self s.sockets
    | opened =>
        obtain rfl := ha hk rfl
        exact based_opened h hk
  · rw [syncTimeout_reset hk]
    exact h.reset.schedule _

theorem recovers_syncTimeout {outcome : OpenOutcome} {ok : Bool}
    (ha : s.ns.syncState = .opening → outcome = .opened → ok = true) :
    Recovers s (rtnlSyncTimeout s outcome ok) := by
  have hs : Smooth s (rtnlSyncTimeout s outcome ok) := by
    by_cases hk : s.ns.syncState = .opening
    · cases outcome with
      | noThread | noSocket =>
          rw [rtnlSyncTimeout, hk]
          exact Smooth.refl s
      | noBind =>
          rw [rtnlSyncTimeout, hk]
          exact (smooth_emit s (fun _ _ _ => Op.noConfusion)).trans
            (smooth_emit _ (fun _ _ _ => Op.noConfusion))
      | opened =>
          obtain rfl := ha hk rfl
          rw [syncTimeout_opened hk]
          have ho : Smooth s (rtnlSocketOpen s .opened).1 :=
            (smooth_emit s (fun _ _ _ => Op.noConfusion)).trans
              (smooth_emit _ (fun _ _ _ => Op.noConfusion))
          exact ho.trans (smooth_emit _
            (fun _ _ _ he => Bool.noConfusion (Op.send.inj he).2.2.2))
    · rw [syncTimeout_reset hk]
      exact smooth_reset s
  exact hs.recovers

/-- If the links cannot be asked for, the stream waits for them all the same. -/
theorem unsent_not_recovers (hk : s.ns.syncState = .opening) :
    ¬ Recovers s (rtnlSyncTimeout s .opened false) := by
  rw [syncTimeout_opened hk]
  rintro ⟨ops, ho, hr⟩
  have ho : [.send (some s.sockets) getLink (s.ns.rtnlSeq + 1) false, .fileAdd s.sockets,
      .socket s.sockets] ++ s.log = ops ++ s.log := ho
  rw [← List.append_cancel_right ho] at hr
  obtain ⟨-, hn, -⟩ := hr _ _ _ List.mem_cons_self
  exact SyncState.noConfusion hn

theorem clock_sync (outcome : OpenOutcome) (ok : Bool) (hl : s.live = true)
    (ht : s.ns.timeout < s.now) (hs : s.ns.state = .sync) :
    rtnlProcess s (.clock outcome ok) =
      rtnlSyncTimeout (rtnlScheduleTimeout s dblMax) outcome ok := by
  rw [rtnlProcess, if_pos ⟨hl, ht⟩, rtnlProcessTimeout, schedule_state, hs]

theorem clock_correct (h : Based s) {outcome : OpenOutcome} {ok : Bool}
    (ha : AsksForLinks s (s.now, .clock outcome ok)) :
    Based (rtnlProcess s (.clock outcome ok)) ∧ Recovers s (rtnlProcess s (.clock outcome ok)) := by
  apply clock_rule (P := fun t => Based t ∧ Recovers s t)
  · exact ⟨h, (Smooth.refl s).recovers⟩
  · have hs : Smooth s (rtnlScheduleTimeout s dblMax) := Smooth.refl s
    exact ⟨h.schedule dblMax, hs.recovers⟩
  · intro hl ht hs
    have hok : (rtnlScheduleTimeout s dblMax).ns.syncState = .opening → outcome = .opened →
        ok = true := by
      rintro hk rfl
      cases ok with
      | true => rfl
      | false => exact absurd ⟨hl, ht, hs, hk⟩ ha
    exact ⟨based_syncTimeout (h.schedule dblMax) hok, recovers_syncTimeout hok⟩

/-- What one step keeps, and how it deals with a request that fails. -/
theorem stepNow_correct (h : Based s) {e : Step} (ha : AsksForLinks s (s.now, e)) :
    Based (stepNow s e) ∧ Recovers s (stepNow s e) := by
  cases e with
  | openStream => exact ⟨based_open h, recovers_open s⟩
  | closeStream => exact ⟨based_close h, recovers_close s⟩
  | recv =>
      exact ⟨h.emit (fun _ => Op.noConfusion),
        (smooth_emit s (fun _ _ _ => Op.noConfusion)).recovers⟩
  | message a => exact ⟨based_nsRecv h a, recovers_nsRecv s a⟩
  | clock outcome ok => exact clock_correct h ha

theorem step_correct_iff (h : Based s) (e : Rat × Step) : Correct s e ↔ AsksForLinks s e := by
  obtain ⟨now, e⟩ := e
  constructor
  · intro hc
    obtain ⟨hr, -⟩ := hc _ rfl
    cases e with
    | clock outcome ok =>
        cases outcome with
        | opened =>
            cases ok with
            | true => trivial
            | false =>
                rintro ⟨hl, ht, hs, hk⟩
                rw [stepNow, @clock_sync { s with now := now } .opened false hl ht hs] at hr
                have hr : Recovers (rtnlScheduleTimeout { s with now := now } dblMax) _ := hr
                refine unsent_not_recovers ?_ hr
                exact hk
        | noThread | noSocket | noBind => trivial
    | openStream | closeStream | recv | message a => trivial
  · intro ha t ht
    obtain rfl := Option.some.inj ht
    have hn := stepNow_correct (h.retimed s.ns.timeout now) ha
    exact ⟨hn.2, hn.1.awaited⟩

/-- In a run every request that fails is recovered from, and every answer that is awaited was
asked for on the open socket, exactly when the links could be asked for on each socket that was
opened. -/
theorem run_requests_iff (old : RtnlNs) (now : Rat) (es : List (Rat × Step)) :
    Meets step Correct (fresh old now) es ↔ Meets step AsksForLinks (fresh old now) es := by
  have hg : Meets step (fun _ _ => True) (fresh old now) es :=
    meets_of_forall (fun _ _ => trivial)
  apply meets_congr (P := Based) _ (fun s e h _ => step_correct_iff h e)
    (based_fresh old now) hg
  intro s e t h _ ha ht
  obtain rfl := Option.some.inj ht
  exact (stepNow_correct (h.retimed s.ns.timeout e.1) ha).1

def linksUnsent : List (Rat × Step) := [(0, .openStream), (1, .clock .opened false)]

/-- A stream on whose first socket nothing can be sent waits for the links, without having asked for
them, and with the socket still open. -/
theorem links_not_requested :
    ∃ u, run step (fresh blank 0) linksUnsent = some u ∧
      u.log = [.send (some 0) getLink 1 false, .fileAdd 0, .socket 0] ∧
      u.live = true ∧ u.ns.state = .sync ∧ u.ns.syncState = .link ∧ u.ns.timeout = u.now + 2 ∧
      ¬ Awaited u ∧ ¬ Meets step Correct (fresh blank 0) linksUnsent := by
  have hw : ¬ Awaited ((run step (fresh blank 0) linksUnsent).getD (fresh blank 0)) := by
    intro h
    obtain ⟨k, -, -, -, hs⟩ := h rfl rfl getLink rfl
    have hs : .send (some k) getLink 1 true ∈
        [Op.send (some 0) getLink 1 false, .fileAdd 0, .socket 0] := hs
    simp at hs
  refine ⟨_, rfl, rfl, rfl, rfl, rfl, rfl, hw, ?_⟩
  intro h
  exact hw (((h.2 _ rfl).1 _ rfl).2)

end Vppsb.RtnlRequests
