import Mathlib.Algebra.Order.Ring.Rat
import Mathlib.Tactic.Linarith
import Mathlib.Tactic.NormNum
import Vppsb.RtnlStream

namespace Vppsb.RtnlTimeouts

open Vppsb.StepRun Vppsb.RtnlStream

/-- A stream that is ready waits for nothing. -/
def Settled (s : Sys) : Prop :=
  s.ns.state = .ready → s.ns.timeout = dblMax ∧ s.ns.syncState = .opening

/-- A stream that synchronises has a timeout before the given time. -/
def Scheduled (bound : Rat) (s : Sys) : Prop := s.ns.state = .sync → s.ns.timeout < bound

variable {s : Sys} {bound : Rat}

@[simp] theorem reset_state : (rtnlSyncReset s).ns.state = s.ns.state := by
  unfold rtnlSyncReset
  split <;> rfl

@[simp] theorem reset_now : (rtnlSyncReset s).now = s.now := by
  unfold rtnlSyncReset
  split <;> rfl

@[simp] theorem reset_timeout : (rtnlSyncReset s).ns.timeout = s.ns.timeout := by
  unfold rtnlSyncReset
  split <;> rfl

theorem received_state (m : RtnlMsg) : (received s m).ns.state = s.ns.state := by
  cases hd : disturbs s.ns m with
  | false => rw [received_of_calm hd, emit_ns]
  | true => rw [received_of_disturbs hd, schedule_state, reset_state, emit_ns]

theorem syncNext_state (req : Request) (next : SyncState) (ok : Bool) :
    (rtnlSyncNext s req next ok).ns.state = s.ns.state := by
  unfold rtnlSyncNext
  dsimp only
  split
  · exact reset_state
  · rfl

theorem syncNext_timeout (req : Request) (next : SyncState) (ok : Bool) :
    (rtnlSyncNext s req next ok).ns.timeout = s.now + 1 := by
  unfold rtnlSyncNext
  dsimp only
  split <;> rfl

/-- Every way out of `rtnl_sync_timeout` leaves a timeout. -/
theorem syncTimeout_schedules (outcome : OpenOutcome) (ok : Bool) :
    ∃ d ≤ 10, (rtnlSyncTimeout s outcome ok).ns.timeout = s.now + d := by
  by_cases hk : s.ns.syncState = .opening
  · cases outcome with
    | opened =>
      rw [syncTimeout_opened hk]
      exact ⟨2, by norm_num, rfl⟩
    | noThread | noSocket | noBind =>
      rw [rtnlSyncTimeout, hk]
      exact ⟨10, le_refl _, rfl⟩
  · rw [syncTimeout_reset hk]
    exact ⟨1, by norm_num, rfl⟩

theorem syncTimeout_state (outcome : OpenOutcome) (ok : Bool) :
    (rtnlSyncTimeout s outcome ok).ns.state = s.ns.state := by
  by_cases hk : s.ns.syncState = .opening
  · cases outcome with
    | opened =>
      rw [syncTimeout_opened hk]
      rfl
    | noThread | noSocket | noBind =>
      rw [rtnlSyncTimeout, hk]
      rfl
  · rw [syncTimeout_reset hk, schedule_state, reset_state]

theorem Settled.of_not_ready (h : s.ns.state ≠ .ready) : Settled s := fun hr => absurd hr h

theorem syncDone_settled (h : Settled s) (ok : Bool) : Settled (rtnlSyncDone s ok) := by
  have hnext : ∀ req next, s.ns.syncState ≠ .opening → Settled (rtnlSyncNext s req next ok) := by
    intro req next hk
    apply Settled.of_not_ready
    rw [syncNext_state]
    exact fun hr => hk (h hr).2
  unfold rtnlSyncDone
  cases hv : s.ns.syncState with
  | opening => exact h
  | neigh => exact fun _ => ⟨rfl, rfl⟩
  | link | addr | route4 | route6 =>
    apply hnext
    rw [hv]
    exact SyncState.noConfusion

theorem received_settled (h : Settled s) (m : RtnlMsg) : Settled (received s m) := by
  cases hd : disturbs s.ns m with
  | false =>
    rw [received_of_calm hd]
    exact h
  | true =>
    apply Settled.of_not_ready
    rw [received_state, state_of_disturbs hd]
    exact RtnlState.noConfusion

theorem nsRecv_settled (h : Settled s) (a : Arrival) : Settled (rtnlNsRecv s a).1 := by
  have hr := received_settled h a.msg
  apply nsRecv_rule hr
  · exact fun _ => syncDone_settled hr a.ok
  · exact hr

theorem round_settled {t : Sys} {e : Rat × Event} (h : Settled s) (ht : round s e = some t) :
    Settled t := by
  obtain rfl := Option.some.inj ht
  obtain ⟨now, e⟩ := e
  have hs : Settled { s with now := now } := h
  cases e with
  | openStream =>
    rw [rtnlProcess, rtnlProcessOpen]
    split
    · exact hs
    · exact Settled.of_not_ready RtnlState.noConfusion
  | closeStream =>
    rw [rtnlProcess, rtnlProcessClose]
    split
    · exact hs
    · exact hs
  | read buffers => exact read_rule hs (fun _ ht => ht) fun _ a ht => nsRecv_settled ht a
  | clock outcome ok =>
    apply clock_rule hs
    · exact fun hr => ⟨rfl, (hs hr).2⟩
    · intro _ _ hv
      apply Settled.of_not_ready
      rw [syncTimeout_state, schedule_state, hv]
      exact RtnlState.noConfusion

theorem syncDone_scheduled (h : Scheduled bound s) (hb : s.now + 10 < bound) (ok : Bool) :
    Scheduled bound (rtnlSyncDone s ok) := by
  have hnext : ∀ req next, Scheduled bound (rtnlSyncNext s req next ok) := by
    intro req next _
    rw [syncNext_timeout]
    linarith
  unfold rtnlSyncDone
  cases s.ns.syncState with
  | opening => exact h
  | neigh => exact fun hr => RtnlState.noConfusion hr
  | link | addr | route4 | route6 => exact hnext _ _

theorem syncDone_now (ok : Bool) : (rtnlSyncDone s ok).now = s.now := by
  have hnext : ∀ req next, (rtnlSyncNext s req next ok).now = s.now := by
    intro req next
    unfold rtnlSyncNext
    dsimp only
    split
    · exact reset_now
    · rfl
  unfold rtnlSyncDone
  cases s.ns.syncState with
  | opening | neigh => rfl
  | link | addr | route4 | route6 => exact hnext _ _

theorem received_now (m : RtnlMsg) : (received s m).now = s.now := by
  cases hd : disturbs s.ns m with
  | false => rw [received_of_calm hd, emit]
  | true =>
    rw [received_of_disturbs hd]
    exact reset_now

theorem received_scheduled (h : Scheduled bound s) (hb : s.now + 10 < bound) (m : RtnlMsg) :
    Scheduled bound (received s m) := by
  cases hd : disturbs s.ns m with
  | false =>
    rw [received_of_calm hd]
    exact h
  | true =>
    rw [received_of_disturbs hd]
    intro _
    change s.now < bound
    linarith

theorem nsRecv_scheduled (h : Scheduled bound s ∧ s.now + 10 < bound) (a : Arrival) :
    Scheduled bound (rtnlNsRecv s a).1 ∧ (rtnlNsRecv s a).1.now + 10 < bound := by
  have hb : (received s a.msg).now + 10 < bound := by
    rw [received_now]
    exact h.2
  have hr := received_scheduled h.1 h.2 a.msg
  apply nsRecv_rule (P := fun t => Scheduled bound t ∧ t.now + 10 < bound)
  · exact ⟨hr, hb⟩
  · intro _
    rw [syncDone_now]
    exact ⟨syncDone_scheduled hr hb a.ok, hb⟩
  · exact ⟨hr, hb⟩

theorem round_scheduled {t : Sys} {e : Rat × Event} (h : Scheduled bound s)
    (hb : e.1 + 10 < bound) (ht : round s e = some t) : Scheduled bound t := by
  obtain rfl := Option.some.inj ht
  obtain ⟨now, e⟩ := e
  have hs : Scheduled bound { s with now := now } := h
  cases e with
  | openStream =>
    rw [rtnlProcess, rtnlProcessOpen]
    split
    · exact hs
    · intro _
      change now < bound
      linarith
  | closeStream =>
    rw [rtnlProcess, rtnlProcessClose]
    split
    · exact hs
    · exact hs
  | read buffers =>
    exact (read_rule (P := fun t => Scheduled bound t ∧ t.now + 10 < bound) ⟨hs, hb⟩
      (fun _ ht => ht) fun _ a ht => nsRecv_scheduled ht a).1
  | clock outcome ok =>
    rw [rtnlProcess]
    split
    · rw [rtnlProcessTimeout, schedule_state]
      cases hv : s.ns.state with
      | init | ready =>
        intro hr
        rw [schedule_state, hv] at hr
        exact RtnlState.noConfusion hr
      | sync =>
        obtain ⟨d, hd, he⟩ := syncTimeout_schedules
          (s := rtnlScheduleTimeout { s with now := now } dblMax) outcome ok
        intro _
        rw [he]
        change now + d < bound
        linarith
    · exact hs

/-- A stream that is ready has no timeout, and the clock passes it over; one that
synchronises has one as long as no round takes place in the last ten seconds
before the sentinel. -/
theorem run_timeouts {old : RtnlNs} {now : Rat} {es : List (Rat × Event)} {u : Sys}
    (hr : run round (fresh old now) es = some u) :
    (u.ns.state = .ready → u.ns.timeout = dblMax ∧ ∀ t < dblMax, ¬ u.ns.timeout < t) ∧
      ((∀ e ∈ es, e.1 + 10 < dblMax) → u.ns.state = .sync → u.ns.timeout < dblMax) := by
  constructor
  · have h0 : Settled (fresh old now) :=
      Settled.of_not_ready RtnlState.noConfusion
    have hs : Settled u := invariant (fun s e t h ht => round_settled h ht) h0 hr
    intro hv
    obtain ⟨he, _⟩ := hs hv
    refine ⟨he, fun t ht => ?_⟩
    rw [he]
    exact not_lt.mpr ht.le
  · intro hb
    have h0 : Scheduled dblMax (fresh old now) :=
      fun hv => RtnlState.noConfusion hv
    have hc : Meets round (fun _ e => e.1 + 10 < dblMax) (fresh old now) es :=
      meets_of_forall hb
    exact invariant_of_meets (fun s e t h hc ht => round_scheduled h hc ht) h0 hc hr

def openSoon : List (Rat × Event) := [(0, .openStream), (1, .clock .opened true)]

theorem run_timeouts_sample :
    ∃ u, run round (fresh blank 0) openSoon = some u ∧
      u.ns.state = .sync ∧ u.ns.timeout < dblMax := by
  have h := run_timeouts (show run round (fresh blank 0) openSoon = some _ from rfl)
  have hb : ∀ e ∈ openSoon, e.1 + 10 < dblMax := by decide +kernel
  exact ⟨_, rfl, rfl, h.2 hb rfl⟩

/-- A socket that cannot be opened five seconds before the sentinel is retried
beyond it, which is never. -/
theorem stalls_at_sentinel :
    ∃ u, run round (fresh blank 0)
        [(0, .openStream), (999999995, .clock .noSocket true)] = some u ∧
      (0 : Rat) < dblMax ∧ (999999995 : Rat) < dblMax ∧
      u.ns.state = .sync ∧ ¬ u.ns.timeout < dblMax :=
  ⟨_, rfl, by decide +kernel, by decide +kernel, by decide +kernel, by decide +kernel⟩

end Vppsb.RtnlTimeouts
