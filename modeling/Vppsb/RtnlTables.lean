import Vppsb.RtnlCalm
import Vppsb.NetnsUnique

namespace Vppsb.RtnlTables

open Vppsb.StepRun Vppsb.PoolStore Vppsb.NetnsTables Vppsb.NetnsUnique Vppsb.RtnlStream
  Vppsb.RtnlCalm

def tables : List Op → Netns
  | [] => emptyNetns
  | .deliver m :: older => (nsRecvRtnl (tables older) m.toNlmsg).1
  | _ :: older => tables older

def sinceOpen : List Op → List Op
  | [] => []
  | .socket _ :: _ => []
  | op :: older => op :: sinceOpen older

/-- No synchronisation is given up: no message that is read restarts it, and the
clock finds none that takes too long. -/
def Steady (s : Sys) (e : Rat × Event) : Prop :=
  match e.2 with
  | .read buffers => handed buffers ≠ [] → Undisturbed s.ns (handed buffers)
  | .clock _ _ => s.live = true → s.ns.timeout < e.1 → s.ns.state = .sync →
    s.ns.syncState = .opening
  | .openStream | .closeStream => True

/-- The tables are those that the current socket accounts for. There is nothing
in them before the first one is opened. -/
structure UpToDate (s : Sys) : Prop where
  kept : .abandon ∉ s.log
  opened : IsOpen s.ns → tables s.log = tables (sinceOpen s.log)
  unopened : ¬ IsOpen s.ns → ∀ m, .deliver m ∉ s.log

variable {s : Sys} {log : List Op}

theorem tables_of_undelivered (h : ∀ m, .deliver m ∉ log) : tables log = emptyNetns := by
  induction log with
  | nil => rfl
  | cons op older ih =>
    have ih := ih fun m hm => h m (List.mem_cons_of_mem op hm)
    cases op with
    | deliver m => exact absurd List.mem_cons_self (h m)
    | _ => exact ih

theorem tables_append {ops : List Op} (h : tables log = tables (sinceOpen log))
    (hs : ∀ k, .socket k ∉ ops) : tables (ops ++ log) = tables (sinceOpen (ops ++ log)) := by
  induction ops with
  | nil => exact h
  | cons op ops ih =>
    have ih := ih fun k hk => hs k (List.mem_cons_of_mem op hk)
    cases op with
    | socket k => exact absurd List.mem_cons_self (hs k)
    | deliver m => exact congrArg (fun ns => (nsRecvRtnl ns m.toNlmsg).1) ih
    | _ => exact ih

theorem UpToDate.append {t : Sys} (h : UpToDate s) (ops : List Op) (ho : IsOpen s.ns)
    (ht : IsOpen t.ns) (hl : t.log = ops ++ s.log) (hs : ∀ k, .socket k ∉ ops)
    (ha : .abandon ∉ ops) : UpToDate t := by
  refine ⟨?_, fun _ => ?_, fun hn => absurd ht hn⟩
  · rw [hl]
    exact fun hm => (List.mem_append.mp hm).elim ha h.kept
  · rw [hl]
    exact tables_append (h.opened ho) hs

theorem UpToDate.idle {t : Sys} (h : UpToDate s) (ops : List Op) (ho : ¬ IsOpen s.ns)
    (ht : ¬ IsOpen t.ns) (hl : t.log = ops ++ s.log) (hd : ∀ m, .deliver m ∉ ops)
    (ha : .abandon ∉ ops) : UpToDate t := by
  refine ⟨?_, fun hn => absurd hn ht, fun _ m => ?_⟩
  · rw [hl]
    exact fun hm => (List.mem_append.mp hm).elim ha h.kept
  · rw [hl]
    exact fun hm => (List.mem_append.mp hm).elim (hd m) (h.unopened ho m)

theorem recv_upToDate (h : UpToDate s) : UpToDate (emit s (.recv s.ns.rtnlSocket)) := by
  by_cases ho : IsOpen s.ns
  · exact h.append [_] ho ho rfl (by simp) (by simp)
  · exact h.idle [_] ho ho rfl (by simp) (by simp)

theorem nsRecv_upToDate {a : Arrival} {rest : List Arrival} (h : UpToDate s)
    (hu : Undisturbed s.ns (a :: rest)) : UpToDate (rtnlNsRecv s a).1 := by
  obtain ⟨ht, ops, hl, hp⟩ := undisturbed_step hu
  exact h.append ops hu.isOpen ht.isOpen hl (fun k hk => hp _ hk) (fun hk => hp _ hk)

theorem recvAll_upToDate {msgs rest : List Arrival} (h : UpToDate s)
    (hu : Undisturbed s.ns (taken msgs ++ rest)) : UpToDate (rtnlRecvAll s msgs).1 := by
  induction msgs generalizing s with
  | nil => exact h
  | cons a msgs ih =>
    have hr := nsRecv_upToDate h hu
    have hn := (undisturbed_step hu).1
    rw [rtnlRecvAll]
    by_cases ha : refused a = true
    · rw [if_pos ((nsRecv_result s a).mpr ha)]
      exact hr
    · rw [if_neg fun h => ha ((nsRecv_result s a).mp h)]
      rw [if_neg ha] at hn
      exact ih hr hn

theorem taken_of_accepted {msgs : List Arrival} (h : msgs.any refused = false) :
    taken msgs = msgs := by
  induction msgs with
  | nil => rfl
  | cons a rest ih =>
    obtain ⟨ha, h⟩ := Bool.or_eq_false_iff.mp h
    rw [taken, if_neg (Bool.eq_false_iff.mp ha), ih h]

theorem read_upToDate {buffers : List Buffer} (h : UpToDate s)
    (hu : handed buffers ≠ [] → Undisturbed s.ns (handed buffers)) :
    UpToDate (rtnlProcessRead s buffers) := by
  induction buffers generalizing s with
  | nil => exact recv_upToDate h
  | cons b rest ih =>
    have hall : UpToDate (rtnlRecvAll (emit s (.recv s.ns.rtnlSocket)) b.msgs).1 := by
      cases hm : b.msgs with
      | nil => exact recv_upToDate h
      | cons a msgs =>
        rw [handed, hm] at hu
        exact recvAll_upToDate (recv_upToDate h) (hu (List.cons_ne_nil _ _))
    rw [read_cons]
    by_cases he : endsRead b = true
    · rw [if_pos he]
      exact hall
    · rw [if_neg he]
      apply ih hall
      intro hne
      have hr := (Bool.or_eq_false_iff.mp (Bool.eq_false_iff.mpr he)).1
      rw [handed, if_neg he, taken_of_accepted hr] at hu
      exact recvAll_undisturbed (hu (List.append_ne_nil_of_right_ne_nil _ hne)) hr

theorem syncTimeout_upToDate (h : UpToDate s) (hs : s.ns.state = .sync)
    (hk : s.ns.syncState = .opening) (outcome : OpenOutcome) (ok : Bool) :
    UpToDate (rtnlSyncTimeout s outcome ok) := by
  have hno : ∀ {ns : RtnlNs}, ns.state = .sync → ns.syncState = .opening → ¬ IsOpen ns :=
    fun hs hk ho => ho.syncState hs hk
  have hn := hno hs hk
  cases outcome with
  | noThread | noSocket =>
    rw [rtnlSyncTimeout, hk]
    exact h.idle [] hn (hno hs hk) rfl (by simp) (by simp)
  | noBind =>
    rw [rtnlSyncTimeout, hk]
    exact h.idle [.close (some s.sockets), .socket s.sockets] hn (hno hs hk) rfl (by simp) (by simp)
  | opened =>
    rw [syncTimeout_opened hk]
    refine ⟨?_, fun _ => ?_, fun hno => absurd (Or.inr ⟨hs, SyncState.noConfusion⟩) hno⟩
    · intro hm
      exact h.kept (by simpa [rtnlDumpRequest, rtnlSocketOpen, setSyncState] using hm)
    · change tables s.log = emptyNetns
      exact tables_of_undelivered (h.unopened hn)

theorem UpToDate.retimed (h : UpToDate s) (x y : Rat) :
    UpToDate { s with ns := { s.ns with timeout := x }, now := y } :=
  ⟨h.kept, h.opened, h.unopened⟩

theorem process_upToDate (h : UpToDate s) {e : Rat × Event} (hc : Steady s e) :
    UpToDate (rtnlProcess { s with now := e.1 } e.2) := by
  obtain ⟨t, e⟩ := e
  have hr := h.retimed s.ns.timeout t
  cases e with
  | openStream =>
    unfold rtnlProcess rtnlProcessOpen
    dsimp only
    split
    · exact hr
    · rename_i hs
      have hs : s.ns.state = .init := not_not.mp hs
      refine hr.idle [] ?_ ?_ rfl (by simp) (by simp)
      · exact fun ho => ho.not_init hs
      · exact fun ho => ho.syncState rfl rfl
  | closeStream =>
    unfold rtnlProcess rtnlProcessClose
    dsimp only
    split
    · exact hr
    · by_cases ho : IsOpen s.ns
      · exact hr.append [_, _, _] ho ho rfl (by simp) (by simp)
      · exact hr.idle [_, _, _] ho ho rfl (by simp) (by simp)
  | read buffers => exact read_upToDate hr hc
  | clock outcome ok =>
    apply clock_rule hr (h.retimed dblMax t)
    intro hl ht hs
    exact syncTimeout_upToDate (h.retimed dblMax t) hs (hc hl ht hs) outcome ok

theorem upToDate_fresh (old : RtnlNs) (now : Rat) :
    UpToDate (fresh old now) :=
  ⟨List.not_mem_nil, fun _ => rfl, fun _ _ => List.not_mem_nil⟩

/-- As long as no synchronisation is given up, the tables hold what was
announced, and not deleted, on the current socket. -/
theorem run_upToDate {old : RtnlNs} {now : Rat} {es : List (Rat × Event)} {u : Sys}
    (hc : Meets round Steady (fresh old now) es)
    (hr : run round (fresh old now) es = some u) :
    (u.ns.state = .ready → tables u.log = tables (sinceOpen u.log)) ∧
      ∀ newer older, u.log = newer ++ .abandon :: older → ∃ rest, older = .error :: rest := by
  have hu : UpToDate u := by
    refine invariant_of_meets (fun s e t h hc ht => ?_) (upToDate_fresh _ _) hc hr
    obtain rfl := Option.some.inj ht
    exact process_upToDate h hc
  refine ⟨fun hs => hu.opened (Or.inl hs), fun newer older hl => ?_⟩
  have hk := hu.kept
  rw [hl] at hk
  exact absurd (List.mem_append_right newer List.mem_cons_self) hk

def doneArrival (seq : UInt32) : Arrival :=
  ⟨⟨⟨20, nlmsgDone, fun _ => 0, some fun _ => none⟩, 2, seq⟩, true⟩

def withRoute : List (Rat × Event) :=
  [(0, .openStream), (1, .clock .opened true),
    (1, .read [⟨[doneArrival 1, doneArrival 2, ⟨⟨plainRoute, 2, 3⟩, true⟩, doneArrival 3,
      doneArrival 4, doneArrival 5], false⟩])]

theorem run_upToDate_sample :
    ∃ u, run round (fresh blank 0) withRoute = some u ∧
      tables u.log = tables (sinceOpen u.log) ∧ Live (tables u.log).routes 0 := by
  have hc : Meets round Steady (fresh blank 0) withRoute := by
    refine ⟨trivial, fun s hs => ⟨fun _ _ _ => ?_, fun t ht => ⟨?_, fun _ _ => trivial⟩⟩⟩
    · obtain rfl := Option.some.inj hs
      decide +kernel
    · obtain rfl := Option.some.inj hs
      obtain rfl := Option.some.inj ht
      intro _
      show Undisturbed _ _
      decide +kernel
  have h := run_upToDate hc rfl
  exact ⟨_, rfl, h.1 (by decide +kernel), by decide +kernel⟩

/-- The synchronisation is disturbed by a notification and starts over, and in
between the route disappears from the kernel. -/
def restarted : List (Rat × Event) :=
  [(0, .openStream), (1, .clock .opened true),
    (1, .read [⟨[doneArrival 1, doneArrival 2, ⟨⟨plainRoute, 2, 3⟩, true⟩,
      ⟨⟨⟨32, rtmNewlink, fun _ => 0, some fun _ => none⟩, rtmFNotify, 0⟩, true⟩], false⟩]),
    (2, .clock .opened true),
    (2, .read [⟨[doneArrival 4, doneArrival 5, doneArrival 6, doneArrival 7, doneArrival 8],
      false⟩])]

/-- The stream is ready and the route still in the table, though nothing was
announced on the current socket. -/
theorem vanished_route_kept :
    ∃ u, run round (fresh blank 0) restarted = some u ∧ u.ns.state = .ready ∧
      Live (tables u.log).routes 0 ∧ ¬ Live (tables (sinceOpen u.log)).routes 0 :=
  ⟨_, rfl, by decide +kernel, by decide +kernel, by decide +kernel⟩

end Vppsb.RtnlTables
