import Vppsb.RtnlCalm
import Vppsb.HandleLog

namespace Vppsb.RtnlSockets

open Vppsb.StepRun Vppsb.NetnsTables Vppsb.RtnlStream Vppsb.RtnlCalm Vppsb.HandleLog

def socketAction : Op → Action
  | .socket k => .acquire k
  | .close k => .release k
  | .recv k | .send k _ _ _ => .use k
  | _ => .other

def entryAction : Op → Action
  | .fileAdd k => .acquire k
  | .fileDel k => .release k
  | _ => .other

/-- The socket and the file entry that are open, with the number of sockets
opened so far. -/
structure Owns (cur : Option Nat) (s : Sys) : Prop where
  sockets : Disciplined s.sockets cur (s.log.map socketAction)
  entries : Disciplined s.sockets cur (s.log.map entryAction)

structure Connected (k : Nat) (s : Sys) : Prop where
  live : s.live = true
  owns : Owns (some k) s
  socket : s.ns.rtnlSocket = some k
  entry : s.ns.unixIndex = some k
  mode : (s.ns.state = .ready ∧ s.ns.syncState = .opening) ∨
    (s.ns.state = .sync ∧ s.ns.syncState ≠ .opening)

structure Opening (s : Sys) : Prop where
  live : s.live = true
  owns : Owns none s
  state : s.ns.state = .sync
  syncState : s.ns.syncState = .opening

def Running (s : Sys) : Prop := (∃ k, Connected k s) ∨ Opening s

/-- Before it is opened and after it was closed a stream has no socket. -/
def Sound (s : Sys) : Prop := Running s ∨ (Owns none s ∧ (s.live = false ∨ s.ns.state = .init))

variable {s : Sys} {cur : Option Nat} {k : Nat}

theorem Owns.other (h : Owns cur s) {op : Op} (hs : socketAction op = .other)
    (he : entryAction op = .other) : Owns cur (emit s op) := by
  constructor
  · rw [emit_log, List.map_cons, hs]
    exact h.sockets.other
  · rw [emit_log, List.map_cons, he]
    exact h.entries.other

theorem Owns.recv (h : Owns (some k) s) : Owns (some k) (emit s (.recv (some k))) :=
  ⟨h.sockets.use, h.entries.other⟩

theorem Owns.socketClose (h : Owns (some k) s) (hs : s.ns.rtnlSocket = some k)
    (he : s.ns.unixIndex = some k) : Owns none (rtnlSocketClose s) := by
  unfold rtnlSocketClose
  rw [hs, he]
  exact ⟨h.sockets.other.release, h.entries.release.other⟩

theorem Connected.emit (h : Connected k s) {op : Op} (hs : socketAction op = .other)
    (he : entryAction op = .other) : Connected k (emit s op) :=
  ⟨h.live, h.owns.other hs he, h.socket, h.entry, h.mode⟩

theorem Opening.emit (h : Opening s) {op : Op} (hs : socketAction op = .other)
    (he : entryAction op = .other) : Opening (emit s op) :=
  ⟨h.live, h.owns.other hs he, h.state, h.syncState⟩

theorem Running.emit (h : Running s) {op : Op} (hs : socketAction op = .other)
    (he : entryAction op = .other) : Running (emit s op) := by
  cases h with
  | inl h =>
    obtain ⟨k, h⟩ := h
    exact Or.inl ⟨k, h.emit hs he⟩
  | inr h => exact Or.inr (h.emit hs he)

theorem Running.retimed (h : Running s) (x y : Rat) :
    Running { s with ns := { s.ns with timeout := x }, now := y } := by
  cases h with
  | inl h =>
    obtain ⟨k, h⟩ := h
    exact Or.inl ⟨k, h.live, ⟨h.owns.sockets, h.owns.entries⟩, h.socket, h.entry, h.mode⟩
  | inr h => exact Or.inr ⟨h.live, ⟨h.owns.sockets, h.owns.entries⟩, h.state, h.syncState⟩

theorem Running.schedule (h : Running s) (t : Rat) : Running (rtnlScheduleTimeout s t) :=
  h.retimed t s.now

theorem Sound.retimed (h : Sound s) (x y : Rat) :
    Sound { s with ns := { s.ns with timeout := x }, now := y } := by
  cases h with
  | inl h => exact Or.inl (h.retimed x y)
  | inr h => exact Or.inr ⟨⟨h.1.sockets, h.1.entries⟩, h.2⟩

theorem Running.reset (h : Running s) (hs : s.ns.state = .sync) : Opening (rtnlSyncReset s) := by
  cases h with
  | inl h =>
    obtain ⟨k, h⟩ := h
    have hne : s.ns.syncState ≠ .opening :=
      h.mode.elim (fun hm => absurd (hs.symm.trans hm.1) (by decide)) And.right
    rw [rtnlSyncReset, if_neg hne]
    have hc := (h.owns.socketClose h.socket h.entry).other
      (show socketAction .abandon = .other from rfl) rfl
    exact ⟨h.live, ⟨hc.sockets, hc.entries⟩, hs, rfl⟩
  | inr h =>
    rw [rtnlSyncReset, if_pos h.syncState]
    exact h

theorem syncNext_running (h : Connected k s) (hs : s.ns.state = .sync)
    (hk : s.ns.syncState ≠ .opening) (req : Request) {next : SyncState} (hn : next ≠ .opening)
    (ok : Bool) : Running (rtnlSyncNext s req next ok) := by
  have hc : Connected k (rtnlDumpRequest s req ok).1 := by
    unfold rtnlDumpRequest
    rw [h.socket]
    exact ⟨h.live, ⟨h.owns.sockets.use, h.owns.entries.other⟩, h.socket, h.entry, Or.inr ⟨hs, hk⟩⟩
  unfold rtnlSyncNext
  dsimp only
  split
  · have hr : Opening (rtnlSyncReset (rtnlDumpRequest s req ok).1) :=
      Running.reset (Or.inl ⟨k, hc⟩) hs
    exact Running.schedule (Or.inr hr) _
  · exact Or.inl ⟨k, hc.live, ⟨hc.owns.sockets, hc.owns.entries⟩, hc.socket, hc.entry,
      Or.inr ⟨hs, hn⟩⟩

theorem Running.connected (h : Running s) (hk : s.ns.syncState ≠ .opening) :
    ∃ k, Connected k s ∧ s.ns.state = .sync := by
  cases h with
  | inl h =>
    obtain ⟨k, h⟩ := h
    exact ⟨k, h, (h.mode.resolve_left fun hm => hk hm.2).1⟩
  | inr h => exact absurd h.syncState hk

theorem syncDone_running (h : Running s) (ok : Bool) : Running (rtnlSyncDone s ok) := by
  by_cases hk : s.ns.syncState = .opening
  · rw [rtnlSyncDone, hk]
    exact h
  obtain ⟨k, hc, hs⟩ := h.connected hk
  have hnext : ∀ req next, next ≠ .opening → Running (rtnlSyncNext s req next ok) :=
    fun req _ hn => syncNext_running hc hs hk req hn ok
  unfold rtnlSyncDone
  cases hv : s.ns.syncState with
  | opening => exact absurd hv hk
  | link => exact hnext _ _ SyncState.noConfusion
  | addr => exact hnext _ _ SyncState.noConfusion
  | route4 => exact hnext _ _ SyncState.noConfusion
  | route6 => exact hnext _ _ SyncState.noConfusion
  | neigh =>
    have hr := hc.emit (show socketAction .ready = .other from rfl) rfl
    exact Or.inl ⟨k, hr.live, ⟨hr.owns.sockets, hr.owns.entries⟩, hr.socket, hr.entry,
      Or.inl ⟨rfl, rfl⟩⟩

theorem received_running (h : Running s) (m : RtnlMsg) : Running (received s m) := by
  have he := h.emit (show socketAction (.message s.ns.rtnlSocket m) = .other from rfl) rfl
  cases hd : disturbs s.ns m with
  | false =>
    rw [received_of_calm hd]
    exact he
  | true =>
    have hr := he.reset (state_of_disturbs hd)
    rw [received_of_disturbs hd]
    exact Running.schedule (Or.inr hr) _

theorem nsRecv_running (h : Running s) (a : Arrival) : Running (rtnlNsRecv s a).1 := by
  have hr := received_running h a.msg
  apply nsRecv_rule hr
  · exact fun _ => syncDone_running hr a.ok
  · exact hr.emit rfl rfl

theorem Running.of_undisturbed (h : Running s) {msgs : List Arrival}
    (hu : Undisturbed s.ns msgs) : ∃ k, Connected k s := by
  cases h with
  | inl h => exact h
  | inr h =>
    have ho := hu.isOpen
    exact absurd h.syncState (ho.syncState h.state)

theorem read_running {buffers : List Buffer} (h : Running s)
    (hu : Undisturbed s.ns (drained buffers)) : Running (rtnlProcessRead s buffers) := by
  induction buffers generalizing s with
  | nil =>
    obtain ⟨k, hc⟩ := h.of_undisturbed hu
    rw [rtnlProcessRead, hc.socket]
    exact Or.inl ⟨k, hc.live, hc.owns.recv, hc.socket, hc.entry, hc.mode⟩
  | cons b rest ih =>
    obtain ⟨k, hc⟩ := h.of_undisturbed hu
    have hrecv : Running (emit s (.recv s.ns.rtnlSocket)) := by
      rw [hc.socket]
      exact Or.inl ⟨k, hc.live, hc.owns.recv, hc.socket, hc.entry, hc.mode⟩
    have hall : Running (rtnlRecvAll (emit s (.recv s.ns.rtnlSocket)) b.msgs).1 :=
      recvAll_rule hrecv fun t a ht => nsRecv_running ht a
    rw [read_cons]
    by_cases he : endsRead b = true
    · rw [if_pos he]
      exact hall
    · rw [drained, if_neg he] at hu
      rw [if_neg he]
      apply ih hall
      apply recvAll_undisturbed
      · exact hu
      · exact (Bool.or_eq_false_iff.mp (Bool.eq_false_iff.mpr he)).1

theorem Running.opening (h : Running s) (hs : s.ns.state = .sync)
    (hk : s.ns.syncState = .opening) : Opening s := by
  cases h with
  | inl h =>
    obtain ⟨k, h⟩ := h
    cases h.mode with
    | inl hm => exact absurd (hs.symm.trans hm.1) (by decide)
    | inr hm => exact absurd hk hm.2
  | inr h => exact h

theorem syncTimeout_running (h : Running s) (hs : s.ns.state = .sync) (outcome : OpenOutcome)
    (ok : Bool) : Running (rtnlSyncTimeout s outcome ok) := by
  by_cases hk : s.ns.syncState = .opening
  · obtain ⟨hl, ⟨hsock, hent⟩, _, _⟩ := h.opening hs hk
    cases outcome with
    | noThread =>
      rw [rtnlSyncTimeout, hk]
      exact Running.schedule h _
    | noSocket =>
      rw [rtnlSyncTimeout, hk]
      exact Or.inr ⟨hl, ⟨hsock, hent⟩, hs, hk⟩
    | noBind =>
      rw [rtnlSyncTimeout, hk]
      exact Or.inr ⟨hl, ⟨hsock.acquire.release, hent.weaken.other.other⟩, hs, hk⟩
    | opened =>
      rw [syncTimeout_opened hk]
      exact Or.inl ⟨s.sockets, hl, ⟨hsock.acquire.other.use, hent.other.acquire.other⟩, rfl, rfl,
        Or.inr ⟨hs, SyncState.noConfusion⟩⟩
  · rw [syncTimeout_reset hk]
    exact Running.schedule (Or.inr (h.reset hs)) _

def current (s : Sys) : Option Nat :=
  if s.live = true ∧ IsOpen s.ns then s.ns.rtnlSocket else none

/-- A stream is closed before it was opened, or while it has a socket, and read
only while it has one, which it keeps up to the last call of `recv`. -/
def Safe (s : Sys) (e : Rat × Event) : Prop :=
  match e.2 with
  | .closeStream => s.ns.state = .init ∨ (s.live = true ∧ IsOpen s.ns)
  | .read buffers => s.live = true ∧ Undisturbed s.ns (drained buffers)
  | .openStream | .clock _ _ => True

theorem Sound.owns (h : Sound s) : Owns (current s) s := by
  unfold current
  cases h with
  | inl h =>
    cases h with
    | inl h =>
      obtain ⟨k, h⟩ := h
      have ho : IsOpen s.ns := h.mode.imp And.left id
      rw [if_pos ⟨h.live, ho⟩, h.socket]
      exact h.owns
    | inr h =>
      rw [if_neg]
      · exact h.owns
      · exact fun ⟨_, ho⟩ => ho.syncState h.state h.syncState
  | inr h =>
    rw [if_neg]
    · exact h.1
    · intro ⟨hl, ho⟩
      cases h.2 with
      | inl hf => exact Bool.noConfusion (hl.symm.trans hf)
      | inr hi => exact ho.not_init hi

theorem Sound.running (h : Sound s) (hl : s.live = true) (hs : s.ns.state ≠ .init) : Running s :=
  h.resolve_right fun h => h.2.elim (fun hf => Bool.noConfusion (hl.symm.trans hf)) hs

theorem processOpen_sound (h : Sound s) : Sound (rtnlProcessOpen s) := by
  unfold rtnlProcessOpen
  by_cases hs : s.ns.state = .init
  · rw [if_neg (not_not.mpr hs)]
    have ho := h.owns
    rw [current, if_neg] at ho
    · cases hl : s.live with
      | true => exact Or.inl (Or.inr ⟨hl, ⟨ho.sockets, ho.entries⟩, rfl, rfl⟩)
      | false => exact Or.inr ⟨⟨ho.sockets, ho.entries⟩, Or.inl hl⟩
    · exact fun ⟨_, ho⟩ => ho.not_init hs
  · rw [if_pos hs]
    exact h

theorem processClose_sound (h : Sound s)
    (hc : s.ns.state = .init ∨ (s.live = true ∧ IsOpen s.ns)) : Sound (rtnlProcessClose s) := by
  unfold rtnlProcessClose
  by_cases hs : s.ns.state = .init
  · rw [if_pos hs]
    exact h
  · rw [if_neg hs]
    obtain ⟨hl, ho⟩ := hc.resolve_left hs
    cases h.running hl hs with
    | inl h =>
      obtain ⟨k, h⟩ := h
      have hc := (h.owns.socketClose h.socket h.entry).other
        (show socketAction .closeNs = .other from rfl) rfl
      exact Or.inr ⟨⟨hc.sockets, hc.entries⟩, Or.inl rfl⟩
    | inr h => exact absurd h.syncState (ho.syncState h.state)

theorem process_sound (h : Sound s) {e : Rat × Event} (hc : Safe s e) :
    Sound (rtnlProcess s e.2) := by
  obtain ⟨t, e⟩ := e
  cases e with
  | openStream => exact processOpen_sound h
  | closeStream => exact processClose_sound h hc
  | read buffers =>
    obtain ⟨hl, hu⟩ := hc
    have hr := h.running hl hu.isOpen.not_init
    exact Or.inl (read_running hr hu)
  | clock outcome ok =>
    apply clock_rule h (h.retimed dblMax s.now)
    intro hl _ hs
    have hr := (h.running hl (by rw [hs]; decide)).schedule dblMax
    exact Or.inl (syncTimeout_running hr hs outcome ok)

theorem round_sound {t : Sys} {e : Rat × Event} (h : Sound s) (hc : Safe s e)
    (ht : round s e = some t) : Sound t := by
  obtain rfl := Option.some.inj ht
  exact process_sound (h.retimed s.ns.timeout e.1) hc

theorem sound_fresh (old : RtnlNs) (now : Rat) :
    Sound (fresh old now) :=
  Or.inr ⟨⟨disciplined_nil _, disciplined_nil _⟩, Or.inr rfl⟩

/-- As long as the stream is closed and read only when it has a socket, every
operation on a socket or a file entry is one on the open one, and each but the
open one has been closed, and its entry deleted, exactly once. -/
theorem run_disciplined {old : RtnlNs} {now : Rat} {es : List (Rat × Event)} {u : Sys}
    (hc : Meets round Safe (fresh old now) es)
    (hr : run round (fresh old now) es = some u) :
    Legal (u.log.map socketAction) ∧ Legal (u.log.map entryAction) ∧
      ∀ k, (.acquire k ∈ u.log.map socketAction →
        (u.log.map socketAction).count (.release (some k)) =
          if current u = some k then 0 else 1) ∧
        (.acquire k ∈ u.log.map entryAction →
          (u.log.map entryAction).count (.release (some k)) =
            if current u = some k then 0 else 1) := by
  have hs : Sound u :=
    invariant_of_meets (fun s e t h hc ht => round_sound h hc ht) (sound_fresh _ _) hc hr
  obtain ⟨hsock, hent⟩ := hs.owns
  exact ⟨hsock.legal, hent.legal, fun k => ⟨hsock.count_release, hent.count_release⟩⟩

def openAndClose : List (Rat × Event) :=
  [(0, .openStream), (1, .clock .opened true), (2, .closeStream)]

theorem run_disciplined_sample :
    ∃ u, run round (fresh blank 0) openAndClose = some u ∧
      Legal (u.log.map socketAction) ∧ Legal (u.log.map entryAction) := by
  have hc : Meets round Safe (fresh blank 0) openAndClose := by
    refine ⟨trivial, fun s hs => ⟨trivial, fun t ht => ⟨?_, fun _ _ => trivial⟩⟩⟩
    obtain rfl := Option.some.inj hs
    obtain rfl := Option.some.inj ht
    exact Or.inr ⟨by decide +kernel, by decide +kernel⟩
  have h := run_disciplined hc rfl
  exact ⟨_, rfl, h.1, h.2.1⟩

/-- A stream that is closed before its socket is opened: a descriptor that it
never got is closed. -/
theorem closed_before_open :
    ∃ u, run round (fresh blank 0) [(0, .openStream), (0, .closeStream)] = some u ∧
      ¬ Legal (u.log.map socketAction) := by
  refine ⟨_, rfl, fun h => ?_⟩
  obtain ⟨k, hk, _⟩ := h.2.1
  cases hk

end Vppsb.RtnlSockets
