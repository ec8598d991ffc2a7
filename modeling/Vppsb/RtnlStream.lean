import Vppsb.NetnsTables
import Vppsb.StepRun

namespace Vppsb.RtnlStream

open Vppsb.NetnsEntry Vppsb.NetnsTables

inductive RtnlState where
  | init | sync | ready
deriving DecidableEq

inductive SyncState where
  | opening | link | addr | route4 | route6 | neigh
deriving DecidableEq

/-- The message type of a dump request and the family in its header, which is
zero otherwise. -/
structure Request where
  type : Nat
  family : Nat
deriving DecidableEq

def getLink : Request := ⟨18, 0⟩
def getAddr : Request := ⟨22, 0⟩
def getRoute4 : Request := ⟨26, 2⟩
def getRoute6 : Request := ⟨26, 10⟩
def getNeigh : Request := ⟨30, 0⟩

def nlmsgError : Nat := 2
def nlmsgDone : Nat := 3

def rtmFNotify : UInt16 := 0x100

structure RtnlMsg extends Nlmsg where
  nlmsgFlags : UInt16
  nlmsgSeq : UInt32

/-- What the code does to the world outside. Sockets are numbered in the order
in which they are opened, and a file entry has the number of its socket. The
field of a record that holds no socket is `none`. -/
inductive Op where
  | socket (k : Nat)
  | fileAdd (k : Nat)
  | fileDel (k : Option Nat)
  | close (k : Option Nat)
  | closeNs
  | recv (k : Option Nat)
  | send (k : Option Nat) (req : Request) (seq : UInt32) (ok : Bool)
  /-- A message received from the socket is handed to `rtnl_ns_recv`. -/
  | message (k : Option Nat) (m : RtnlMsg)
  /-- The callback `recv_message` of the stream. -/
  | deliver (m : RtnlMsg)
  /-- The callback `error` of the stream. -/
  | error
  /-- A synchronisation that was going on is given up. -/
  | abandon
  /-- The stream becomes ready. -/
  | ready

structure RtnlNs where
  state : RtnlState
  syncState : SyncState
  rtnlSocket : Option Nat
  unixIndex : Option Nat
  rtnlSeq : UInt32
  timeout : Rat

/-- A slot of the pool of streams, whether it is in use, the clock, the number
of sockets opened for it so far and all operations, the newest first. -/
structure Sys where
  ns : RtnlNs
  live : Bool
  now : Rat
  sockets : Nat
  log : List Op

def dblMax : Rat := 1000000000

def emit (s : Sys) (op : Op) : Sys := { s with log := op :: s.log }

def rtnlScheduleTimeout (s : Sys) (when : Rat) : Sys := { s with ns := { s.ns with timeout := when } }

def rtnlCancelTimeout (s : Sys) : Sys := rtnlScheduleTimeout s dblMax

def setSyncState (s : Sys) (k : SyncState) : Sys := { s with ns := { s.ns with syncState := k } }

def setState (s : Sys) (st : RtnlState) : Sys := { s with ns := { s.ns with state := st } }

def rtnlDumpRequest (s : Sys) (req : Request) (ok : Bool) : Sys × Int :=
  let seq := s.ns.rtnlSeq + 1
  (emit { s with ns := { s.ns with rtnlSeq := seq } } (.send s.ns.rtnlSocket req seq ok),
    if ok then 0 else -1)

def rtnlSocketClose (s : Sys) : Sys :=
  emit (emit s (.fileDel s.ns.unixIndex)) (.close s.ns.rtnlSocket)

/-- How far `rtnl_socket_open` gets: no socket is made because the thread cannot
be started or cannot enter the namespace, `socket` fails, `bind` fails, or all
goes well. -/
inductive OpenOutcome where
  | noThread | noSocket | noBind | opened

def rtnlSocketOpen (s : Sys) : OpenOutcome → Sys × Int
  | .noThread => (s, -1)
  | .noSocket => ({ s with ns := { s.ns with rtnlSocket := none } }, -3)
  | .noBind =>
    let k := s.sockets
    let s := { s with sockets := k + 1, ns := { s.ns with rtnlSocket := some k } }
    (emit (emit s (.socket k)) (.close (some k)), -3)
  | .opened =>
    let k := s.sockets
    let s := { s with sockets := k + 1
                      ns := { s.ns with rtnlSocket := some k, unixIndex := some k } }
    (emit (emit s (.socket k)) (.fileAdd k), 0)

def rtnlRcvError (m : RtnlMsg) : Int := if datalen m.toNlmsg < 20 then -1 else 0

def rtnlSyncReset (s : Sys) : Sys :=
  if s.ns.syncState = .opening then s
  else setSyncState (emit (rtnlSocketClose s) .abandon) .opening

/-- The part that the cases of `rtnl_sync_done` share. -/
def rtnlSyncNext (s : Sys) (req : Request) (next : SyncState) (ok : Bool) : Sys :=
  let r := rtnlDumpRequest s req ok
  if r.2 ≠ 0 then rtnlScheduleTimeout (rtnlSyncReset r.1) (r.1.now + 1)
  else setSyncState (rtnlScheduleTimeout r.1 (r.1.now + 1)) next

def rtnlSyncDone (s : Sys) (ok : Bool) : Sys :=
  match s.ns.syncState with
  | .opening => s
  | .link => rtnlSyncNext s getAddr .addr ok
  | .addr => rtnlSyncNext s getRoute4 .route4 ok
  | .route4 => rtnlSyncNext s getRoute6 .route6 ok
  | .route6 => rtnlSyncNext s getNeigh .neigh ok
  | .neigh => rtnlCancelTimeout (setSyncState (setState (emit s .ready) .ready) .opening)

def rtnlSyncTimeout (s : Sys) (outcome : OpenOutcome) (ok : Bool) : Sys :=
  match s.ns.syncState with
  | .opening =>
    let o := rtnlSocketOpen s outcome
    if o.2 ≠ 0 then rtnlScheduleTimeout o.1 (o.1.now + 10)
    else
      let r := rtnlDumpRequest o.1 getLink ok
      let s := if r.2 ≠ 0 then rtnlScheduleTimeout (rtnlSyncReset r.1) (r.1.now + 10) else r.1
      rtnlScheduleTimeout (setSyncState s .link) (s.now + 2)
  | _ => rtnlScheduleTimeout (rtnlSyncReset s) (s.now + 1)

def isObject (type : Nat) : Bool :=
  [rtmNewroute, rtmDelroute, rtmNewlink, rtmDellink, rtmNewaddr, rtmDeladdr, rtmNewneigh,
    rtmDelneigh].contains type

def isNotify (m : RtnlMsg) : Bool := decide (m.nlmsgFlags &&& rtmFNotify ≠ 0)

/-- The test at the top of `rtnl_ns_recv`. -/
def disturbs (ns : RtnlNs) (m : RtnlMsg) : Bool :=
  decide (ns.state = .sync) && (isNotify m || decide (m.nlmsgSeq ≠ ns.rtnlSeq))

/-- A message, and whether the dump request it leads to, if any, can be sent. -/
structure Arrival where
  msg : RtnlMsg
  ok : Bool

/-- The head of `rtnl_ns_recv`: a message that disturbs the synchronisation
restarts it, and is then handled like any other. -/
def received (s : Sys) (m : RtnlMsg) : Sys :=
  let s := emit s (.message s.ns.rtnlSocket m)
  if disturbs s.ns m then rtnlScheduleTimeout (rtnlSyncReset s) s.now else s

def rtnlNsRecv (s : Sys) (a : Arrival) : Sys × Int :=
  let s := received s a.msg
  if a.msg.nlmsgType = nlmsgDone then (rtnlSyncDone s a.ok, 0)
  else if a.msg.nlmsgType = nlmsgError then (s, rtnlRcvError a.msg)
  else if isObject a.msg.nlmsgType then (emit s (.deliver a.msg), 0)
  else (s, 0)

def rtnlProcessOpen (s : Sys) : Sys :=
  if s.ns.state ≠ .init then s
  else rtnlScheduleTimeout (setSyncState (setState s .sync) .opening) s.now

def rtnlProcessClose (s : Sys) : Sys :=
  if s.ns.state = .init then s
  else { emit (rtnlSocketClose s) .closeNs with live := false }

/-- What one call of `recv` returns: the messages in front, and whether a
malformed rest follows them. -/
structure Buffer where
  msgs : List Arrival
  malformed : Bool

def rtnlRecvAll : Sys → List Arrival → Sys × Bool
  | s, [] => (s, false)
  | s, a :: rest =>
    let r := rtnlNsRecv s a
    if r.2 ≠ 0 then (r.1, true) else rtnlRecvAll r.1 rest

/-- The buffers are those that `recv` returns before it fails. -/
def rtnlProcessRead : Sys → List Buffer → Sys
  | s, [] => emit s (.recv s.ns.rtnlSocket)
  | s, b :: rest =>
    let r := rtnlRecvAll (emit s (.recv s.ns.rtnlSocket)) b.msgs
    if r.2 || b.malformed then r.1 else rtnlProcessRead r.1 rest

def rtnlProcessTimeout (s : Sys) (outcome : OpenOutcome) (ok : Bool) : Sys :=
  match s.ns.state with
  | .sync => rtnlSyncTimeout s outcome ok
  | .init | .ready => s

inductive Event where
  | openStream
  | closeStream
  | read (buffers : List Buffer)
  | clock (outcome : OpenOutcome) (ok : Bool)

/-- One round of `rtnl_process`, as far as it concerns the stream. The clock
looks at streams in use only. -/
def rtnlProcess (s : Sys) (e : Event) : Sys :=
  match e with
  | .openStream => rtnlProcessOpen s
  | .closeStream => rtnlProcessClose s
  | .read buffers => rtnlProcessRead s buffers
  | .clock outcome ok =>
    if s.live = true ∧ s.ns.timeout < s.now then
      rtnlProcessTimeout (rtnlScheduleTimeout s dblMax) outcome ok
    else s

def round (s : Sys) (e : Rat × Event) : Option Sys := some (rtnlProcess { s with now := e.1 } e.2)

/-- The number of a socket that is opened after the one that a field holds. -/
def numberAfter : Option Nat → Nat
  | none => 0
  | some k => k + 1

/-- A stream that was just made. Only the state is set: the other fields hold what the stream
before it left in the slot, whose sockets come before those of this one. -/
def fresh (old : RtnlNs) (now : Rat) : Sys :=
  ⟨{ old with state := .init }, true, now,
    max (numberAfter old.rtnlSocket) (numberAfter old.unixIndex), []⟩

/-- A slot that had no stream yet. -/
def blank : RtnlNs := ⟨.init, .opening, none, none, 0, 0⟩

@[simp] theorem emit_ns (s : Sys) (op : Op) : (emit s op).ns = s.ns := rfl

@[simp] theorem emit_log (s : Sys) (op : Op) : (emit s op).log = op :: s.log := rfl

@[simp] theorem schedule_state (s : Sys) (t : Rat) :
    (rtnlScheduleTimeout s t).ns.state = s.ns.state := rfl

@[simp] theorem schedule_log (s : Sys) (t : Rat) : (rtnlScheduleTimeout s t).log = s.log := rfl

section

variable {P : Sys → Prop} {s : Sys}

theorem reset_opening (h : s.ns.syncState = .opening) : rtnlSyncReset s = s := if_pos h

theorem syncTimeout_reset (h : s.ns.syncState ≠ .opening) (outcome : OpenOutcome) (ok : Bool) :
    rtnlSyncTimeout s outcome ok = rtnlScheduleTimeout (rtnlSyncReset s) (s.now + 1) := by
  unfold rtnlSyncTimeout
  cases hk : s.ns.syncState with
  | opening => exact absurd hk h
  | link | addr | route4 | route6 | neigh => rfl

/-- Once there is a socket the stream waits for the links, whether or not they
could be asked for. -/
theorem syncTimeout_opened (h : s.ns.syncState = .opening) (ok : Bool) :
    rtnlSyncTimeout s .opened ok = rtnlScheduleTimeout
      (setSyncState (rtnlDumpRequest (rtnlSocketOpen s .opened).1 getLink ok).1 .link)
      (s.now + 2) := by
  rw [rtnlSyncTimeout, h]
  cases ok with
  | true => rfl
  | false =>
    have hr : rtnlSyncReset (rtnlDumpRequest (rtnlSocketOpen s .opened).1 getLink false).1 =
        (rtnlDumpRequest (rtnlSocketOpen s .opened).1 getLink false).1 := reset_opening h
    simp only [hr]
    rfl

theorem clock_rule {outcome : OpenOutcome} {ok : Bool} (hs : P s)
    (hidle : P (rtnlScheduleTimeout s dblMax))
    (hsync : s.live = true → s.ns.timeout < s.now → s.ns.state = .sync →
      P (rtnlSyncTimeout (rtnlScheduleTimeout s dblMax) outcome ok)) :
    P (rtnlProcess s (.clock outcome ok)) := by
  unfold rtnlProcess
  dsimp only
  split
  · rename_i hc
    unfold rtnlProcessTimeout
    cases hv : s.ns.state with
    | init | ready =>
      simp only [schedule_state, hv]
      exact hidle
    | sync =>
      simp only [schedule_state, hv]
      exact hsync hc.1 hc.2 hv
  · exact hs

theorem nsRecv_rule {a : Arrival} (hsame : P (received s a.msg))
    (hdone : a.msg.nlmsgType = nlmsgDone → P (rtnlSyncDone (received s a.msg) a.ok))
    (hdeliver : P (emit (received s a.msg) (.deliver a.msg))) : P (rtnlNsRecv s a).1 := by
  unfold rtnlNsRecv
  by_cases h0 : a.msg.nlmsgType = nlmsgDone
  · rw [if_pos h0]
    exact hdone h0
  by_cases h1 : a.msg.nlmsgType = nlmsgError
  · rw [if_neg h0, if_pos h1]
    exact hsame
  by_cases h2 : isObject a.msg.nlmsgType = true
  · rw [if_neg h0, if_neg h1, if_pos h2]
    exact hdeliver
  · rw [if_neg h0, if_neg h1, if_neg h2]
    exact hsame

theorem nsRecv_done {a : Arrival} (h : a.msg.nlmsgType = nlmsgDone) :
    (rtnlNsRecv s a).1 = rtnlSyncDone (received s a.msg) a.ok := by
  rw [rtnlNsRecv]
  simp only [if_pos h]

theorem state_of_disturbs {m : RtnlMsg} (h : disturbs s.ns m = true) : s.ns.state = .sync :=
  of_decide_eq_true (Bool.and_eq_true_iff.mp h).1

theorem received_of_calm {m : RtnlMsg} (h : disturbs s.ns m = false) :
    received s m = emit s (.message s.ns.rtnlSocket m) := by
  rw [received, emit_ns, if_neg (Bool.eq_false_iff.mp h)]

theorem received_of_disturbs {m : RtnlMsg} (h : disturbs s.ns m = true) :
    received s m =
      rtnlScheduleTimeout (rtnlSyncReset (emit s (.message s.ns.rtnlSocket m))) s.now := by
  rw [received, emit_ns, if_pos h]
  rfl

theorem recvAll_rule {msgs : List Arrival} (hs : P s)
    (hmsg : ∀ t a, P t → P (rtnlNsRecv t a).1) : P (rtnlRecvAll s msgs).1 := by
  induction msgs generalizing s with
  | nil => exact hs
  | cons a rest ih =>
    rw [rtnlRecvAll]
    split
    · exact hmsg s a hs
    · exact ih (hmsg s a hs)

/-- What holds before a read and survives each call of `recv` and each message
holds after it. -/
theorem read_rule {buffers : List Buffer} (hs : P s)
    (hrecv : ∀ t, P t → P (emit t (.recv t.ns.rtnlSocket)))
    (hmsg : ∀ t a, P t → P (rtnlNsRecv t a).1) : P (rtnlProcessRead s buffers) := by
  induction buffers generalizing s with
  | nil => exact hrecv s hs
  | cons b rest ih =>
    rw [rtnlProcessRead]
    have hall : P (rtnlRecvAll (emit s (.recv s.ns.rtnlSocket)) b.msgs).1 :=
      recvAll_rule (hrecv s hs) hmsg
    split
    · exact hall
    · exact ih hall

/-- A refused message ends the loop, whatever the state of the stream. -/
def refused (a : Arrival) : Bool :=
  decide (a.msg.nlmsgType = nlmsgError) && decide (rtnlRcvError a.msg ≠ 0)

theorem nsRecv_result (s : Sys) (a : Arrival) :
    (rtnlNsRecv s a).2 ≠ 0 ↔ refused a = true := by
  unfold rtnlNsRecv refused
  by_cases h0 : a.msg.nlmsgType = nlmsgDone
  · have h1 : a.msg.nlmsgType ≠ nlmsgError := by
      rw [h0]
      decide
    rw [if_pos h0, decide_eq_false h1]
    simp
  by_cases h1 : a.msg.nlmsgType = nlmsgError
  · rw [if_neg h0, if_pos h1, decide_eq_true h1]
    simp
  · rw [if_neg h0, if_neg h1, decide_eq_false h1]
    split <;> simp

end

end Vppsb.RtnlStream
