import Mathlib.Data.List.Perm.Basic
import Vppsb.NetnsTables
import Vppsb.RtnlStream

namespace Vppsb.NetnsWorld

open Vppsb.PoolStore Vppsb.KeyedPool Vppsb.NetnsTables Vppsb.RtnlStream

/-- A namespace. `serial` numbers the namespaces in the order in which they are
made; it is not in the source. -/
structure NetnsP where
  name : List UInt8
  netns : Netns
  rtnlHandle : Nat
  subscriberCount : Nat
  serial : Nat

/-- A stream, with the opaque data of its template. The source does not keep the
namespace it was opened for and whether `rtnl_stream_close` was called on it. -/
structure Stream where
  ns : RtnlNs
  streamOpaque : Nat
  owner : Nat
  closing : Bool

/-- An event signalled to `rtnl-process`, with the index of its stream. `owner` is
the namespace that the stream was opened for; the source does not keep it. -/
inductive Signal where
  | opened (i : Nat)
  | closed (i : Nat)
  | read (i owner : Nat)
deriving DecidableEq

/-- `held` lists the handles that callers got and did not close, `made` counts
the namespaces made so far. -/
structure World where
  netnss : Pool NetnsP
  handles : Pool NetnsHandle
  streams : Pool Stream
  pending : List Signal
  sockets : Nat
  held : List Nat
  made : Nat

def rtnlNetnsNamelen : Nat := 128

def Signal.stream : Signal → Nat
  | .opened i | .closed i | .read i _ => i

/-- Events of one type are delivered in the order in which they were signalled. -/
def Signal.sameType : Signal → Signal → Bool
  | .opened _, .opened _ | .closed _, .closed _ | .read _ _, .read _ _ => true
  | _, _ => false

def Signal.event (buffers : List Buffer) : Signal → Event
  | .opened _ => .openStream
  | .closed _ => .closeStream
  | .read _ _ => .read buffers

/-- The event at place `k`, if none of its type is in front of it, and the events
that are left. -/
def takes (pending : List Signal) (k : Nat) : Option (Signal × List Signal) :=
  match pending[k]? with
  | some s => if (pending.take k).any s.sameType then none else some (s, pending.eraseIdx k)
  | none => none

/-- The namespace after what a stream delivered to it, the newest operation
first. -/
def absorb (ns : Netns) : List Op → Netns
  | [] => ns
  | .deliver m :: older => (nsRecvRtnl (absorb ns older) m.toNlmsg).1
  | _ :: older => absorb ns older

/-- `rtnl_process_close` frees the stream, unless it was not opened yet. -/
def closes (ns : RtnlNs) : Event → Bool
  | .closeStream => decide (ns.state ≠ .init)
  | _ => false

def processStream (w : World) (now : Rat) (i : Nat) (e : Event) : World :=
  let x := w.streams.elt i
  let s := rtnlProcess ⟨x.ns, decide (Live w.streams i), now, w.sockets, []⟩ e
  let streams := set w.streams i { x with ns := s.ns }
  let ns := w.netnss.elt x.streamOpaque
  { w with
    streams := if closes x.ns e then put streams i else streams
    netnss := set w.netnss x.streamOpaque { ns with netns := absorb ns.netns s.log }
    sockets := s.sockets }

/-- `opens` tells whether the file of the namespace can be opened. -/
def rtnlStreamOpen (w : World) (streamOpaque : Nat) (opens : Bool) : World × Option Nat :=
  if opens then
    let i := fresh w.streams
    let ns := (w.streams.elt i).ns
    let x : Stream := ⟨{ ns with state := .init }, streamOpaque, w.made, false⟩
    ({ w with streams := insert w.streams x, pending := w.pending ++ [.opened i] }, some i)
  else (w, none)

def rtnlStreamClose (w : World) (i : Nat) : World :=
  { w with
    streams := set w.streams i { w.streams.elt i with closing := true }
    pending := w.pending ++ [.closed i] }

def netnsGet (w : World) (name : List UInt8) (opens : Bool) : World × Option Nat :=
  match findLive (fun ns => decide (ns.name = name)) w.netnss with
  | some j => (w, some j)
  | none =>
    if name.length > rtnlNetnsNamelen then (w, none)
    else
      let j := fresh w.netnss
      let r := rtnlStreamOpen { w with netnss := get w.netnss } j opens
      match r.2 with
      | none => ({ r.1 with netnss := put r.1.netnss j }, none)
      | some i =>
        let ns : NetnsP := ⟨name, emptyNetns, i, 0, w.made⟩
        ({ r.1 with netnss := set r.1.netnss j ns, made := w.made + 1 }, some j)

def netnsOpen (w : World) (name : List UInt8) (notify opens : Bool) : World × Option Nat :=
  let r := netnsGet w name opens
  match r.2 with
  | none => (r.1, none)
  | some j =>
    let p := fresh r.1.handles
    let ns := r.1.netnss.elt j
    ({ r.1 with
        handles := insert r.1.handles ⟨notify, j⟩
        netnss := set r.1.netnss j { ns with subscriberCount := ns.subscriberCount + 1 }
        held := p :: r.1.held }, some p)

def netnsDestroy (w : World) (j : Nat) : World :=
  let w := rtnlStreamClose w (w.netnss.elt j).rtnlHandle
  let ns := w.netnss.elt j
  { w with netnss := put (set w.netnss j { ns with netns := emptyNetns }) j }

/-- `netns_close` calls `pool_put(h, nm->handles)`, which takes what stands in front
of `h` for the header of a pool. That is the header of `nm->handles` for the first
handle only, and then the element is that handle. In front of any other there is
the handle before it: its fields are taken for the bitmap and the free list, and
the call writes outside of the pool. -/
def poolPutSwapped (handles : Pool NetnsHandle) (h : Nat) : Option (Pool NetnsHandle) :=
  if h = 0 then some (put handles 0) else none

def netnsClose (w : World) (h : Nat) : Option World :=
  let j := (w.handles.elt h).netnsIndex
  let ns := w.netnss.elt j
  (poolPutSwapped w.handles h).map fun handles =>
    let count := ns.subscriberCount - 1
    let w := { w with
      handles := handles
      netnss := set w.netnss j { ns with subscriberCount := count }
      held := w.held.erase h }
    if count = 0 then netnsDestroy w j else w

inductive Act where
  | netnsOpen (name : List UInt8) (notify opens : Bool)
  | netnsClose (h : Nat)
  /-- `rtnl_read_cb` for a stream. -/
  | readReady (i : Nat)
  /-- `rtnl_process` takes up an event. -/
  | deliver (k : Nat) (now : Rat) (buffers : List Buffer)
  | clock (now : Rat) (outcome : Nat → OpenOutcome) (ok : Nat → Bool)

/-- Handles are closed once each, by those who got them. -/
def step (w : World) : Act → Option World
  | .netnsOpen name notify opens => some (netnsOpen w name notify opens).1
  | .netnsClose h => if h ∈ w.held then netnsClose w h else none
  | .readReady i =>
    if i < w.streams.len then
      some { w with pending := w.pending ++ [.read i (w.streams.elt i).owner] }
    else none
  | .deliver k now buffers => (takes w.pending k).map fun p =>
      processStream { w with pending := p.2 } now p.1.stream (p.1.event buffers)
  | .clock now outcome ok => some ((liveIndices w.streams).foldl
      (fun w i => processStream w now i (.clock (outcome i) (ok i))) w)

def start : World :=
  let ns : RtnlNs := ⟨.init, .opening, none, none, 0, 0⟩
  ⟨empty ⟨[], emptyNetns, 0, 0, 0⟩, empty ⟨false, 0⟩, empty ⟨ns, 0, 0, false⟩, [], 0, [], 0⟩

theorem takes_perm {pending rest : List Signal} {k : Nat} {s : Signal}
    (h : takes pending k = some (s, rest)) : (s :: rest).Perm pending := by
  unfold takes at h
  cases hk : pending[k]? with
  | none =>
    rw [hk] at h
    cases h
  | some x =>
    simp only [hk] at h
    split at h
    · cases h
    · cases h
      obtain ⟨hl, rfl⟩ := List.getElem?_eq_some_iff.mp hk
      exact List.getElem_cons_eraseIdx_perm hl

section

variable {s : Sys}

def Undelivered (s : Sys) : Prop := ∀ m, .deliver m ∉ s.log

theorem absorb_undelivered {log : List Op} (h : ∀ m, .deliver m ∉ log) (ns : Netns) :
    absorb ns log = ns := by
  induction log with
  | nil => rfl
  | cons op older ih =>
    have ih := ih fun m hm => h m (List.mem_cons_of_mem op hm)
    cases op with
    | deliver m => exact absurd List.mem_cons_self (h m)
    | _ => exact ih

theorem Undelivered.emit (h : Undelivered s) {op : Op} (ho : ∀ m, op ≠ .deliver m) :
    Undelivered (emit s op) := by
  intro m hm
  cases List.mem_cons.mp hm with
  | inl he => exact ho m he.symm
  | inr hm => exact h m hm

theorem Undelivered.reset (h : Undelivered s) : Undelivered (rtnlSyncReset s) := by
  unfold rtnlSyncReset
  split
  · exact h
  · have hc : Undelivered (rtnlSocketClose s) := (h.emit (by simp)).emit (by simp)
    have ha : Undelivered (RtnlStream.emit (rtnlSocketClose s) .abandon) := hc.emit (by simp)
    exact ha

theorem Undelivered.dump (h : Undelivered s) (req : Request) (ok : Bool) :
    Undelivered (rtnlDumpRequest s req ok).1 := by
  have he : Undelivered (RtnlStream.emit s (.send s.ns.rtnlSocket req (s.ns.rtnlSeq + 1) ok)) :=
    h.emit (by simp)
  exact he

theorem Undelivered.syncNext (h : Undelivered s) (req : Request) (next : SyncState) (ok : Bool) :
    Undelivered (rtnlSyncNext s req next ok) := by
  unfold rtnlSyncNext
  dsimp only
  split
  · exact (h.dump req ok).reset
  · exact h.dump req ok

theorem Undelivered.syncDone (h : Undelivered s) (ok : Bool) : Undelivered (rtnlSyncDone s ok) := by
  unfold rtnlSyncDone
  cases s.ns.syncState with
  | opening => exact h
  | neigh =>
    have he : Undelivered (RtnlStream.emit s .ready) := h.emit (by simp)
    exact he
  | link | addr | route4 | route6 => exact h.syncNext _ _ ok

theorem Undelivered.socketOpen (h : Undelivered s) (outcome : OpenOutcome) :
    Undelivered (rtnlSocketOpen s outcome).1 := by
  intro m hm
  cases outcome with
  | noThread | noSocket => exact h m hm
  | noBind | opened =>
    have hm : Op.deliver m ∈ s.log := by simpa [rtnlSocketOpen] using hm
    exact h m hm

theorem Undelivered.syncTimeout (h : Undelivered s) (outcome : OpenOutcome) (ok : Bool) :
    Undelivered (rtnlSyncTimeout s outcome ok) := by
  by_cases hk : s.ns.syncState = .opening
  · cases outcome with
    | opened =>
      rw [syncTimeout_opened hk]
      exact (h.socketOpen .opened).dump getLink ok
    | noThread | noSocket | noBind =>
      rw [rtnlSyncTimeout, hk]
      exact h.socketOpen _
  · rw [syncTimeout_reset hk]
    exact h.reset

theorem Undelivered.received (h : Undelivered s) (m : RtnlMsg) : Undelivered (received s m) := by
  have he : Undelivered (RtnlStream.emit s (.message s.ns.rtnlSocket m)) := h.emit (by simp)
  cases hd : disturbs s.ns m with
  | false =>
    rw [received_of_calm hd]
    exact he
  | true =>
    rw [received_of_disturbs hd]
    exact he.reset

theorem Undelivered.nsRecv (h : Undelivered s) {a : Arrival}
    (ha : isObject a.msg.nlmsgType = false) : Undelivered (rtnlNsRecv s a).1 := by
  have hr := h.received a.msg
  rw [rtnlNsRecv]
  split
  · exact hr.syncDone a.ok
  · split
    · exact hr
    · rw [ha, if_neg Bool.false_ne_true]
      exact hr

def Objectless (buffers : List Buffer) : Prop :=
  ∀ b ∈ buffers, ∀ a ∈ b.msgs, isObject a.msg.nlmsgType = false

theorem Undelivered.recvAll {msgs : List Arrival} (h : Undelivered s)
    (hm : ∀ a ∈ msgs, isObject a.msg.nlmsgType = false) : Undelivered (rtnlRecvAll s msgs).1 := by
  induction msgs generalizing s with
  | nil => exact h
  | cons a rest ih =>
    have hr := h.nsRecv (hm a List.mem_cons_self)
    rw [rtnlRecvAll]
    split
    · exact hr
    · exact ih hr fun b hb => hm b (List.mem_cons_of_mem a hb)

theorem Undelivered.processRead {buffers : List Buffer} (h : Undelivered s)
    (hb : Objectless buffers) : Undelivered (rtnlProcessRead s buffers) := by
  induction buffers generalizing s with
  | nil => exact h.emit (by simp)
  | cons b rest ih =>
    have hr : Undelivered (RtnlStream.emit s (.recv s.ns.rtnlSocket)) := h.emit (by simp)
    have ha := hr.recvAll (hb b List.mem_cons_self)
    rw [rtnlProcessRead]
    split
    · exact ha
    · exact ih ha fun c hc => hb c (List.mem_cons_of_mem b hc)

def Silent : Event → Prop
  | .read buffers => Objectless buffers
  | _ => True

theorem Undelivered.process (h : Undelivered s) {e : Event} (he : Silent e) :
    Undelivered (rtnlProcess s e) := by
  cases e with
  | openStream =>
    rw [rtnlProcess, rtnlProcessOpen]
    split
    · exact h
    · exact h
  | closeStream =>
    rw [rtnlProcess, rtnlProcessClose]
    split
    · exact h
    · have hc : Undelivered (rtnlSocketClose s) := (h.emit (by simp)).emit (by simp)
      have hn : Undelivered (RtnlStream.emit (rtnlSocketClose s) .closeNs) := hc.emit (by simp)
      exact hn
  | read buffers => exact h.processRead he
  | clock outcome ok =>
    apply clock_rule h h
    intro _ _ _
    have hs : Undelivered (rtnlScheduleTimeout s dblMax) := h
    exact hs.syncTimeout outcome ok

end

variable {w : World} {now : Rat} {i j : Nat} {e : Event}

theorem process_netns {β : Type} (f : NetnsP → β) (hf : ∀ ns x, f { ns with netns := x } = f ns) :
    f ((processStream w now i e).netnss.elt j) = f (w.netnss.elt j) := by
  unfold processStream
  dsimp only
  by_cases hj : j = (w.streams.elt i).streamOpaque
  · rw [hj, elt_set_self]
    exact hf _ _
  · rw [elt_set_of_ne hj]

/-- Nothing of a stream but the state of its machine changes. -/
theorem process_stream {β : Type} (f : Stream → β) (hf : ∀ x ns, f { x with ns := ns } = f x) :
    f ((processStream w now i e).streams.elt j) = f (w.streams.elt j) := by
  have hs : ((processStream w now i e).streams.elt j) =
      (set w.streams i { w.streams.elt i with
        ns := (rtnlProcess ⟨(w.streams.elt i).ns, decide (Live w.streams i), now, w.sockets, []⟩
          e).ns }).elt j := by
    unfold processStream
    dsimp only
    split <;> rfl
  rw [hs]
  by_cases hj : j = i
  · rw [hj, elt_set_self]
    exact hf _ _
  · rw [elt_set_of_ne hj]

theorem process_tables (h : (processStream w now i e).netnss.elt j ≠ w.netnss.elt j) :
    j = (w.streams.elt i).streamOpaque ∧ ¬ Silent e := by
  have hj : j = (w.streams.elt i).streamOpaque := by
    by_contra hj
    apply h
    unfold processStream
    dsimp only
    rw [elt_set_of_ne hj]
  refine ⟨hj, fun he => h ?_⟩
  have hu : Undelivered (rtnlProcess
      ⟨(w.streams.elt i).ns, decide (Live w.streams i), now, w.sockets, []⟩ e) :=
    Undelivered.process (fun m hm => absurd hm List.not_mem_nil) he
  unfold processStream
  dsimp only
  rw [hj, elt_set_self, absorb_undelivered hu]

end Vppsb.NetnsWorld
