import Mathlib.Order.Basic
import Vppsb.PoolStore
import Vppsb.RtnlSync
import Vppsb.RtnlTimeouts

namespace Vppsb.RtnlProcess

open Vppsb.StepRun Vppsb.RtnlStream
open Vppsb.PoolStore (Pool Live WF liveIndices set put mem_liveIndices)
open Vppsb.RtnlSync (Honest Synchronised Kept)
open Vppsb.RtnlTimeouts (Settled)

inductive Kind where
  | eOpen | eClose | eRead
  deriving DecidableEq

/-- `pending` are the data of the events that wait for the process, by type, `wake` is the
timeout that it sleeps with, and `seen` is what has been done with the stream in a slot
since it was opened. -/
structure RtnlMain where
  now : Rat
  streams : Pool Sys
  pending : Kind → List Nat
  wake : Rat
  seen : Nat → List (Rat × RtnlStream.Event)

def signalEvent (rm : RtnlMain) (kind : Kind) (i : Nat) : RtnlMain :=
  { rm with pending := Function.update rm.pending kind (rm.pending kind ++ [i]) }

/-- `opened` tells whether the namespace can be opened. The index is none for `~0`. -/
def rtnlStreamOpen (rm : RtnlMain) (opened : Bool) : RtnlMain × Option Nat :=
  if opened = false then (rm, none)
  else
    let i := PoolStore.fresh rm.streams
    let rm :=
      { rm with
        streams := set (PoolStore.get rm.streams) i
          (RtnlStream.fresh (rm.streams.elt i).ns rm.now)
        seen := Function.update rm.seen i [] }
    (signalEvent rm .eOpen i, some i)

def rtnlStreamClose (rm : RtnlMain) (i : Nat) : RtnlMain := signalEvent rm .eClose i

def rtnlReadCb (rm : RtnlMain) (i : Nat) : RtnlMain := signalEvent rm .eRead i

def handled (rm : RtnlMain) (i : Nat) (e : RtnlStream.Event) : RtnlMain :=
  { rm with
    streams := set rm.streams i (rtnlProcess { rm.streams.elt i with now := rm.now } e)
    seen := Function.update rm.seen i (rm.seen i ++ [(rm.now, e)]) }

/-- A stream that is closed goes back to the pool, unless it was never opened. -/
def processEvent (kind : Kind) (buffers : List Buffer) (rm : RtnlMain) (i : Nat) : RtnlMain :=
  match kind with
  | .eOpen => handled rm i .openStream
  | .eRead => handled rm i (.read buffers)
  | .eClose =>
    let t := handled rm i .closeStream
    if (rm.streams.elt i).ns.state = .init then t else { t with streams := put t.streams i }

/-- The loop over the data of the events, of which the `k`-th one comes next. -/
def eventLoop (kind : Kind) (buffers : Nat → List Buffer) : Nat → RtnlMain → List Nat → RtnlMain
  | _, rm, [] => rm
  | k, rm, i :: rest => eventLoop kind buffers (k + 1) (processEvent kind (buffers k) rm i) rest

def clockLoop (ends : Nat → OpenOutcome × Bool) (rm : RtnlMain) (is : List Nat) : RtnlMain :=
  is.foldl (fun rm i => handled rm i (.clock (ends i).1 (ends i).2)) rm

def nearest (streams : Pool Sys) (is : List Nat) : Rat :=
  is.foldl (fun timeout i =>
    if (streams.elt i).ns.timeout < timeout then (streams.elt i).ns.timeout else timeout) dblMax

def sleep (rm : RtnlMain) : RtnlMain :=
  { rm with wake := nearest rm.streams (liveIndices rm.streams) }

/-- What the other nodes ask for, and the rounds of `rtnl_process`: for events of one type,
with what `recv` returns for each of them, or by the clock. -/
inductive Event where
  | streamOpen (opened : Bool)
  | streamClose (i : Nat)
  | readable (i : Nat)
  | events (now : Rat) (kind : Kind) (buffers : Nat → List Buffer)
  | clock (now : Rat) (ends : Nat → OpenOutcome × Bool)

def next (rm : RtnlMain) : Event → RtnlMain
  | .streamOpen opened => (rtnlStreamOpen rm opened).1
  | .streamClose i => rtnlStreamClose rm i
  | .readable i => rtnlReadCb rm i
  | .events now kind buffers =>
    let pending := Function.update rm.pending kind []
    sleep (eventLoop kind buffers 0 { rm with now := now, pending := pending } (rm.pending kind))
  | .clock now ends =>
    sleep (clockLoop ends { rm with now := now } (liveIndices rm.streams))

def step (rm : RtnlMain) (e : Event) : Option RtnlMain := some (next rm e)

def start (now : Rat) (blank : Sys) : RtnlMain :=
  ⟨now, PoolStore.empty blank, fun _ => [], dblMax, fun _ => []⟩

/-- A stream is closed once, and only files of streams become readable. -/
def Fair (rm : RtnlMain) : Event → Prop
  | .streamClose i => Live rm.streams i ∧ i ∉ rm.pending .eClose
  | .readable i => i < rm.streams.len
  | .streamOpen _ | .events _ _ _ | .clock _ _ => True

/-- The stream in the slot is where the things that were done with it lead on their own. -/
def OnItsOwn (rm : RtnlMain) (i : Nat) : Prop :=
  ∃ old now, run round (RtnlStream.fresh old now) (rm.seen i) = some (rm.streams.elt i)

/-- The process wakes up in time for every stream, and not without one. -/
def WakesInTime (rm : RtnlMain) : Prop :=
  (∀ i, Live rm.streams i → rm.wake ≤ (rm.streams.elt i).ns.timeout) ∧
    (rm.wake = dblMax ∨ ∃ i, Live rm.streams i ∧ rm.wake = (rm.streams.elt i).ns.timeout)

/-- A round for events reaches the streams that they name and no others, and a round by the
clock each stream once. -/
def Reaches (rm t : RtnlMain) : Event → Prop
  | .events now kind _ => WakesInTime t ∧ t.pending kind = [] ∧
      (∀ i ∉ rm.pending kind, t.streams.elt i = rm.streams.elt i ∧ t.seen i = rm.seen i) ∧
      ∀ i, ∃ es, t.seen i = rm.seen i ++ es ∧ es.length = (rm.pending kind).count i ∧
        ∀ e ∈ es, e.1 = now
  | .clock now ends => WakesInTime t ∧ t.pending = rm.pending ∧
      ∀ i, t.seen i = if Live rm.streams i then
          rm.seen i ++ [(now, .clock (ends i).1 (ends i).2)] else rm.seen i
  | .streamOpen _ | .streamClose _ | .readable _ =>
      ∀ i, Live rm.streams i → t.streams.elt i = rm.streams.elt i ∧ t.seen i = rm.seen i

structure Right (rm : RtnlMain) : Prop where
  own : ∀ i, i < rm.streams.len → OnItsOwn rm i
  live : ∀ i, i < rm.streams.len → ((rm.streams.elt i).live = true ↔ Live rm.streams i)
  ready : ∀ i, i < rm.streams.len → Honest (rm.streams.elt i).log →
    ∀ newer older, (rm.streams.elt i).log = newer ++ .ready :: older → Synchronised older
  settled : ∀ i, i < rm.streams.len → (rm.streams.elt i).ns.state = .ready →
    (rm.streams.elt i).ns.timeout = dblMax

structure Tracked (rm : RtnlMain) : Prop where
  wf : WF rm.streams
  own : ∀ i, i < rm.streams.len → OnItsOwn rm i
  live : ∀ i, i < rm.streams.len → ((rm.streams.elt i).live = true ↔ Live rm.streams i)

/-- The events that are pending name streams, and the streams to be closed are there. -/
structure Signalled (rm : RtnlMain) : Prop where
  known : ∀ kind, ∀ i ∈ rm.pending kind, i < rm.streams.len
  nodup : (rm.pending .eClose).Nodup
  closing : ∀ i ∈ rm.pending .eClose, Live rm.streams i

section Stream

variable {s : Sys}

@[simp] theorem reset_live : (rtnlSyncReset s).live = s.live := by
  unfold rtnlSyncReset
  split <;> rfl

theorem received_live (m : RtnlMsg) : (received s m).live = s.live := by
  unfold received
  dsimp only
  split
  · exact reset_live
  · rfl

theorem syncNext_live (req : Request) (k : SyncState) (ok : Bool) :
    (rtnlSyncNext s req k ok).live = s.live := by
  unfold rtnlSyncNext
  dsimp only
  split
  · exact reset_live
  · rfl

theorem syncDone_live (ok : Bool) : (rtnlSyncDone s ok).live = s.live := by
  unfold rtnlSyncDone
  split
  · rfl
  · exact syncNext_live _ _ _
  · exact syncNext_live _ _ _
  · exact syncNext_live _ _ _
  · exact syncNext_live _ _ _
  · rfl

theorem nsRecv_live (a : Arrival) : (rtnlNsRecv s a).1.live = s.live := by
  apply nsRecv_rule (P := fun t => t.live = s.live)
  · exact received_live a.msg
  · intro _
    rw [syncDone_live]
    exact received_live a.msg
  · exact received_live a.msg

theorem syncTimeout_live (outcome : OpenOutcome) (ok : Bool) :
    (rtnlSyncTimeout s outcome ok).live = s.live := by
  by_cases h : s.ns.syncState = .opening
  · cases outcome with
    | opened =>
      rw [syncTimeout_opened h]
      rfl
    | noThread | noSocket | noBind =>
      rw [rtnlSyncTimeout, h]
      rfl
  · rw [syncTimeout_reset h]
    exact reset_live

theorem process_live {e : RtnlStream.Event} (h : e ≠ .closeStream) :
    (rtnlProcess s e).live = s.live := by
  cases e with
  | openStream =>
    show (rtnlProcessOpen s).live = s.live
    unfold rtnlProcessOpen
    split <;> rfl
  | closeStream => exact absurd rfl h
  | read buffers =>
    exact read_rule (P := fun t => t.live = s.live) rfl (fun t ht => ht)
      fun t a ht => (nsRecv_live a).trans ht
  | clock outcome ok =>
    exact clock_rule (P := fun t => t.live = s.live) rfl rfl
      fun _ _ _ => syncTimeout_live outcome ok

theorem close_live : (rtnlProcess s .closeStream).live =
    if s.ns.state = .init then s.live else false := by
  show (rtnlProcessClose s).live = _
  unfold rtnlProcessClose
  split <;> rfl

end Stream

section Handled

variable {rm : RtnlMain} {i j : Nat} {e : RtnlStream.Event}

theorem handled_other (h : j ≠ i) : (handled rm i e).streams.elt j = rm.streams.elt j ∧
    (handled rm i e).seen j = rm.seen j :=
  ⟨Function.update_of_ne h _ _, Function.update_of_ne h _ _⟩

theorem handled_self : (handled rm i e).streams.elt i =
      rtnlProcess { rm.streams.elt i with now := rm.now } e ∧
    (handled rm i e).seen i = rm.seen i ++ [(rm.now, e)] :=
  ⟨Function.update_self i _ _, Function.update_self i _ _⟩

theorem OnItsOwn.handled (h : OnItsOwn rm i) (e : RtnlStream.Event) :
    OnItsOwn (handled rm i e) i := by
  obtain ⟨old, now, hrun⟩ := h
  refine ⟨old, now, ?_⟩
  rw [handled_self.1, handled_self.2]
  exact run_append_eq_some.mpr ⟨_, hrun, rfl⟩

theorem OnItsOwn.of_fresh {old : RtnlNs} {now : Rat} (hseen : rm.seen i = [])
    (helt : rm.streams.elt i = RtnlStream.fresh old now) : OnItsOwn rm i := by
  refine ⟨old, now, ?_⟩
  rw [hseen, helt]
  exact run_nil _

theorem OnItsOwn.congr {t : RtnlMain} (h : OnItsOwn rm i)
    (heq : t.streams.elt i = rm.streams.elt i ∧ t.seen i = rm.seen i) : OnItsOwn t i := by
  obtain ⟨old, now, hrun⟩ := h
  refine ⟨old, now, ?_⟩
  rw [heq.1, heq.2]
  exact hrun

theorem Tracked.handled (h : Tracked rm) (hlive : ∀ s : Sys, s = rm.streams.elt i →
      ((rtnlProcess { s with now := rm.now } e).live = true ↔ Live rm.streams i)) :
    Tracked (RtnlProcess.handled rm i e) := by
  refine ⟨PoolStore.wf_set h.wf i _, fun j hj => ?_, fun j hj => ?_⟩
  · by_cases hji : j = i
    · subst hji
      exact (h.own j hj).handled e
    · exact (h.own j hj).congr (handled_other hji)
  · by_cases hji : j = i
    · subst hji
      rw [handled_self.1]
      exact hlive _ rfl
    · rw [(handled_other hji).1]
      exact h.live j hj

theorem Tracked.kept (h : Tracked rm) (hi : i < rm.streams.len) (he : e ≠ .closeStream) :
    Tracked (RtnlProcess.handled rm i e) := by
  refine h.handled fun s hs => ?_
  rw [process_live he, hs]
  exact h.live i hi

theorem Tracked.closed (h : Tracked rm) (hi : Live rm.streams i) (buffers : List Buffer) :
    Tracked (processEvent .eClose buffers rm i) ∧
      ∀ j, j ≠ i → Live rm.streams j → Live (processEvent .eClose buffers rm i).streams j := by
  rw [processEvent]
  by_cases hinit : (rm.streams.elt i).ns.state = .init
  · simp only [if_pos hinit]
    refine ⟨h.handled fun s hs => ?_, fun j _ hj => hj⟩
    rw [close_live, hs, if_pos hinit]
    exact h.live i hi.1
  · simp only [if_neg hinit]
    refine ⟨⟨PoolStore.wf_put (PoolStore.wf_set h.wf i _) hi, fun j hj => ?_, fun j hj => ?_⟩,
      fun j hji hj => (PoolStore.live_put _ i j).mpr ⟨hj, hji⟩⟩
    · by_cases hji : j = i
      · subst hji
        exact (h.own j hj).handled .closeStream
      · exact (h.own j hj).congr (handled_other hji)
    · rw [PoolStore.live_put]
      by_cases hji : j = i
      · subst hji
        refine iff_of_false ?_ fun hl => hl.2 rfl
        rw [PoolStore.elt_put, handled_self.1, close_live, if_neg hinit]
        exact Bool.false_ne_true
      · rw [PoolStore.elt_put, (handled_other hji).1, h.live j hj]
        exact ⟨fun hl => ⟨hl, hji⟩, fun hl => hl.1⟩

structure Touches (rm : RtnlMain) (i : Nat) (t : RtnlMain) : Prop where
  now : t.now = rm.now
  pending : t.pending = rm.pending
  len : t.streams.len = rm.streams.len
  other : ∀ j, j ≠ i → t.streams.elt j = rm.streams.elt j ∧ t.seen j = rm.seen j
  seen : ∃ e, t.seen i = rm.seen i ++ [(rm.now, e)]

theorem handled_touches (rm : RtnlMain) (i : Nat) (e : RtnlStream.Event) :
    Touches rm i (RtnlProcess.handled rm i e) :=
  ⟨rfl, rfl, rfl, fun _ h => handled_other h, e, handled_self.2⟩

theorem processEvent_touches (kind : Kind) (buffers : List Buffer) (rm : RtnlMain) (i : Nat) :
    Touches rm i (processEvent kind buffers rm i) := by
  cases kind with
  | eOpen | eRead => exact handled_touches rm i _
  | eClose =>
    have ht := handled_touches rm i .closeStream
    rw [processEvent]
    split
    · exact ht
    · exact ⟨ht.now, ht.pending, ht.len, ht.other, ht.seen⟩

end Handled

section Loops

variable {rm : RtnlMain} {kind : Kind}

/-- What the events of a round have done with each slot: as many things as it was named. -/
structure Visits (rm : RtnlMain) (is : List Nat) (t : RtnlMain) : Prop where
  now : t.now = rm.now
  pending : t.pending = rm.pending
  len : t.streams.len = rm.streams.len
  other : ∀ j, j ∉ is → t.streams.elt j = rm.streams.elt j
  seen : ∀ j, ∃ es, t.seen j = rm.seen j ++ es ∧ es.length = is.count j ∧ ∀ e ∈ es, e.1 = rm.now

theorem Visits.nil (rm : RtnlMain) : Visits rm [] rm := by
  refine ⟨rfl, rfl, rfl, fun _ _ => rfl, fun j => ⟨[], ?_, rfl, fun e he => absurd he List.not_mem_nil⟩⟩
  rw [List.append_nil]

theorem Touches.visits {t u : RtnlMain} {i : Nat} {is : List Nat} (h : Touches rm i t)
    (hv : Visits t is u) : Visits rm (i :: is) u := by
  refine ⟨hv.now.trans h.now, hv.pending.trans h.pending, hv.len.trans h.len, fun j hj => ?_,
    fun j => ?_⟩
  · obtain ⟨hji, hjs⟩ := List.ne_and_not_mem_of_not_mem_cons hj
    rw [hv.other j hjs, (h.other j hji).1]
  · obtain ⟨es, hes, hlen, hnow⟩ := hv.seen j
    rw [h.now] at hnow
    by_cases hji : j = i
    · obtain ⟨e, he⟩ := h.seen
      subst hji
      refine ⟨(rm.now, e) :: es, ?_, ?_, List.forall_mem_cons.mpr ⟨rfl, hnow⟩⟩
      · rw [hes, he, List.append_assoc, List.singleton_append]
      · rw [List.length_cons, hlen, List.count_cons_self]
    · refine ⟨es, by rw [hes, (h.other j hji).2], ?_, hnow⟩
      rw [hlen, List.count_cons_of_ne (Ne.symm hji)]

theorem eventLoop_visits (kind : Kind) (buffers : Nat → List Buffer) (k : Nat) (rm : RtnlMain)
    (is : List Nat) : Visits rm is (eventLoop kind buffers k rm is) := by
  induction is generalizing k rm with
  | nil => exact Visits.nil rm
  | cons i is ih => exact (processEvent_touches kind (buffers k) rm i).visits (ih _ _)

theorem clockLoop_visits (ends : Nat → OpenOutcome × Bool) (rm : RtnlMain) (is : List Nat) :
    Visits rm is (clockLoop ends rm is) := by
  induction is generalizing rm with
  | nil => exact Visits.nil rm
  | cons i is ih => exact (handled_touches rm i _).visits (ih _)

/-- The streams that are to be closed are there when their turn comes. -/
theorem closeLoop_tracked (buffers : Nat → List Buffer) (k : Nat) {is : List Nat}
    (h : Tracked rm) (hn : is.Nodup) (hl : ∀ i ∈ is, Live rm.streams i) :
    Tracked (eventLoop .eClose buffers k rm is) := by
  induction is generalizing k rm with
  | nil => exact h
  | cons i is ih =>
    obtain ⟨hi, hn'⟩ := List.nodup_cons.mp hn
    obtain ⟨ht, hother⟩ := h.closed (hl i List.mem_cons_self) (buffers k)
    refine ih (k + 1) ht hn' fun j hj => hother j ?_ (hl j (List.mem_cons_of_mem i hj))
    rintro rfl
    exact hi hj

theorem openLoop_tracked (hk : kind ≠ .eClose) (buffers : Nat → List Buffer) (k : Nat)
    {is : List Nat} (h : Tracked rm) (hl : ∀ i ∈ is, i < rm.streams.len) :
    Tracked (eventLoop kind buffers k rm is) := by
  induction is generalizing k rm with
  | nil => exact h
  | cons i is ih =>
    have ht : Tracked (processEvent kind (buffers k) rm i) := by
      cases kind with
      | eOpen => exact h.kept (hl i List.mem_cons_self) RtnlStream.Event.noConfusion
      | eRead => exact h.kept (hl i List.mem_cons_self) RtnlStream.Event.noConfusion
      | eClose => exact absurd rfl hk
    refine ih (k + 1) ht fun j hj => ?_
    rw [(processEvent_touches kind (buffers k) rm i).len]
    exact hl j (List.mem_cons_of_mem i hj)

theorem clockLoop_tracked (ends : Nat → OpenOutcome × Bool) {is : List Nat} (h : Tracked rm)
    (hl : ∀ i ∈ is, i < rm.streams.len) : Tracked (clockLoop ends rm is) := by
  induction is generalizing rm with
  | nil => exact h
  | cons i is ih =>
    have ht := h.kept (e := .clock (ends i).1 (ends i).2) (hl i List.mem_cons_self)
      RtnlStream.Event.noConfusion
    exact ih ht fun j hj => hl j (List.mem_cons_of_mem i hj)

theorem openLoop_live (hk : kind ≠ .eClose) (buffers : Nat → List Buffer) (k : Nat)
    (is : List Nat) (j : Nat) :
    Live (eventLoop kind buffers k rm is).streams j ↔ Live rm.streams j := by
  induction is generalizing k rm with
  | nil => exact Iff.rfl
  | cons i is ih =>
    refine (ih (k + 1)).trans ?_
    cases kind with
    | eOpen | eRead => exact Iff.rfl
    | eClose => exact absurd rfl hk

theorem clockLoop_live (ends : Nat → OpenOutcome × Bool) (is : List Nat) (j : Nat) :
    Live (clockLoop ends rm is).streams j ↔ Live rm.streams j := by
  induction is generalizing rm with
  | nil => exact Iff.rfl
  | cons i is ih => exact ih.trans Iff.rfl

theorem clockLoop_seen (ends : Nat → OpenOutcome × Bool) {is : List Nat} (hn : is.Nodup) (j : Nat) :
    (clockLoop ends rm is).seen j =
      if j ∈ is then rm.seen j ++ [(rm.now, .clock (ends j).1 (ends j).2)] else rm.seen j := by
  induction is generalizing rm with
  | nil => rfl
  | cons i is ih =>
    obtain ⟨hi, hn'⟩ := List.nodup_cons.mp hn
    have hrest := @ih (handled rm i (.clock (ends i).1 (ends i).2)) hn'
    rw [clockLoop, List.foldl_cons]
    rw [clockLoop] at hrest
    rw [hrest]
    by_cases hji : j = i
    · subst hji
      rw [if_neg hi, if_pos List.mem_cons_self, handled_self.2]
    · rw [(handled_other hji).2]
      simp only [List.mem_cons, hji, false_or]
      rfl

end Loops

section Wake

variable {streams : Pool Sys}

theorem nearest_foldl (is : List Nat) (timeout : Rat) :
    let t := is.foldl (fun timeout i =>
      if (streams.elt i).ns.timeout < timeout then (streams.elt i).ns.timeout else timeout) timeout
    t ≤ timeout ∧ (∀ i ∈ is, t ≤ (streams.elt i).ns.timeout) ∧
      (t = timeout ∨ ∃ i ∈ is, t = (streams.elt i).ns.timeout) := by
  induction is generalizing timeout with
  | nil => exact ⟨le_rfl, fun i hi => absurd hi List.not_mem_nil, Or.inl rfl⟩
  | cons i is ih =>
    rw [List.foldl_cons]
    split
    · rename_i hlt
      obtain ⟨hle, hall, hsome⟩ := ih (streams.elt i).ns.timeout
      refine ⟨hle.trans hlt.le, List.forall_mem_cons.mpr ⟨hle, hall⟩, Or.inr ?_⟩
      rcases hsome with heq | ⟨j, hj, heq⟩
      · exact ⟨i, List.mem_cons_self, heq⟩
      · exact ⟨j, List.mem_cons_of_mem i hj, heq⟩
    · rename_i hlt
      obtain ⟨hle, hall, hsome⟩ := ih timeout
      refine ⟨hle, List.forall_mem_cons.mpr ⟨hle.trans (not_lt.mp hlt), hall⟩, ?_⟩
      rcases hsome with heq | ⟨j, hj, heq⟩
      · exact Or.inl heq
      · exact Or.inr ⟨j, List.mem_cons_of_mem i hj, heq⟩

theorem sleep_wakes (rm : RtnlMain) : WakesInTime (sleep rm) := by
  obtain ⟨_, hall, hsome⟩ :=
    @nearest_foldl rm.streams (liveIndices rm.streams) dblMax
  refine ⟨fun i hi => hall i ((mem_liveIndices rm.streams i).mpr hi), ?_⟩
  rcases hsome with heq | ⟨i, hi, heq⟩
  · exact Or.inl heq
  · exact Or.inr ⟨i, (mem_liveIndices rm.streams i).mp hi, heq⟩

end Wake

section Slots

variable {α : Type} {p : Pool α} {j : Nat}

theorem len_le_get : p.len ≤ (PoolStore.get p).len := by
  unfold PoolStore.get
  split
  · exact Nat.le_succ _
  · exact Nat.le_refl _

theorem lt_len_get (h : j < (PoolStore.get p).len) (hne : j ≠ PoolStore.fresh p) : j < p.len := by
  unfold PoolStore.get at h
  unfold PoolStore.fresh at hne
  cases hf : p.free with
  | nil =>
    rw [hf] at h hne
    exact Nat.lt_of_le_of_ne (Nat.lt_succ_iff.mp h) hne
  | cons i rest =>
    rw [hf] at h
    exact h

end Slots

section Rounds

variable {rm t : RtnlMain}

theorem Tracked.congr (h : Tracked rm) (hs : t.streams = rm.streams) (hseen : t.seen = rm.seen) :
    Tracked t := by
  refine ⟨by rw [hs]; exact h.wf, fun i hi => ?_, fun i hi => ?_⟩
  · rw [hs] at hi
    exact (h.own i hi).congr ⟨by rw [hs], by rw [hseen]⟩
  · rw [hs] at hi ⊢
    exact h.live i hi

theorem open_self (rm : RtnlMain) :
    (rtnlStreamOpen rm true).1.streams.elt (PoolStore.fresh rm.streams) =
        RtnlStream.fresh (rm.streams.elt (PoolStore.fresh rm.streams)).ns rm.now ∧
      (rtnlStreamOpen rm true).1.seen (PoolStore.fresh rm.streams) = [] :=
  ⟨Function.update_self _ _ _, Function.update_self _ _ _⟩

theorem open_other {i : Nat} (h : i ≠ PoolStore.fresh rm.streams) :
    (rtnlStreamOpen rm true).1.streams.elt i = rm.streams.elt i ∧
      (rtnlStreamOpen rm true).1.seen i = rm.seen i := by
  refine ⟨(Function.update_of_ne h _ _).trans ?_, Function.update_of_ne h _ _⟩
  rw [PoolStore.elt_get]

theorem Tracked.opened (h : Tracked rm) : Tracked (rtnlStreamOpen rm true).1 := by
  have hlive := PoolStore.live_get h.wf
  refine ⟨PoolStore.wf_set (PoolStore.wf_get h.wf) _ _, fun i hi => ?_, fun i hi => ?_⟩
  · by_cases hif : i = PoolStore.fresh rm.streams
    · subst hif
      obtain ⟨helt, hseen⟩ := open_self rm
      exact OnItsOwn.of_fresh hseen helt
    · exact (h.own i (lt_len_get hi hif)).congr (open_other hif)
  · by_cases hif : i = PoolStore.fresh rm.streams
    · subst hif
      rw [(open_self rm).1]
      exact iff_of_true rfl ((hlive _).mpr (Or.inr rfl))
    · rw [(open_other hif).1, h.live i (lt_len_get hi hif)]
      exact ⟨fun hl => (hlive i).mpr (Or.inl hl), fun hl => ((hlive i).mp hl).resolve_right hif⟩

theorem signal_self {kind : Kind} {i : Nat} :
    (signalEvent rm kind i).pending kind = rm.pending kind ++ [i] := Function.update_self _ _ _

theorem signal_other {k kind : Kind} {i : Nat} (h : k ≠ kind) :
    (signalEvent rm kind i).pending k = rm.pending k := Function.update_of_ne h _ _

theorem Signalled.signal {kind : Kind} {i : Nat} (h : Signalled rm) (hi : i < rm.streams.len)
    (hclose : kind = .eClose → Live rm.streams i ∧ i ∉ rm.pending .eClose) :
    Signalled (signalEvent rm kind i) := by
  refine ⟨fun k j hj => ?_, ?_, ?_⟩
  · by_cases hk : k = kind
    · subst hk
      rw [signal_self] at hj
      rcases List.mem_append.mp hj with hj | hj
      · exact h.known k j hj
      · rw [List.mem_singleton.mp hj]
        exact hi
    · rw [signal_other hk] at hj
      exact h.known k j hj
  · by_cases hk : kind = .eClose
    · subst hk
      obtain ⟨_, hnew⟩ := hclose rfl
      rw [signal_self]
      refine List.nodup_append.mpr ⟨h.nodup, List.nodup_singleton i, fun a ha b hb => ?_⟩
      rw [List.mem_singleton.mp hb]
      rintro rfl
      exact hnew ha
    · rw [signal_other (Ne.symm hk)]
      exact h.nodup
  · by_cases hk : kind = .eClose
    · subst hk
      rw [signal_self]
      intro j hj
      rcases List.mem_append.mp hj with hj | hj
      · exact h.closing j hj
      · rw [List.mem_singleton.mp hj]
        exact (hclose rfl).1
    · rw [signal_other (Ne.symm hk)]
      exact h.closing

theorem Signalled.congr (h : Signalled rm) (hp : ∀ kind, ∀ i ∈ t.pending kind, i ∈ rm.pending kind)
    (hn : (t.pending .eClose).Nodup) (hlen : rm.streams.len ≤ t.streams.len)
    (hl : ∀ i ∈ t.pending .eClose, Live rm.streams i → Live t.streams i) : Signalled t :=
  ⟨fun kind i hi => Nat.lt_of_lt_of_le (h.known kind i (hp kind i hi)) hlen, hn,
    fun i hi => hl i hi (h.closing i (hp _ i hi))⟩

theorem Signalled.opened (h : Signalled rm) (hw : WF rm.streams) :
    Signalled (rtnlStreamOpen rm true).1 := by
  have hlive := PoolStore.live_get hw
  have hsig : Signalled { rm with
      streams := (rtnlStreamOpen rm true).1.streams
      seen := (rtnlStreamOpen rm true).1.seen } :=
    h.congr (fun _ _ hi => hi) h.nodup len_le_get fun i _ hi => (hlive i).mpr (Or.inl hi)
  exact hsig.signal ((hlive _).mpr (Or.inr rfl)).1 Kind.noConfusion

/-- A round for events of one type takes all of them. -/
theorem events_tracked (h : Tracked rm) (hs : Signalled rm) (now : Rat) (kind : Kind)
    (buffers : Nat → List Buffer) : Tracked (next rm (.events now kind buffers)) ∧
      Signalled (next rm (.events now kind buffers)) := by
  let rm' : RtnlMain := { rm with now := now, pending := Function.update rm.pending kind [] }
  have h' : Tracked rm' := h.congr rfl rfl
  have hv := eventLoop_visits kind buffers 0 rm' (rm.pending kind)
  have hself : rm'.pending kind = [] := Function.update_self _ _ _
  have hother : ∀ k, k ≠ kind → rm'.pending k = rm.pending k :=
    fun k hk => Function.update_of_ne hk _ _
  have hsub : ∀ k, ∀ i ∈ rm'.pending k, i ∈ rm.pending k := by
    intro k i hi
    by_cases hk : k = kind
    · rw [hk, hself] at hi
      exact absurd hi List.not_mem_nil
    · rwa [hother k hk] at hi
  by_cases hk : kind = .eClose
  · subst hk
    have ht := closeLoop_tracked buffers 0 h' hs.nodup hs.closing
    refine ⟨ht.congr rfl rfl, hs.congr (fun k i hi => hsub k i (hv.pending ▸ hi)) ?_ hv.len.ge ?_⟩
    · show (eventLoop .eClose buffers 0 rm' (rm.pending .eClose)).pending .eClose |>.Nodup
      rw [hv.pending, hself]
      exact List.nodup_nil
    · intro i hi
      have hnil : i ∈ rm'.pending .eClose := hv.pending ▸ hi
      rw [hself] at hnil
      exact absurd hnil List.not_mem_nil
  · have ht := openLoop_tracked hk buffers 0 h' (hs.known kind)
    refine ⟨ht.congr rfl rfl, hs.congr (fun k i hi => hsub k i (hv.pending ▸ hi)) ?_ hv.len.ge ?_⟩
    · show (eventLoop kind buffers 0 rm' (rm.pending kind)).pending .eClose |>.Nodup
      rw [hv.pending, hother _ (Ne.symm hk)]
      exact hs.nodup
    · intro i _ hi
      exact (openLoop_live hk buffers 0 (rm.pending kind) i).mpr hi

theorem clock_tracked (h : Tracked rm) (hs : Signalled rm) (now : Rat)
    (ends : Nat → OpenOutcome × Bool) : Tracked (next rm (.clock now ends)) ∧
      Signalled (next rm (.clock now ends)) := by
  have hv := clockLoop_visits ends { rm with now := now } (liveIndices rm.streams)
  have ht : Tracked (clockLoop ends { rm with now := now } (liveIndices rm.streams)) :=
    clockLoop_tracked ends (h.congr rfl rfl) fun i hi => ((mem_liveIndices rm.streams i).mp hi).1
  refine ⟨ht.congr rfl rfl, hs.congr (fun _ i hi => hv.pending ▸ hi) ?_ hv.len.ge fun i _ hi => ?_⟩
  · show (clockLoop ends { rm with now := now } (liveIndices rm.streams)).pending .eClose |>.Nodup
    rw [hv.pending]
    exact hs.nodup
  · exact (clockLoop_live ends (liveIndices rm.streams) i).mpr hi

theorem next_tracked (h : Tracked rm) (hs : Signalled rm) {e : Event} (hf : Fair rm e) :
    Tracked (next rm e) ∧ Signalled (next rm e) := by
  cases e with
  | streamOpen opened =>
    cases opened with
    | false => exact ⟨h, hs⟩
    | true => exact ⟨h.opened, hs.opened h.wf⟩
  | streamClose i => exact ⟨h.congr rfl rfl, hs.signal hf.1.1 fun _ => hf⟩
  | readable i => exact ⟨h.congr rfl rfl, hs.signal hf Kind.noConfusion⟩
  | events now kind buffers => exact events_tracked h hs now kind buffers
  | clock now ends => exact clock_tracked h hs now ends

theorem next_reaches (rm : RtnlMain) (e : Event) : Reaches rm (next rm e) e := by
  cases e with
  | streamOpen opened =>
    cases opened with
    | false => exact fun i _ => ⟨rfl, rfl⟩
    | true => exact fun i hi => open_other (PoolStore.ne_fresh hi)
  | streamClose i => exact fun i _ => ⟨rfl, rfl⟩
  | readable i => exact fun i _ => ⟨rfl, rfl⟩
  | events now kind buffers =>
    have hv := eventLoop_visits kind buffers 0
      { rm with now := now, pending := Function.update rm.pending kind [] } (rm.pending kind)
    refine ⟨sleep_wakes _, ?_, fun i hi => ⟨hv.other i hi, ?_⟩, hv.seen⟩
    · exact (congrFun hv.pending kind).trans (Function.update_self _ _ _)
    · obtain ⟨es, hes, hlen, _⟩ := hv.seen i
      rw [List.count_eq_zero_of_not_mem hi] at hlen
      rw [List.length_eq_zero_iff.mp hlen, List.append_nil] at hes
      exact hes
  | clock now ends =>
    have hv := clockLoop_visits ends { rm with now := now } (liveIndices rm.streams)
    refine ⟨sleep_wakes _, hv.pending, fun i => ?_⟩
    have hseen := @clockLoop_seen { rm with now := now } ends _
      (PoolStore.nodup_liveIndices rm.streams) i
    simp only [mem_liveIndices] at hseen
    exact hseen

end Rounds

section Streams

variable {rm : RtnlMain} {i : Nat}

/-- What every run of a stream on its own keeps up holds of the streams of the process. -/
theorem OnItsOwn.invariant {P : Sys → Prop} (h : OnItsOwn rm i)
    (hfresh : ∀ old now, P (RtnlStream.fresh old now))
    (hround : ∀ s e t, P s → round s e = some t → P t) : P (rm.streams.elt i) := by
  obtain ⟨old, now, hrun⟩ := h
  exact StepRun.invariant hround (hfresh old now) hrun

theorem Tracked.right (h : Tracked rm) : Right rm := by
  refine ⟨h.own, h.live, fun i hi hh newer older hlog => ?_, fun i hi hready => ?_⟩
  · have hkept : Kept (rm.streams.elt i) :=
      (h.own i hi).invariant RtnlSync.kept_fresh fun _ _ _ => RtnlSync.round_kept
    have hpast := (hkept hh).past
    rw [hlog] at hpast
    exact hpast.synchronised
  · have hsettled : Settled (rm.streams.elt i) :=
      (h.own i hi).invariant (fun _ _ => Settled.of_not_ready RtnlState.noConfusion)
        fun _ _ _ => RtnlTimeouts.round_settled
    exact (hsettled hready).1

end Streams

theorem start_tracked (now : Rat) (blank : Sys) :
    Tracked (start now blank) ∧ Signalled (start now blank) :=
  ⟨⟨PoolStore.wf_empty blank, fun i hi => absurd hi (Nat.not_lt_zero i),
      fun i hi => absurd hi (Nat.not_lt_zero i)⟩,
    fun _ _ hi => absurd hi List.not_mem_nil, List.nodup_nil, fun _ hi => absurd hi List.not_mem_nil⟩

theorem run_tracked {rm : RtnlMain} (h : Tracked rm) (hs : Signalled rm) {events : List Event}
    (hfair : Meets step Fair rm events) : ∃ t, run step rm events = some t ∧ Tracked t := by
  have hsteps : ∀ rm e, Tracked rm ∧ Signalled rm → Fair rm e →
      ∃ t, step rm e = some t ∧ Tracked t ∧ Signalled t :=
    fun _ _ h hf => ⟨_, rfl, next_tracked h.1 h.2 hf⟩
  obtain ⟨t, ht, htracked, -⟩ := progress_of_meets hsteps ⟨h, hs⟩ hfair
  exact ⟨t, ht, htracked⟩

def blankSys : Sys := RtnlStream.fresh blank 0

/-- Two streams are opened, and the first one is closed while the second one is read. -/
def twoStreams : List Event :=
  [.streamOpen true, .streamOpen true, .events 1 .eOpen (fun _ => []), .readable 1, .streamClose 0,
    .clock 2 (fun _ => (.opened, true))]

end Vppsb.RtnlProcess
