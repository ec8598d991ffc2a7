import Vppsb.VcomEdits

namespace Vppsb.VcomHandles

open Vppsb.StepRun Vppsb.PoolStore Vppsb.KeyedPool Vppsb.PoolIndex
open Vppsb.VcomSockets Vppsb.VcomCalls Vppsb.VcomEdits

variable {t : Terms} {w w' : World}

/-- Each open session belongs to one socket or epoll instance. -/
def SessionsOwned (w : World) : Prop :=
  Owned w.sessions (column VcomSocket.sid w.vsm.vsockets) (column VcomEpoll.vepIdx w.vsm.vepolls)

theorem owned_start : SessionsOwned start := ⟨List.nodup_nil, List.Perm.nil⟩

theorem owned_setVepoll (ho : SessionsOwned w) {j : Nat} {v : VcomEpoll}
    (hv : v.vepIdx = (w.vsm.vepolls.elt j).vepIdx) :
    SessionsOwned { w with vsm := setVepoll w.vsm j v } := by
  unfold SessionsOwned at ho
  rw [← column_set hv] at ho
  exact ho

theorem owned_edit (h : Sound w) (ho : SessionsOwned w) (ht : ¬ t.lost) (he : Edit t w w') :
    SessionsOwned w' := by
  cases he with
  | addVsock fd sid hfd hn hs => exact Owned.cons ho hn (column_insert _ h.socks.wf)
  | addVepoll epfd vepIdx flags hfd hn hs =>
    exact (Owned.cons (Owned.symm ho) hn (column_insert _ h.epolls.wf)).symm
  | loseSession sid hl => exact absurd hl ht
  | addVepitem x j hx hj hi hg hopen =>
    exact @owned_setVepoll w ho j { w.vsm.vepolls.elt j with
      count := (w.vsm.vepolls.elt j).count + 1 } rfl
  | setVepitem i x hi hx => exact ho
  | delVepitem i j byEpfd byFd hi hj he hf hc =>
    exact @owned_setVepoll w ho j { w.vsm.vepolls.elt j with
      count := (w.vsm.vepolls.elt j).count - 1 } rfl
  | markClosed j hj hc => exact owned_setVepoll ho rfl
  | lower j hj hc hf => exact owned_setVepoll ho rfl
  | dropVsock fd i r hi hm => exact Owned.erase ho (column_remove _ (h.socks.hashed.live hi))
  | dropVepoll epfd j r hj hf hset =>
    exact (Owned.erase (Owned.symm ho) (column_remove _ (h.epolls.hashed.live hj))).symm

/-- The hash maps the descriptors of the sockets one to one, and the open descriptors
and sessions are those of the sockets and of the epoll instances, each of one. -/
structure Mapped (w : World) : Prop where
  sockidx : ∀ fd i, w.vsm.sockidxByFd fd = some i ↔
    Live w.vsm.vsockets i ∧ (w.vsm.vsockets.elt i).fd = fd
  fds : Owned w.fds (column VcomSocket.fd w.vsm.vsockets) (column VcomEpoll.epfd w.vsm.vepolls)
  sessions : SessionsOwned w

def Opening : Act → Prop
  | .socket .. | .accept .. | .accept4 .. => True
  | _ => False

/-- An `accept` that gets a session makes a socket for it and can answer what it is
asked. -/
def Completes (w : World) : Act → Prop
  | .accept fd addr addrLen o => Obtains w fd 0 o → Connects 0 o ∧ Answers addr addrLen o
  | .accept4 fd addr addrLen flags o =>
    Obtains w fd flags o → Connects flags o ∧ Answers addr addrLen o
  | _ => True

variable {a : Act}

theorem not_loses (h : Completes w a) : ¬ Loses w a := by
  cases a with
  | accept fd addr addrLen o => exact fun hl => hl.2 (h hl.1).1
  | accept4 fd addr addrLen flags o => exact fun hl => hl.2 (h hl.1).1
  | _ => exact id

theorem accept_restores_iff {fd : Int} {addr addrLen : Bool} {flags : Int32} {o : AcceptCalls}
    (hf : o.Fits w) :
    ((vcomSocketAcceptFlags w fd addr addrLen flags o).rv < 0 →
        (vcomSocketAcceptFlags w fd addr addrLen flags o).world = w) ↔
      (Obtains w fd flags o → Connects flags o ∧ Answers addr addrLen o) := by
  have hgrown : ∀ vsm fds, (⟨vsm, fds, o.accept :: w.sessions⟩ : World) ≠ w := by
    intro vsm fds he
    have hs := congrArg (List.length ∘ World.sessions) he
    simp at hs
  by_cases ho : Obtains w fd flags o
  · by_cases hc : Connects flags o
    · rw [acceptFlags_made hf ho hc, acceptAnswer_world]
      by_cases ha : Answers addr addrLen o
      · rw [acceptAnswer_given _ ha]
        have h0 := (opens_new hf.1 hc.2.2.2.2).1
        exact iff_of_true (fun hlt => absurd h0 (Int.not_le.mpr hlt)) (fun _ => ⟨hc, ha⟩)
      · have hrv := acceptAnswer_missing (o := o) (⟨addVsock w.vsm o.socket.rv o.accept,
          o.socket.rv :: w.fds, o.accept :: w.sessions⟩, o.socket.rv) ha
        exact iff_of_false (fun h => hgrown _ _ (h hrv)) (fun h => ha (h ho).2)
    · obtain ⟨hw, hrv⟩ := @acceptFlags_lost w fd flags o addr addrLen hf ho hc
      rw [hw]
      exact iff_of_false (fun h => hgrown _ _ (h hrv)) (fun h => hc (h ho).1)
  · exact iff_of_true (fun _ => (acceptFlags_refused ho).1) (fun h => absurd h ho)

theorem restores_iff (hf : Fits w a) (ho : Opening a) :
    ((call w a).2 < 0 → (call w a).1 = w) ↔ Completes w a := by
  cases a with
  | socket domain type r sid c =>
    refine iff_of_true (fun hlt => ?_) trivial
    by_cases ho : Opened domain type r ∧ 0 ≤ sid
    · rw [call, socket_made hf.1 ho.1 ho.2] at hlt
      exact absurd (opens_new hf.1 ho.1.2).1 (Int.not_le.mpr hlt)
    · exact (socket_failed hf.1 ho).1
  | accept fd addr addrLen o => exact accept_restores_iff hf
  | accept4 fd addr addrLen flags o => exact accept_restores_iff hf
  | _ => exact ho.elim

/-- Descriptors, sessions and sockets go together in every run in which each
`accept` that gets a session succeeds, and such an `accept` is what it takes for a
call that fails to leave nothing behind. -/
theorem run_mapped {es : List Act} (hr : run step start es = some w)
    (hc : Meets step Completes start es) : Mapped w ∧
      ∀ a, Opening a → Fits w a → (((call w a).2 < 0 → (call w a).1 = w) ↔ Completes w a) := by
  obtain ⟨hs, ho⟩ := run_keeps (P := SessionsOwned) sound_start owned_start hr hc
    fun _ _ _ _ hk hu hp he => owned_edit hu hp (not_loses hk) he
  exact ⟨⟨hs.socks.hashed, hs.fds, ho⟩, fun a ho hf => restores_iff hf ho⟩

def listen : Act := .socket afInet sockStream ⟨3, 0⟩ 0 ⟨0, 0⟩

def peer (socket : Libc) : AcceptCalls :=
  ⟨⟨⟨0, 0⟩, sockStream⟩, 2, 1, ⟨false, .ip4, [10, 0, 0, 1], 80⟩, ⟨⟨0, 0⟩, afInet⟩,
    ⟨⟨0, 0⟩, sockStream⟩, ⟨⟨0, 0⟩, 6⟩, socket⟩

theorem run_mapped_sample :
    ∃ w, run step start [listen, .accept 3 true true (peer ⟨4, 0⟩)] = some w ∧ Mapped w ∧
      w.fds = [4, 3] ∧ w.sessions = [1, 0] := by
  have hk : Meets step Completes start [listen, .accept 3 true true (peer ⟨4, 0⟩)] :=
    ⟨trivial, fun _ _ => ⟨fun _ => ⟨⟨rfl, rfl, rfl, by decide, by decide⟩, rfl⟩,
      fun _ _ => trivial⟩⟩
  exact ⟨_, rfl, (run_mapped rfl hk).1, rfl, rfl⟩

/-- `socket` fails with `EMFILE`: the session of the peer stays open. Or the peer is
wanted without its address but with the length: the call fails, and a descriptor, a
session and a socket are there that nobody knows of. -/
theorem failed_accept_leaves :
    ∃ w, run step start [listen] = some w ∧ w.fds = [3] ∧ w.sessions = [0] ∧
      Fits w (.accept 3 true true (peer ⟨-1, 24⟩)) ∧
      (call w (.accept 3 true true (peer ⟨-1, 24⟩))).2 = -24 ∧
      (call w (.accept 3 true true (peer ⟨-1, 24⟩))).1.sessions = [1, 0] ∧
      Fits w (.accept 3 false true (peer ⟨4, 0⟩)) ∧
      (call w (.accept 3 false true (peer ⟨4, 0⟩))).2 = -1 ∧
      (call w (.accept 3 false true (peer ⟨4, 0⟩))).1.fds = [4, 3] :=
  ⟨_, rfl, rfl, rfl, by decide +kernel, rfl, rfl, by decide +kernel, rfl, rfl⟩

end Vppsb.VcomHandles
