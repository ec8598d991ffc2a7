import Vppsb.VcomHandles
import Mathlib.Data.List.Perm.Basic

namespace Vppsb.VcomTeardown

open Vppsb.StepRun Vppsb.PoolStore Vppsb.KeyedPool Vppsb.PoolIndex
open Vppsb.VcomSockets Vppsb.VcomCalls Vppsb.VcomEdits

/-- `vcom_socket_ctl_vepitem` with `free_vepitem_on_del` clear: a deletion leaves
the item in the pool. -/
def ctlVepitemKept (s : VcomSocketMain) (epfd op fd : Int) (event : EpollEvent) (j : Nat)
    (type : VcomFdType) : VcomSocketMain × Int :=
  if op = epollCtlDel then
    match s.epitemidxByEpfdfd (epfd, fd) with
    | none => (s, -enoent)
    | some i =>
      let s := { s with
        epitemidxByEpfdfd := Function.update s.epitemidxByEpfdfd (epfd, fd) none }
      match delIndex s.epitemidxsByEpfd epfd i with
      | none => (s, -enoent)
      | some byEpfd =>
        let s := { s with epitemidxsByEpfd := byEpfd }
        match delIndex s.epitemidxsByFd fd i with
        | none => (s, -enoent)
        | some byFd =>
          let v := s.vepolls.elt j
          (setVepoll { s with epitemidxsByFd := byFd } j { v with count := v.count - 1 }, 0)
  else vcomSocketCtlVepitem s epfd op fd event j type

def vcomSocketEpollCtl1 (s : VcomSocketMain) (epfd op fd : Int) (event : EpollEvent) (rv : Int) :
    VcomSocketMain × Int :=
  match vcomSocketGetVepIdxAndVepoll s epfd with
  | none => (s, -ebadf)
  | some j =>
    let type : Option VcomFdType :=
      if (vcomSocketGetSidAndVsock s fd).isSome then some .vcomSocket
      else if (vcomSocketGetVepIdxAndVepoll s fd).isSome then some .epoll
      else none
    match type with
    | none => (s, -ebadf)
    | some type => if rv < 0 then (s, rv) else ctlVepitemKept s epfd op fd event j type

structure Answers where
  closes : Int → Libc
  epollCtl : Int × Int → Int

/-- A world, and the descriptors and sessions that were closed on the way to it. -/
structure Closing where
  world : World
  fds : List Int
  sessions : List Int

def onVsm (c : Closing) (f : VcomSocketMain → VcomSocketMain) : Closing :=
  { c with world := { c.world with vsm := f c.world.vsm } }

/-- The body of the `pool_flush` over the items, which is run for every type. -/
def flushVepitem (o : Answers) (s : VcomSocketMain) (x : Nat) : VcomSocketMain :=
  let item := s.vepitems.elt x
  let s := (vcomSocketEpollCtl1 s item.epfd epollCtlDel item.fd noEvent (o.epollCtl item.epfdfd)).1
  { s with vepitems := remove s.vepitems x vepitemInit }

/-- The session is closed and then the descriptor. -/
def closeBound (o : Answers) (c : Closing) (fd sid : Int) : Closing :=
  { world := (libcClose (vppcomSessionClose c.world sid) fd (o.closes fd)).1
    fds := c.fds ++ [fd]
    sessions := c.sessions ++ [sid] }

def destroyVsock (o : Answers) (c : Closing) (i : Nat) : Closing :=
  let vsock := c.world.vsm.vsockets.elt i
  if vsock.type = .vppcomBound then
    onVsm (closeBound o c vsock.fd vsock.sid)
      (fun s => { s with vsockets := set s.vsockets i vsocketInit })
  else c

def destroyVepoll (o : Answers) (c : Closing) (j : Nat) : Closing :=
  let vepoll := c.world.vsm.vepolls.elt j
  if vepoll.type = .vppcomBound then
    onVsm (closeBound o c vepoll.epfd vepoll.vepIdx)
      (fun s => { s with vepolls := set s.vepolls j vepollInit })
  else c

def freeVepitems (s : VcomSocketMain) : VcomSocketMain :=
  { s with
    vepitems := empty vepitemInit
    epitemidxByEpfdfd := fun _ => none
    epitemidxsByEpfd := fun _ => none
    epitemidxsByFd := fun _ => none }

def freeVsockets (s : VcomSocketMain) : VcomSocketMain :=
  { s with vsockets := empty vsocketInit, sockidxByFd := fun _ => none }

def freeVepolls (s : VcomSocketMain) : VcomSocketMain :=
  { s with vepolls := empty vepollInit, epollidxByEpfd := fun _ => none }

/-- The tables, `init`, and `is_vcom_init` of the library above them. -/
structure Vcom where
  isVcomInit : Bool
  init : Bool
  world : World

def flushVepitems (o : Answers) (s : VcomSocketMain) : VcomSocketMain :=
  freeVepitems ((liveIndices s.vepitems).foldl (flushVepitem o) s)

def closeVsockets (o : Answers) (c : Closing) : Closing :=
  onVsm ((liveIndices c.world.vsm.vsockets).foldl (destroyVsock o) c) freeVsockets

def closeVepolls (o : Answers) (c : Closing) : Closing :=
  onVsm ((liveIndices c.world.vsm.vepolls).foldl (destroyVepoll o) c) freeVepolls

def closeAll (o : Answers) (w : World) : Closing :=
  closeVepolls o (closeVsockets o (onVsm ⟨w, [], []⟩ (flushVepitems o)))

def vcomSocketMainDestroy (o : Answers) (v : Vcom) : Vcom × Closing :=
  if v.init then
    let c := closeAll o v.world
    ({ v with init := false, world := c.world }, c)
  else (v, ⟨v.world, [], []⟩)

def vcomSocketMainInitOnce (v : Vcom) : Vcom :=
  if v.init then v
  else { v with init := true, world := { v.world with vsm := vcomSocketMainInit } }

def vcomInit (created : Int) (v : Vcom) : Vcom × Int :=
  if v.isVcomInit then (v, 0)
  else if created ≠ 0 then (v, -1)
  else ({ vcomSocketMainInitOnce v with isVcomInit := true }, 0)

def vcomDestroy (o : Answers) (v : Vcom) : Vcom × Closing :=
  if v.isVcomInit then
    let d := vcomSocketMainDestroy o v
    ({ d.1 with isVcomInit := false }, d.2)
  else (v, ⟨v.world, [], []⟩)

/-- A call comes through a wrapper, which sets the library up when it is not. -/
inductive Event where
  | call (created : Int) (a : Act)
  | destroy (o : Answers)

instance (flags : Int32) (o : AcceptCalls) : Decidable (Connects flags o) :=
  inferInstanceAs (Decidable (_ ∧ _))

instance (w : World) (fd : Int) (flags : Int32) (o : AcceptCalls) :
    Decidable (Obtains w fd flags o) :=
  inferInstanceAs (Decidable (_ ∧ _))

def lostBy (w : World) : Act → List Int
  | .accept fd _ _ o => if Obtains w fd 0 o ∧ ¬ Connects 0 o then [o.accept] else []
  | .accept4 fd _ _ flags o => if Obtains w fd flags o ∧ ¬ Connects flags o then [o.accept] else []
  | _ => []

structure Life where
  vcom : Vcom
  lost : List Int

def born : Life := ⟨⟨false, false, start⟩, []⟩

def live (l : Life) : Event → Option Life
  | .call created a =>
    let v := vcomInit created l.vcom
    if v.2 ≠ 0 then some { l with vcom := v.1 }
    else (step v.1.world a).map (fun w => ⟨{ v.1 with world := w }, lostBy v.1.world a ++ l.lost⟩)
  | .destroy o => some { l with vcom := (vcomDestroy o l.vcom).1 }

variable {t : Terms} {w w' : World} {lost : List Int} {a : Act} {o : Answers}

section Accounts

/-- The open sessions are those of the sockets, those of the epoll instances and those
that have been lost. -/
def Accounted (lost : List Int) (w : World) : Prop :=
  Owned w.sessions (column VcomSocket.sid w.vsm.vsockets)
    (column VcomEpoll.vepIdx w.vsm.vepolls ++ lost)

theorem Accounted.setVepoll (ho : Accounted lost w) {j : Nat} {v : VcomEpoll}
    (hv : v.vepIdx = (w.vsm.vepolls.elt j).vepIdx) :
    Accounted lost { w with vsm := setVepoll w.vsm j v } := by
  unfold Accounted at ho
  rw [← column_set hv] at ho
  exact ho

theorem accounted_edit (h : Sound w) (ho : Accounted lost w) (ht : ¬ t.lost) (he : Edit t w w') :
    Accounted lost w' := by
  cases he with
  | addVsock fd sid hfd hn hs => exact Owned.cons ho hn (column_insert _ h.socks.wf)
  | addVepoll epfd vepIdx flags hfd hn hs =>
    have hp := (column_insert (a := ⟨epfd, vepIdx, .vppcomBound, flags, 0, false⟩)
      VcomEpoll.vepIdx h.epolls.wf).append_right lost
    exact (Owned.cons (Owned.symm ho) hn hp).symm
  | loseSession sid hl => exact absurd hl ht
  | addVepitem x j hx hj hi hg hopen =>
    exact @Accounted.setVepoll w lost ho j { w.vsm.vepolls.elt j with
      count := (w.vsm.vepolls.elt j).count + 1 } rfl
  | setVepitem i x hi hx => exact ho
  | delVepitem i j byEpfd byFd hi hj he hf hc =>
    exact @Accounted.setVepoll w lost ho j { w.vsm.vepolls.elt j with
      count := (w.vsm.vepolls.elt j).count - 1 } rfl
  | markClosed j hj hc => exact ho.setVepoll rfl
  | lower j hj hc hf => exact ho.setVepoll rfl
  | dropVsock fd i r hi hm => exact Owned.erase ho (column_remove _ (h.socks.hashed.live hi))
  | dropVepoll epfd j r hj hf hset =>
    have hp := (column_remove (a := vepollInit) VcomEpoll.vepIdx
      (h.epolls.hashed.live hj)).append_right lost
    exact (Owned.erase (Owned.symm ho) hp).symm

theorem Accounted.lose (ho : Accounted lost w) {sid : Int} (hs : sid ∉ w.sessions) :
    Accounted (sid :: lost) (openSession w sid) := by
  refine ⟨List.nodup_cons.mpr ⟨hs, ho.nodup⟩, ?_⟩
  have hp := ho.perm.cons sid
  rw [← List.append_assoc] at hp
  have hm : (column VcomSocket.sid w.vsm.vsockets ++ column VcomEpoll.vepIdx w.vsm.vepolls ++
      sid :: lost).Perm (sid :: (column VcomSocket.sid w.vsm.vsockets ++
        column VcomEpoll.vepIdx w.vsm.vepolls ++ lost)) := List.perm_middle
  rw [List.append_assoc] at hm
  exact hp.trans hm.symm

theorem accounted_call (h : Sound w) (ho : Accounted lost w) (hf : Fits w a) :
    Accounted (lostBy w a ++ lost) (call w a).1 := by
  have hkept : lostBy w a = [] → ¬ Loses w a → Accounted (lostBy w a ++ lost) (call w a).1 := by
    intro hl hn
    rw [hl]
    exact edits_keep h ho (call_edits h hf) fun _ _ hu hp he => accounted_edit hu hp hn he
  cases a with
  | accept fd addr addrLen c =>
    by_cases hl : Obtains w fd 0 c ∧ ¬ Connects 0 c
    · have hw := (@acceptFlags_lost w fd 0 c addr addrLen hf hl.1 hl.2).1
      rw [lostBy, if_pos hl, call, vcomSocketAccept, hw]
      exact ho.lose hf.2.1
    · exact hkept (if_neg hl) hl
  | accept4 fd addr addrLen flags c =>
    by_cases hl : Obtains w fd flags c ∧ ¬ Connects flags c
    · have hw := (@acceptFlags_lost w fd flags c addr addrLen hf hl.1 hl.2).1
      rw [lostBy, if_pos hl, call, vcomSocketAccept4, hw]
      exact ho.lose hf.2.1
    · exact hkept (if_neg hl) hl
  | _ => exact hkept rfl id

end Accounts

section Closing

/-- These were closed between the two, each of them once, in this order. -/
structure Closed (closedFds closedSids : List Int) (c d : Closing) : Prop where
  fds : d.fds = c.fds ++ closedFds
  sessions : d.sessions = c.sessions ++ closedSids
  openFds : d.world.fds = c.world.fds.diff closedFds
  openSessions : d.world.sessions = c.world.sessions.diff closedSids

variable {c d e : Closing} {fds sids fds' sids' : List Int}

theorem closed_nil (c : Closing) (f : VcomSocketMain → VcomSocketMain) : Closed [] [] c (onVsm c f) :=
  ⟨(List.append_nil _).symm, (List.append_nil _).symm, rfl, rfl⟩

theorem Closed.trans (h : Closed fds sids c d) (h' : Closed fds' sids' d e) :
    Closed (fds ++ fds') (sids ++ sids') c e := by
  refine ⟨?_, ?_, ?_, ?_⟩
  · rw [h'.fds, h.fds, List.append_assoc]
  · rw [h'.sessions, h.sessions, List.append_assoc]
  · rw [h'.openFds, h.openFds, List.diff_append]
  · rw [h'.openSessions, h.openSessions, List.diff_append]

theorem Closed.onVsm (h : Closed fds sids c d) (f : VcomSocketMain → VcomSocketMain) :
    Closed fds sids c (onVsm d f) := ⟨h.fds, h.sessions, h.openFds, h.openSessions⟩

theorem closed_bound (o : Answers) (c : Closing) (fd sid : Int)
    (f : VcomSocketMain → VcomSocketMain) :
    Closed [fd] [sid] c (onVsm (closeBound o c fd sid) f) :=
  ⟨rfl, rfl, (List.diff_cons c.world.fds [] fd).symm, (List.diff_cons c.world.sessions [] sid).symm⟩

/-- A loop that closes what a slot holds, and leaves the other slots alone. -/
theorem closed_foldl {α : Type} {f : Closing → Nat → Closing} (slot : Closing → Nat → α)
    (bound : α → Prop) (fd sid : α → Int)
    (hround : ∀ c i, bound (slot c i) → Closed [fd (slot c i)] [sid (slot c i)] c (f c i))
    (hother : ∀ c i j, j ≠ i → slot (f c i) j = slot c j) {l : List Nat} (hn : l.Nodup)
    (hb : ∀ i ∈ l, bound (slot c i)) :
    Closed (l.map fun i => fd (slot c i)) (l.map fun i => sid (slot c i)) c (l.foldl f c) := by
  induction l generalizing c with
  | nil => exact closed_nil c id
  | cons i l ih =>
    obtain ⟨hi, hn⟩ := List.nodup_cons.mp hn
    have hold : ∀ j ∈ l, slot (f c i) j = slot c j := fun j hj =>
      hother c i j fun he => hi (he ▸ hj)
    have hrest := @ih (f c i) hn fun j hj => by
      rw [hold j hj]
      exact hb j (List.mem_cons_of_mem i hj)
    have hfds : (l.map fun j => fd (slot (f c i) j)) = l.map fun j => fd (slot c j) :=
      List.map_congr_left fun j hj => by rw [hold j hj]
    have hsids : (l.map fun j => sid (slot (f c i) j)) = l.map fun j => sid (slot c j) :=
      List.map_congr_left fun j hj => by rw [hold j hj]
    rw [hfds, hsids] at hrest
    exact (hround c i (hb i List.mem_cons_self)).trans hrest

def vsockAt (c : Closing) (i : Nat) : VcomSocket := c.world.vsm.vsockets.elt i

def vepollAt (c : Closing) (j : Nat) : VcomEpoll := c.world.vsm.vepolls.elt j

theorem destroyVsock_bound {i : Nat} (h : (vsockAt c i).type = .vppcomBound) :
    destroyVsock o c i = onVsm (closeBound o c (vsockAt c i).fd (vsockAt c i).sid)
      (fun s => { s with vsockets := set s.vsockets i vsocketInit }) := if_pos h

theorem destroyVsock_unbound {i : Nat} (h : (vsockAt c i).type ≠ .vppcomBound) :
    destroyVsock o c i = c := if_neg h

theorem destroyVepoll_bound {j : Nat} (h : (vepollAt c j).type = .vppcomBound) :
    destroyVepoll o c j = onVsm (closeBound o c (vepollAt c j).epfd (vepollAt c j).vepIdx)
      (fun s => { s with vepolls := set s.vepolls j vepollInit }) := if_pos h

theorem destroyVepoll_unbound {j : Nat} (h : (vepollAt c j).type ≠ .vppcomBound) :
    destroyVepoll o c j = c := if_neg h

theorem vsockAt_destroyVsock {i j : Nat} (h : j ≠ i) :
    vsockAt (destroyVsock o c i) j = vsockAt c j := by
  by_cases hb : (vsockAt c i).type = .vppcomBound
  · rw [destroyVsock_bound hb]
    exact elt_set_of_ne h
  · rw [destroyVsock_unbound hb]

theorem vepollAt_destroyVepoll {i j : Nat} (h : j ≠ i) :
    vepollAt (destroyVepoll o c i) j = vepollAt c j := by
  by_cases hb : (vepollAt c i).type = .vppcomBound
  · rw [destroyVepoll_bound hb]
    exact elt_set_of_ne h
  · rw [destroyVepoll_unbound hb]

theorem destroyVsocks_vsm (l : List Nat) : ∃ p,
    (l.foldl (destroyVsock o) c).world.vsm = { c.world.vsm with vsockets := p } := by
  induction l generalizing c with
  | nil => exact ⟨c.world.vsm.vsockets, rfl⟩
  | cons i l ih =>
    obtain ⟨p, hp⟩ := @ih (destroyVsock o c i)
    refine ⟨p, hp.trans ?_⟩
    by_cases hb : (vsockAt c i).type = .vppcomBound
    · rw [destroyVsock_bound hb]
      rfl
    · rw [destroyVsock_unbound hb]

theorem destroyVepolls_vsm (l : List Nat) : ∃ p,
    (l.foldl (destroyVepoll o) c).world.vsm = { c.world.vsm with vepolls := p } := by
  induction l generalizing c with
  | nil => exact ⟨c.world.vsm.vepolls, rfl⟩
  | cons j l ih =>
    obtain ⟨p, hp⟩ := @ih (destroyVepoll o c j)
    refine ⟨p, hp.trans ?_⟩
    by_cases hb : (vepollAt c j).type = .vppcomBound
    · rw [destroyVepoll_bound hb]
      rfl
    · rw [destroyVepoll_unbound hb]

theorem closed_vsockets (hb : ∀ i, Live c.world.vsm.vsockets i →
      (c.world.vsm.vsockets.elt i).type = .vppcomBound) :
    Closed (column VcomSocket.fd c.world.vsm.vsockets) (column VcomSocket.sid c.world.vsm.vsockets)
      c (closeVsockets o c) := by
  have hfold := closed_foldl vsockAt (fun v => v.type = .vppcomBound) VcomSocket.fd VcomSocket.sid
    (fun c i hb => by rw [destroyVsock_bound hb]; exact closed_bound o c _ _ _)
    (fun c i j => vsockAt_destroyVsock) (nodup_liveIndices c.world.vsm.vsockets)
    fun i hi => hb i ((mem_liveIndices _ i).mp hi)
  exact hfold.onVsm freeVsockets

theorem closed_vepolls (hb : ∀ j, Live c.world.vsm.vepolls j →
      (c.world.vsm.vepolls.elt j).type = .vppcomBound) :
    Closed (column VcomEpoll.epfd c.world.vsm.vepolls) (column VcomEpoll.vepIdx c.world.vsm.vepolls)
      c (closeVepolls o c) := by
  have hfold := closed_foldl vepollAt (fun v => v.type = .vppcomBound) VcomEpoll.epfd
    VcomEpoll.vepIdx (fun c j hb => by rw [destroyVepoll_bound hb]; exact closed_bound o c _ _ _)
    (fun c i j => vepollAt_destroyVepoll) (nodup_liveIndices c.world.vsm.vepolls)
    fun j hj => hb j ((mem_liveIndices _ j).mp hj)
  exact hfold.onVsm freeVepolls

end Closing

section Flush

/-- The sockets are the same, and so are the epoll instances but for their counts. -/
structure SameBound (s t : VcomSocketMain) : Prop where
  vsockets : t.vsockets = s.vsockets
  live : liveIndices t.vepolls = liveIndices s.vepolls
  epfd : ∀ j, (t.vepolls.elt j).epfd = (s.vepolls.elt j).epfd
  vepIdx : ∀ j, (t.vepolls.elt j).vepIdx = (s.vepolls.elt j).vepIdx
  type : ∀ j, (t.vepolls.elt j).type = (s.vepolls.elt j).type

variable {s s' s'' : VcomSocketMain}

theorem SameBound.of_eq (hs : s'.vsockets = s.vsockets) (hv : s'.vepolls = s.vepolls) :
    SameBound s s' := by
  refine ⟨hs, ?_, fun j => ?_, fun j => ?_, fun j => ?_⟩ <;> rw [hv]

theorem SameBound.trans (h : SameBound s s') (h' : SameBound s' s'') : SameBound s s'' :=
  ⟨h'.vsockets.trans h.vsockets, h'.live.trans h.live, fun j => (h'.epfd j).trans (h.epfd j),
    fun j => (h'.vepIdx j).trans (h.vepIdx j), fun j => (h'.type j).trans (h.type j)⟩

theorem SameBound.recount (h : SameBound s s') (j : Nat) (n : Int) :
    SameBound s (setVepoll s' j { s'.vepolls.elt j with count := n }) :=
  h.trans ⟨rfl, rfl, @key_set _ _ VcomEpoll.epfd _ _ _ rfl, @key_set _ _ VcomEpoll.vepIdx _ _ _ rfl,
    @key_set _ _ VcomEpoll.type _ _ _ rfl⟩

theorem ctlVepitemKept_same (epfd fd : Int) (event : EpollEvent) (j : Nat) (type : VcomFdType) :
    SameBound s (ctlVepitemKept s epfd epollCtlDel fd event j type).1 := by
  unfold ctlVepitemKept
  rw [if_pos rfl]
  split
  · exact .of_eq rfl rfl
  · dsimp only
    split
    · exact .of_eq rfl rfl
    · split
      · exact .of_eq rfl rfl
      · rename_i i byEpfd _ _ byFd _
        have hs : SameBound s { s with
            epitemidxByEpfdfd := Function.update s.epitemidxByEpfdfd (epfd, fd) none
            epitemidxsByEpfd := byEpfd
            epitemidxsByFd := byFd } := .of_eq rfl rfl
        exact hs.recount j _

theorem epollCtl1_same (epfd fd : Int) (event : EpollEvent) (rv : Int) :
    SameBound s (vcomSocketEpollCtl1 s epfd epollCtlDel fd event rv).1 := by
  unfold vcomSocketEpollCtl1
  split
  · exact .of_eq rfl rfl
  · dsimp only
    split
    · exact .of_eq rfl rfl
    · split
      · exact .of_eq rfl rfl
      · exact ctlVepitemKept_same _ _ _ _ _

theorem flushVepitems_same (o : Answers) (l : List Nat) :
    SameBound s (l.foldl (flushVepitem o) s) := by
  induction l generalizing s with
  | nil => exact .of_eq rfl rfl
  | cons x l ih =>
    have hctl := epollCtl1_same (s := s) (s.vepitems.elt x).epfd (s.vepitems.elt x).fd noEvent
      (o.epollCtl (s.vepitems.elt x).epfdfd)
    have hround : SameBound s (flushVepitem o s x) := hctl.trans (.of_eq rfl rfl)
    exact hround.trans ih

end Flush

theorem perm_diff_left {α : Type} [DecidableEq α] {l xs ys : List α} (h : l.Perm (xs ++ ys)) :
    (l.diff xs).Perm ys := by
  induction xs generalizing l with
  | nil => exact h
  | cons x xs ih =>
    rw [List.diff_cons]
    have hp := h.erase x
    rw [List.cons_append, List.erase_cons_head] at hp
    exact ih hp

theorem closeAll_vsm (o : Answers) (w : World) :
    (closeAll o w).world.vsm = vcomSocketMainInit := by
  obtain ⟨p, hp⟩ := destroyVsocks_vsm (o := o) (c := onVsm ⟨w, [], []⟩ (flushVepitems o))
    (liveIndices (flushVepitems o w.vsm).vsockets)
  obtain ⟨q, hq⟩ := destroyVepolls_vsm (o := o)
    (c := closeVsockets o (onVsm ⟨w, [], []⟩ (flushVepitems o)))
    (liveIndices (closeVsockets o (onVsm ⟨w, [], []⟩ (flushVepitems o))).world.vsm.vepolls)
  have hfree := congrArg freeVsockets hp
  calc (closeAll o w).world.vsm
    _ = freeVepolls { (closeVsockets o (onVsm ⟨w, [], []⟩ (flushVepitems o))).world.vsm with
          vepolls := q } := congrArg freeVepolls hq
    _ = freeVepolls { freeVsockets { flushVepitems o w.vsm with vsockets := p } with
          vepolls := q } := congrArg (fun s => freeVepolls { s with vepolls := q }) hfree
    _ = vcomSocketMainInit := rfl

/-- The teardown closes what the sockets and the epoll instances have, and nothing
else. -/
theorem closeAll_closed (h : Sound w) (o : Answers) :
    Closed (column VcomSocket.fd w.vsm.vsockets ++ column VcomEpoll.epfd w.vsm.vepolls)
      (column VcomSocket.sid w.vsm.vsockets ++ column VcomEpoll.vepIdx w.vsm.vepolls)
      ⟨w, [], []⟩ (closeAll o w) := by
  have hs : SameBound w.vsm (flushVepitems o w.vsm) :=
    (flushVepitems_same o _).trans (.of_eq rfl rfl)
  have hnil := closed_nil ⟨w, [], []⟩ (flushVepitems o)
  have hvsocks : (onVsm ⟨w, [], []⟩ (flushVepitems o)).world.vsm.vsockets = w.vsm.vsockets :=
    hs.vsockets
  have hvepolls : (onVsm ⟨w, [], []⟩ (flushVepitems o)).world.vsm.vepolls =
      (flushVepitems o w.vsm).vepolls := rfl
  rw [closeAll]
  generalize onVsm ⟨w, [], []⟩ (flushVepitems o) = c at hnil hvsocks hvepolls
  have hsocks := closed_vsockets (c := c) (o := o) fun i hi => by
    rw [hvsocks] at hi ⊢
    exact (h.socks.good i hi).1
  rw [hvsocks] at hsocks
  obtain ⟨p, hp⟩ := destroyVsocks_vsm (o := o) (c := c) (liveIndices c.world.vsm.vsockets)
  have hv : (closeVsockets o c).world.vsm.vepolls = (flushVepitems o w.vsm).vepolls :=
    (congrArg (fun s => (freeVsockets s).vepolls) hp).trans hvepolls
  generalize closeVsockets o c = d at hsocks hv
  have hepolls := closed_vepolls (c := d) (o := o) fun j hj => by
    rw [hv, ← mem_liveIndices, hs.live, mem_liveIndices] at hj
    rw [hv, hs.type j]
    exact (h.epolls.good j hj).1
  rw [hv, column_congr hs.live fun j _ => hs.epfd j,
    column_congr hs.live fun j _ => hs.vepIdx j] at hepolls
  exact hnil.trans (hsocks.trans hepolls)

structure Balanced (l : Life) : Prop where
  sound : Sound l.vcom.world
  accounted : Accounted l.lost l.vcom.world
  setUp : l.vcom.init = l.vcom.isVcomInit
  blank : l.vcom.init = false → l.vcom.world.vsm = vcomSocketMainInit

/-- The teardown closed every descriptor and every session once, but for the sessions
that have been lost, and the next call of the library finds it as it was at first. -/
structure TornDown (l : Life) (d : Vcom × Closing) : Prop where
  fdsOnce : d.2.fds.Nodup
  fds : d.2.fds.Perm l.vcom.world.fds
  sessionsOnce : d.2.sessions.Nodup
  sessions : (d.2.sessions ++ l.lost).Perm l.vcom.world.sessions
  noFds : d.1.world.fds = []
  lost : d.1.world.sessions.Perm l.lost
  tables : d.1 = ⟨false, false, ⟨vcomSocketMainInit, [], d.1.world.sessions⟩⟩

variable {l l' : Life}

theorem sound_blank {w : World} (hv : w.vsm = vcomSocketMainInit) (hf : w.fds = []) : Sound w := by
  obtain ⟨vsm, fds, sessions⟩ := w
  obtain rfl : vsm = vcomSocketMainInit := hv
  obtain rfl : fds = [] := hf
  exact ⟨sound_start.socks, sound_start.epolls, sound_start.fds, sound_start.items⟩

theorem Balanced.blank_fds (h : Balanced l) (hi : l.vcom.init = false) : l.vcom.world.fds = [] := by
  have hp := h.sound.fds.perm
  rw [h.blank hi] at hp
  exact hp.eq_nil

theorem tornDown (h : Balanced l) (o : Answers) : TornDown l (vcomDestroy o l.vcom) := by
  have hsess := h.accounted.perm
  rw [← List.append_assoc] at hsess
  cases hi : l.vcom.isVcomInit with
  | false =>
    have hinit := h.setUp.trans hi
    have hfds := h.blank_fds hinit
    have hv := h.blank hinit
    have hd : vcomDestroy o l.vcom = (l.vcom, ⟨l.vcom.world, [], []⟩) := by
      rw [vcomDestroy, hi]
      rfl
    rw [hd]
    rw [hv] at hsess
    refine ⟨List.nodup_nil, ?_, List.nodup_nil, hsess.symm, hfds, hsess, ?_⟩
    · rw [hfds]
    · obtain ⟨⟨isVcomInit, init, vsm, fds, sessions⟩, lost⟩ := l
      obtain rfl : isVcomInit = false := hi
      obtain rfl : init = false := hinit
      obtain rfl : vsm = vcomSocketMainInit := hv
      obtain rfl : fds = [] := hfds
      rfl
  | true =>
    have hc := closeAll_closed h.sound o
    have hd : vcomDestroy o l.vcom =
        (⟨false, false, (closeAll o l.vcom.world).world⟩, closeAll o l.vcom.world) := by
      rw [vcomDestroy, if_pos hi, vcomSocketMainDestroy, if_pos (h.setUp.trans hi)]
    have hfds := h.sound.fds
    have hempty : (closeAll o l.vcom.world).world.fds = [] := by
      have hp := hfds.perm
      rw [← List.append_nil (_ ++ _)] at hp
      rw [hc.openFds]
      exact (perm_diff_left hp).eq_nil
    have hn := (hsess.nodup_iff.mp h.accounted.nodup).of_append_left
    have hv := closeAll_vsm o l.vcom.world
    rw [hd]
    refine ⟨?_, ?_, ?_, ?_, hempty, ?_, ?_⟩
    · rw [hc.fds]
      exact hfds.perm.nodup_iff.mp hfds.nodup
    · rw [hc.fds]
      exact hfds.perm.symm
    · rw [hc.sessions]
      exact hn
    · rw [hc.sessions]
      exact hsess.symm
    · rw [hc.openSessions]
      exact perm_diff_left hsess
    · rw [← hv, ← hempty]

theorem TornDown.balanced (h : Balanced l) {o : Answers} (hd : TornDown l (vcomDestroy o l.vcom)) :
    Balanced { l with vcom := (vcomDestroy o l.vcom).1 } := by
  have ht := hd.tables
  have hv : (vcomDestroy o l.vcom).1.world.vsm = vcomSocketMainInit := by rw [ht]
  have hn : l.lost.Nodup :=
    (hd.sessions.nodup_iff.mpr h.accounted.nodup).of_append_right
  refine ⟨sound_blank hv hd.noFds, ⟨hd.lost.nodup_iff.mpr hn, ?_⟩, ?_, fun _ => hv⟩
  · rw [hv]
    exact hd.lost
  · rw [ht]

theorem balanced_born : Balanced born :=
  ⟨sound_start, ⟨List.nodup_nil, List.Perm.nil⟩, rfl, fun _ => rfl⟩

theorem Balanced.init (h : Balanced l) (created : Int) :
    Balanced { l with vcom := (vcomInit created l.vcom).1 } ∧
      ((vcomInit created l.vcom).2 = 0 → (vcomInit created l.vcom).1.init = true) := by
  rw [vcomInit]
  by_cases hi : l.vcom.isVcomInit = true
  · rw [if_pos hi]
    exact ⟨h, fun _ => h.setUp.trans hi⟩
  · rw [if_neg hi]
    by_cases hc : created ≠ 0
    · rw [if_pos hc]
      exact ⟨h, fun he => absurd he (by decide : ¬ (-1 : Int) = 0)⟩
    · have hinit : l.vcom.init = false := h.setUp.trans (Bool.not_eq_true _ ▸ hi)
      have hv := h.blank hinit
      rw [if_neg hc, vcomSocketMainInitOnce, hinit]
      refine ⟨⟨?_, ?_, rfl, fun he => absurd he.symm Bool.false_ne_true⟩, fun _ => rfl⟩
      · exact sound_blank rfl (h.blank_fds hinit)
      · have ha := h.accounted
        unfold Accounted at ha ⊢
        rwa [hv] at ha

theorem balanced_live {e : Event} (h : Balanced l) (hl : live l e = some l') : Balanced l' := by
  cases e with
  | destroy o =>
    obtain rfl := Option.some.inj hl
    exact (tornDown h o).balanced h
  | call created a =>
    obtain ⟨hb, hup⟩ := h.init created
    rw [live] at hl
    dsimp only at hl
    generalize vcomInit created l.vcom = v at hb hup hl
    by_cases hv : v.2 ≠ 0
    · rw [if_pos hv] at hl
      obtain rfl := Option.some.inj hl
      exact hb
    · rw [if_neg hv] at hl
      obtain ⟨w, hw, rfl⟩ := Option.map_eq_some_iff.mp hl
      obtain ⟨hf, rfl⟩ := step_eq_some.mp hw
      have hinit := hup (not_not.mp hv)
      refine ⟨hb.sound.edits (call_edits hb.sound hf), accounted_call hb.sound hb.accounted hf,
        hb.setUp, fun he => ?_⟩
      rw [hinit] at he
      cases he

/-- Whatever the library was used for, torn down and set up again, a teardown leaves no
descriptor open and no session but those lost. -/
theorem run_tornDown {es : List Event} (hr : run live born es = some l) (o : Answers) :
    TornDown l (vcomDestroy o l.vcom) :=
  tornDown (invariant (P := Balanced) (fun _ _ _ hs ht => balanced_live hs ht) balanced_born hr) o

def twoLives : List Event :=
  [.call 0 VcomHandles.listen, .call 0 (.accept 3 true true (VcomHandles.peer ⟨-1, 24⟩)),
    .destroy ⟨fun _ => ⟨-1, 5⟩, fun _ => -1⟩, .call 0 (.socket afInet sockStream ⟨3, 0⟩ 7 ⟨0, 0⟩),
    .call 0 (.epollCreate1 0 ⟨4, 0⟩ 8 ⟨0, 0⟩), .call 0 (.epollCtl 4 epollCtlAdd 3 noEvent 0)]

theorem run_tornDown_sample : ∃ l, run live born twoLives = some l ∧ l.lost = [1] ∧
    l.vcom.world.fds = [4, 3] ∧ l.vcom.world.sessions = [8, 7, 1] ∧
    TornDown l (vcomDestroy ⟨fun _ => ⟨0, 0⟩, fun _ => 0⟩ l.vcom) := by
  obtain ⟨l, hr⟩ : ∃ l, run live born twoLives = some l := ⟨_, rfl⟩
  refine ⟨l, hr, ?_, ?_, ?_, run_tornDown hr _⟩
  · obtain rfl := Option.some.inj hr
    rfl
  · obtain rfl := Option.some.inj hr
    rfl
  · obtain rfl := Option.some.inj hr
    rfl

end Vppsb.VcomTeardown
