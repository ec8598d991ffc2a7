import Vppsb.StepRun
import Vppsb.VcomSockets

namespace Vppsb.VcomCalls

open Vppsb.StepRun Vppsb.VcomSockets
open Vppsb.VcomSelect (VcomSocketType einval)

structure SockOpt (α : Type) where
  r : Libc
  value : α

/-- A call that fails sets `errno`. -/
def SockOpt.Sets {α : Type} (o : SockOpt α) : Prop := o.r.rv ≠ 0 → 0 < o.r.errno

instance {α : Type} (o : SockOpt α) : Decidable o.Sets := inferInstanceAs (Decidable (_ → _))

/-- The values of `is_ip4` that the source has a name for, and the others. -/
inductive IsIp4 where
  | ip4
  | ip6
  | other
deriving DecidableEq

structure VppcomEndpt where
  isCutThru : Bool
  isIp4 : IsIp4
  ip : List UInt8
  port : UInt16

/-- What the calls made by `accept` return, in the order in which they are made. -/
structure AcceptCalls where
  mode : SockOpt Int32
  fcntl : Int32
  accept : Int
  ep : VppcomEndpt
  domain : SockOpt Int
  type : SockOpt Int32
  protocol : SockOpt Int
  socket : Libc

structure Sockaddr where
  family : Int
  port : UInt16
  addr : List UInt8

structure Accepted where
  world : World
  rv : Int
  addr : Option Sockaddr
  addrLen : Option Nat

/-- What `getsockopt` returns for the type is `mode`. -/
def vcomSocketIsConnectionModeSocket (s : VcomSocketMain) (fd : Int) (mode : SockOpt Int32) : Bool :=
  vcomSocketIsVcomFd s fd && decide (mode.r.rv = 0) &&
    (decide (baseType mode.value = sockStream) || decide (baseType mode.value = sockSeqpacket))

def vcomSocketConnectedSocket (w : World) (sid : Int) (flags : Int32) (o : AcceptCalls) :
    World × Int :=
  if o.domain.r.rv ≠ 0 then (w, -o.domain.r.errno)
  else if o.type.r.rv ≠ 0 then (w, -o.type.r.errno)
  else if o.protocol.r.rv ≠ 0 then (w, -o.protocol.r.errno)
  else
    let s := vcomSocketOpenSocket w o.domain.value (o.type.value ||| flags) o.socket
    if s.2 < 0 then s else ({ s.1 with vsm := addVsock w.vsm s.2 sid }, s.2)

def peerIsIp4 (ep : VppcomEndpt) (domain : Int) : Option Bool :=
  if ep.isCutThru then
    if domain = afInet then some true else if domain = afInet6 then some false else none
  else match ep.isIp4 with
    | .ip4 => some true
    | .ip6 => some false
    | .other => none

def sockaddrOf (ep : VppcomEndpt) (isIp4 : Bool) : Sockaddr :=
  if isIp4 then ⟨afInet, ep.port, ep.ip.take 4⟩ else ⟨afInet6, ep.port, ep.ip.take 16⟩

def sockaddrLen (isIp4 : Bool) : Nat := if isIp4 then 16 else 28

/-- What `vppcom_session_accept` returns is changed for a nonblocking socket. -/
def sessionAccept (o : AcceptCalls) : Int :=
  if o.fcntl &&& oNonblock ≠ 0 ∧ o.accept = -etimedout then -eagain else o.accept

/-- The end of `vcom_socket_accept_flags`, which tells the address of the peer. -/
def acceptAnswer (c : World × Int) (addr addrLen : Bool) (o : AcceptCalls) : Accepted :=
  if addr then
    match peerIsIp4 o.ep o.domain.value with
    | none => ⟨c.1, -eafnosupport, none, none⟩
    | some ip4 =>
      ⟨c.1, c.2, some (sockaddrOf o.ep ip4), if addrLen then some (sockaddrLen ip4) else none⟩
  else if addrLen then ⟨c.1, -1, none, none⟩
  else ⟨c.1, c.2, none, none⟩

/-- `addr` and `addrLen` tell whether the two pointers are there. -/
def vcomSocketAcceptFlags (w : World) (fd : Int) (addr addrLen : Bool) (flags : Int32)
    (o : AcceptCalls) : Accepted :=
  if ¬ (flags = 0 ∨ flags &&& (sockNonblock ||| sockCloexec) ≠ 0) then ⟨w, -1, none, none⟩
  else if !vcomSocketIsConnectionModeSocket w.vsm fd o.mode then ⟨w, -eopnotsupp, none, none⟩
  else match w.vsm.sockidxByFd fd with
  | none => ⟨w, -1, none, none⟩
  | some _ =>
    if o.fcntl < 0 then ⟨w, o.fcntl.toInt, none, none⟩
    else if sessionAccept o < 0 then ⟨w, sessionAccept o, none, none⟩
    else
      let sid := sessionAccept o
      let c := vcomSocketConnectedSocket (openSession w sid) sid flags o
      if c.2 < 0 then ⟨c.1, c.2, none, none⟩ else acceptAnswer c addr addrLen o

def vcomSocketAccept (w : World) (fd : Int) (addr addrLen : Bool) (o : AcceptCalls) : Accepted :=
  vcomSocketAcceptFlags w fd addr addrLen 0 o

def vcomSocketAccept4 (w : World) (fd : Int) (addr addrLen : Bool) (flags : Int32)
    (o : AcceptCalls) : Accepted :=
  vcomSocketAcceptFlags w fd addr addrLen flags o

inductive Act where
  | socket (domain : Int) (type : Int32) (r : Libc) (sid : Int) (c : Libc)
  | accept (fd : Int) (addr addrLen : Bool) (o : AcceptCalls)
  | accept4 (fd : Int) (addr addrLen : Bool) (flags : Int32) (o : AcceptCalls)
  | epollCreate1 (flags : Int32) (r : Libc) (vepIdx : Int) (c : Libc)
  | epollCtl (epfd op fd : Int) (event : EpollEvent) (rv : Int)
  | close (fd : Int) (closes : Int → Libc)

/-- New descriptors and sessions are not open, and `errno` is set on failure. -/
def AcceptCalls.Fits (o : AcceptCalls) (w : World) : Prop :=
  o.socket.Opens w.fds ∧ o.accept ∉ w.sessions ∧ o.domain.Sets ∧ o.type.Sets ∧ o.protocol.Sets

instance (o : AcceptCalls) (w : World) : Decidable (o.Fits w) :=
  inferInstanceAs (Decidable (_ ∧ _))

def Fits (w : World) : Act → Prop
  | .socket _ _ r sid _ => r.Opens w.fds ∧ sid ∉ w.sessions
  | .accept _ _ _ o => o.Fits w
  | .accept4 _ _ _ _ o => o.Fits w
  | .epollCreate1 _ r vepIdx _ => r.Opens w.fds ∧ vepIdx ∉ w.sessions
  | .epollCtl .. => True
  | .close .. => True

instance (w : World) : (a : Act) → Decidable (Fits w a)
  | .socket .. => inferInstanceAs (Decidable (_ ∧ _))
  | .accept _ _ _ o => inferInstanceAs (Decidable (o.Fits w))
  | .accept4 _ _ _ _ o => inferInstanceAs (Decidable (o.Fits w))
  | .epollCreate1 .. => inferInstanceAs (Decidable (_ ∧ _))
  | .epollCtl .. => inferInstanceAs (Decidable True)
  | .close .. => inferInstanceAs (Decidable True)

def call (w : World) : Act → World × Int
  | .socket domain type r sid c => vcomSocketSocket w domain type r sid c
  | .accept fd addr addrLen o =>
    let a := vcomSocketAccept w fd addr addrLen o
    (a.world, a.rv)
  | .accept4 fd addr addrLen flags o =>
    let a := vcomSocketAccept4 w fd addr addrLen flags o
    (a.world, a.rv)
  | .epollCreate1 flags r vepIdx c => vcomSocketEpollCreate1 w flags r vepIdx c
  | .epollCtl epfd op fd event rv =>
    let s := vcomSocketEpollCtl w.vsm epfd op fd event rv
    ({ w with vsm := s.1 }, s.2)
  | .close fd closes => vcomSocketClose w fd closes

def step (w : World) (a : Act) : Option World := if Fits w a then some (call w a).1 else none

theorem step_eq_some {w t : World} {a : Act} : step w a = some t ↔ Fits w a ∧ (call w a).1 = t := by
  rw [step, Option.ite_none_right_eq_some, Option.some.injEq]

section

variable {w : World} {domain fd sid vepIdx : Int} {type flags : Int32} {r c : Libc}
variable {o : AcceptCalls} {addr addrLen : Bool}

theorem opens_new {fds : List Int} (h : r.Opens fds) (hr : r.rv ≠ -1) : 0 ≤ r.rv ∧ r.rv ∉ fds :=
  h.resolve_left fun hf => hr hf.1

theorem libcOpen_failed (h : r.Opens w.fds) (hr : r.rv = -1) :
    (libcOpen w r).1 = w ∧ (libcOpen w r).2 < 0 := by
  have he : 0 < r.errno := by
    obtain ⟨_, he⟩ | ⟨h0, _⟩ := h
    · exact he
    · omega
  rw [libcOpen, if_pos hr]
  exact ⟨rfl, Int.neg_neg_of_pos he⟩

theorem libcOpen_opened (hr : r.rv ≠ -1) :
    libcOpen w r = ({ w with fds := r.rv :: w.fds }, r.rv) := if_neg hr

theorem libcClose_opened (x : Int) (c : Libc) :
    (libcClose { w with fds := x :: w.fds } x c).1 = w := by
  simp only [libcClose, List.erase_cons_head]

def Opened (domain : Int) (type : Int32) (r : Libc) : Prop := Supported domain type ∧ r.rv ≠ -1

instance (domain : Int) (type : Int32) (r : Libc) : Decidable (Opened domain type r) :=
  inferInstanceAs (Decidable (_ ∧ _))

theorem openSocket_failed (h : r.Opens w.fds) (hn : ¬ Opened domain type r) :
    (vcomSocketOpenSocket w domain type r).1 = w ∧
      (vcomSocketOpenSocket w domain type r).2 < 0 := by
  unfold vcomSocketOpenSocket
  split
  · rename_i hs
    exact libcOpen_failed h (by_contra fun hr => hn ⟨hs, hr⟩)
  · exact ⟨rfl, Int.negSucc_lt_zero 0⟩

theorem openSocket_opened (h : Opened domain type r) : vcomSocketOpenSocket w domain type r =
    ({ w with fds := r.rv :: w.fds }, r.rv) := by
  rw [vcomSocketOpenSocket, if_pos h.1, libcOpen_opened h.2]

theorem socket_failed (h : r.Opens w.fds) (hn : ¬ (Opened domain type r ∧ 0 ≤ sid)) :
    (vcomSocketSocket w domain type r sid c).1 = w ∧
      (vcomSocketSocket w domain type r sid c).2 < 0 := by
  unfold vcomSocketSocket
  by_cases ho : Opened domain type r
  · have hs : sid < 0 := Int.not_le.mp fun hs => hn ⟨ho, hs⟩
    have h0 : ¬ r.rv < 0 := Int.not_lt.mpr (opens_new h ho.2).1
    rw [openSocket_opened ho]
    dsimp only
    rw [if_neg h0, if_pos hs]
    exact ⟨libcClose_opened r.rv c, hs⟩
  · have hf := openSocket_failed h ho
    dsimp only
    rwa [if_pos hf.2]

theorem socket_made (h : r.Opens w.fds) (ho : Opened domain type r) (hs : 0 ≤ sid) :
    vcomSocketSocket w domain type r sid c =
      (⟨addVsock w.vsm r.rv sid, r.rv :: w.fds, sid :: w.sessions⟩, r.rv) := by
  have h0 : ¬ r.rv < 0 := Int.not_lt.mpr (opens_new h ho.2).1
  unfold vcomSocketSocket
  rw [openSocket_opened ho]
  dsimp only
  rw [if_neg h0, if_neg (Int.not_lt.mpr hs)]
  rfl

theorem openEpoll_cases (h : r.Opens w.fds) :
    (vcomSocketOpenEpoll w flags r).1 = w ∧ (vcomSocketOpenEpoll w flags r).2 < 0 ∨
      r.rv ≠ -1 ∧ vcomSocketOpenEpoll w flags r = ({ w with fds := r.rv :: w.fds }, r.rv) := by
  have he : -einval < 0 := by decide
  unfold vcomSocketOpenEpoll
  split
  · exact Or.inl ⟨rfl, he⟩
  · split
    · exact Or.inl ⟨rfl, he⟩
    · by_cases hr : r.rv = -1
      · exact Or.inl (libcOpen_failed h hr)
      · exact Or.inr ⟨hr, libcOpen_opened hr⟩

theorem epollCreate1_cases (h : r.Opens w.fds) :
    (vcomSocketEpollCreate1 w flags r vepIdx c).1 = w ∧
        (vcomSocketEpollCreate1 w flags r vepIdx c).2 < 0 ∨
      0 ≤ r.rv ∧ r.rv ∉ w.fds ∧ 0 ≤ vepIdx ∧ vcomSocketEpollCreate1 w flags r vepIdx c =
        (⟨addVepoll w.vsm r.rv vepIdx flags, r.rv :: w.fds, vepIdx :: w.sessions⟩, r.rv) := by
  unfold vcomSocketEpollCreate1
  obtain hf | ⟨hr, ho⟩ := @openEpoll_cases w flags r h
  · dsimp only
    rw [if_pos hf.2]
    exact Or.inl hf
  · obtain ⟨h0, hfd⟩ := opens_new h hr
    rw [ho]
    dsimp only
    rw [if_neg (Int.not_lt.mpr h0)]
    split
    · rename_i hv
      exact Or.inl ⟨libcClose_opened r.rv c, hv⟩
    · rename_i hv
      exact Or.inr ⟨h0, hfd, Int.not_lt.mp hv, rfl⟩

def Obtains (w : World) (fd : Int) (flags : Int32) (o : AcceptCalls) : Prop :=
  (flags = 0 ∨ flags &&& (sockNonblock ||| sockCloexec) ≠ 0) ∧
    vcomSocketIsConnectionModeSocket w.vsm fd o.mode = true ∧ 0 ≤ o.fcntl ∧ 0 ≤ sessionAccept o

def Connects (flags : Int32) (o : AcceptCalls) : Prop :=
  o.domain.r.rv = 0 ∧ o.type.r.rv = 0 ∧ o.protocol.r.rv = 0 ∧
    Opened o.domain.value (o.type.value ||| flags) o.socket

/-- The address is wanted and can be told, or neither it nor its length is wanted. -/
def Answers (addr addrLen : Bool) (o : AcceptCalls) : Prop :=
  if addr then (peerIsIp4 o.ep o.domain.value).isSome = true else addrLen = false

theorem sessionAccept_eq (h : 0 ≤ sessionAccept o) : sessionAccept o = o.accept := by
  unfold sessionAccept at h ⊢
  split
  · rename_i hc
    rw [if_pos hc, eagain] at h
    omega
  · rfl

theorem connectedSocket_failed (hs : o.socket.Opens w.fds) (hd : o.domain.Sets) (ht : o.type.Sets)
    (hp : o.protocol.Sets) (hn : ¬ Connects flags o) :
    (vcomSocketConnectedSocket w sid flags o).1 = w ∧
      (vcomSocketConnectedSocket w sid flags o).2 < 0 := by
  unfold vcomSocketConnectedSocket
  split
  · rename_i h
    exact ⟨rfl, Int.neg_neg_of_pos (hd h)⟩
  · rename_i hd
    split
    · rename_i h
      exact ⟨rfl, Int.neg_neg_of_pos (ht h)⟩
    · rename_i ht
      split
      · rename_i h
        exact ⟨rfl, Int.neg_neg_of_pos (hp h)⟩
      · rename_i hp
        have ho : ¬ Opened o.domain.value (o.type.value ||| flags) o.socket := fun ho =>
          hn ⟨not_not.mp hd, not_not.mp ht, not_not.mp hp, ho⟩
        have hf := openSocket_failed hs ho
        dsimp only
        rwa [if_pos hf.2]

theorem connectedSocket_made (hs : o.socket.Opens w.fds) (h : Connects flags o) :
    vcomSocketConnectedSocket w sid flags o =
      (⟨addVsock w.vsm o.socket.rv sid, o.socket.rv :: w.fds, w.sessions⟩, o.socket.rv) := by
  obtain ⟨hd, ht, hp, ho⟩ := h
  have h0 : ¬ o.socket.rv < 0 := Int.not_lt.mpr (opens_new hs ho.2).1
  unfold vcomSocketConnectedSocket
  rw [if_neg (not_not.mpr hd), if_neg (not_not.mpr ht), if_neg (not_not.mpr hp),
    openSocket_opened ho]
  dsimp only
  rw [if_neg h0]

theorem acceptFlags_refused (hn : ¬ Obtains w fd flags o) :
    (vcomSocketAcceptFlags w fd addr addrLen flags o).world = w ∧
      (vcomSocketAcceptFlags w fd addr addrLen flags o).rv < 0 := by
  unfold vcomSocketAcceptFlags
  split
  · exact ⟨rfl, Int.negSucc_lt_zero 0⟩
  · rename_i hflags
    split
    · exact ⟨rfl, Int.negSucc_lt_zero 94⟩
    · rename_i hmode
      cases w.vsm.sockidxByFd fd with
      | none => exact ⟨rfl, Int.negSucc_lt_zero 0⟩
      | some i =>
        dsimp only
        split
        · rename_i hlt
          exact ⟨rfl, Int32.lt_iff_toInt_lt.mp hlt⟩
        · rename_i hge
          split
          · rename_i hs
            exact ⟨rfl, hs⟩
          · rename_i hs
            exact absurd ⟨not_not.mp hflags, by simpa using hmode, Int32.not_lt.mp hge,
              Int.not_lt.mp hs⟩ hn

theorem isVcomFd_some {s : VcomSocketMain} (h : vcomSocketIsVcomFd s fd = true) :
    ∃ i, s.sockidxByFd fd = some i := by
  unfold vcomSocketIsVcomFd at h
  cases hi : s.sockidxByFd fd with
  | none =>
    rw [hi] at h
    cases h
  | some i => exact ⟨i, rfl⟩

theorem acceptFlags_obtained (h : Obtains w fd flags o) :
    vcomSocketAcceptFlags w fd addr addrLen flags o =
      (let c := vcomSocketConnectedSocket (openSession w o.accept) o.accept flags o
      if c.2 < 0 then ⟨c.1, c.2, none, none⟩ else acceptAnswer c addr addrLen o) := by
  obtain ⟨hflags, hmode, hfcntl, hs⟩ := h
  have hvcom : vcomSocketIsVcomFd w.vsm fd = true := by
    rw [vcomSocketIsConnectionModeSocket, Bool.and_assoc, Bool.and_eq_true] at hmode
    exact hmode.1
  obtain ⟨i, hi⟩ := isVcomFd_some hvcom
  have hnot : ¬ (!vcomSocketIsConnectionModeSocket w.vsm fd o.mode) = true := by simpa using hmode
  unfold vcomSocketAcceptFlags
  rw [if_neg (not_not.mpr hflags), if_neg hnot, hi]
  dsimp only
  rw [if_neg (Int32.not_lt.mpr hfcntl), if_neg (Int.not_lt.mpr hs), sessionAccept_eq hs]

theorem acceptAnswer_world (p : World × Int) : (acceptAnswer p addr addrLen o).world = p.1 := by
  unfold acceptAnswer
  split
  · split <;> rfl
  · split <;> rfl

theorem acceptAnswer_given (p : World × Int) (h : Answers addr addrLen o) :
    (acceptAnswer p addr addrLen o).rv = p.2 := by
  unfold Answers at h
  unfold acceptAnswer
  split
  · rename_i ha
    rw [if_pos ha, Option.isSome_iff_exists] at h
    obtain ⟨ip4, hip⟩ := h
    rw [hip]
  · rename_i ha
    rw [if_neg ha] at h
    rw [h]
    rfl

theorem acceptAnswer_missing (p : World × Int) (h : ¬ Answers addr addrLen o) :
    (acceptAnswer p addr addrLen o).rv < 0 := by
  unfold Answers at h
  unfold acceptAnswer
  split
  · rename_i ha
    rw [if_pos ha, Option.not_isSome_iff_eq_none] at h
    rw [h]
    exact Int.negSucc_lt_zero 96
  · rename_i ha
    rw [if_neg ha, Bool.not_eq_false] at h
    rw [if_pos h]
    exact Int.negSucc_lt_zero 0

theorem acceptFlags_lost (hf : o.Fits w) (h : Obtains w fd flags o) (hn : ¬ Connects flags o) :
    (vcomSocketAcceptFlags w fd addr addrLen flags o).world = openSession w o.accept ∧
      (vcomSocketAcceptFlags w fd addr addrLen flags o).rv < 0 := by
  have hc := @connectedSocket_failed (openSession w o.accept) o.accept flags o hf.1 hf.2.2.1
    hf.2.2.2.1 hf.2.2.2.2 hn
  rw [acceptFlags_obtained h]
  dsimp only
  rw [if_pos hc.2]
  exact hc

theorem acceptFlags_made (hf : o.Fits w) (h : Obtains w fd flags o) (hc : Connects flags o) :
    vcomSocketAcceptFlags w fd addr addrLen flags o =
      acceptAnswer (⟨addVsock w.vsm o.socket.rv o.accept, o.socket.rv :: w.fds,
        o.accept :: w.sessions⟩, o.socket.rv) addr addrLen o := by
  have hmade := @connectedSocket_made (openSession w o.accept) o.accept flags o hf.1 hc
  have h0 : ¬ o.socket.rv < 0 := Int.not_lt.mpr (opens_new hf.1 hc.2.2.2.2).1
  rw [acceptFlags_obtained h, hmade]
  dsimp only
  rw [if_neg h0]
  rfl

end

end Vppsb.VcomCalls
