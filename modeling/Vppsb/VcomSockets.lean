import Vppsb.PoolIndex
import Vppsb.VcomSelect

namespace Vppsb.VcomSockets

open Vppsb.PoolStore Vppsb.KeyedPool Vppsb.PoolIndex
open Vppsb.VcomSelect (VcomSocketType einval)

def enoent : Int := 2
def ebadf : Int := 9
def eagain : Int := 11
def eexist : Int := 17
def eopnotsupp : Int := 95
def eafnosupport : Int := 97
def etimedout : Int := 110

def invalidFd : Int := -1
def invalidSessionId : Int := -1
def invalidVepIdx : Int := invalidSessionId

def afInet : Int := 2
def afInet6 : Int := 10
def sockStream : Int32 := 1
def sockDgram : Int32 := 2
def sockSeqpacket : Int32 := 5
def sockNonblock : Int32 := 0x800
def sockCloexec : Int32 := 0x80000
def oNonblock : Int32 := 0x800
def epollCloexec : Int32 := 0x80000
def epollCtlAdd : Int := 1
def epollCtlDel : Int := 2
def epollCtlMod : Int := 3

structure VcomSocket where
  fd : Int
  sid : Int
  type : VcomSocketType

inductive VcomEpollType where
  | unbound
  | kernelBound
  | vppcomBound
deriving DecidableEq

structure VcomEpoll where
  epfd : Int
  vepIdx : Int
  type : VcomEpollType
  flags : Int32
  count : Int
  close : Bool

inductive VcomFdType where
  | invalid
  | kernel
  | epoll
  | vcomSocket
deriving DecidableEq

structure EpollEvent where
  events : UInt32
  data : UInt64

structure VcomEpitem where
  epfd : Int
  fd : Int
  nextFd : Int
  prevFd : Int
  type : VcomFdType
  event : EpollEvent
  revent : EpollEvent

def VcomEpitem.epfdfd (x : VcomEpitem) : Int × Int := (x.epfd, x.fd)

def vsocketInit : VcomSocket := ⟨invalidFd, invalidSessionId, .unbound⟩
def vepollInit : VcomEpoll := ⟨invalidFd, invalidVepIdx, .unbound, 0, 0, false⟩
def noEvent : EpollEvent := ⟨0, 0xffffffff⟩

def vepitemInit : VcomEpitem :=
  ⟨invalidFd, invalidFd, invalidFd, invalidFd, .invalid, noEvent, noEvent⟩

structure VcomSocketMain where
  vsockets : Pool VcomSocket
  sockidxByFd : Int → Option Nat
  vepolls : Pool VcomEpoll
  epollidxByEpfd : Int → Option Nat
  vepitems : Pool VcomEpitem
  epitemidxByEpfdfd : Int × Int → Option Nat
  epitemidxsByEpfd : Int → Option (List Nat)
  epitemidxsByFd : Int → Option (List Nat)

def vcomSocketMainInit : VcomSocketMain :=
  ⟨empty vsocketInit, fun _ => none, empty vepollInit, fun _ => none, empty vepitemInit,
    fun _ => none, fun _ => none, fun _ => none⟩

/-- `fds` are the kernel descriptors and `sessions` the sessions of vppcom, those
of epoll instances included, that were opened here and are open. -/
structure World where
  vsm : VcomSocketMain
  fds : List Int
  sessions : List Int

def start : World := ⟨vcomSocketMainInit, [], []⟩

structure Libc where
  rv : Int
  errno : Int

/-- The call fails, or returns a descriptor that is not open. -/
def Libc.Opens (r : Libc) (fds : List Int) : Prop :=
  (r.rv = -1 ∧ 0 < r.errno) ∨ (0 ≤ r.rv ∧ r.rv ∉ fds)

instance (r : Libc) (fds : List Int) : Decidable (r.Opens fds) :=
  inferInstanceAs (Decidable (_ ∨ _))

def libcOpen (w : World) (r : Libc) : World × Int :=
  if r.rv = -1 then (w, -r.errno) else ({ w with fds := r.rv :: w.fds }, r.rv)

/-- A descriptor is given up by `close` whatever that returns. -/
def libcClose (w : World) (fd : Int) (r : Libc) : World × Int :=
  ({ w with fds := w.fds.erase fd }, if r.rv = -1 then -r.errno else r.rv)

def openSession (w : World) (sid : Int) : World := { w with sessions := sid :: w.sessions }

/-- `vppcom_session_close`. What it returns is never looked at. -/
def vppcomSessionClose (w : World) (sid : Int) : World :=
  { w with sessions := w.sessions.erase sid }

/-- The socket type without the flags that may come with it. -/
def baseType (type : Int32) : Int32 := type &&& ~~~(sockCloexec ||| sockNonblock)

/-- The domains and types that are opened at all. -/
def Supported (domain : Int) (type : Int32) : Prop :=
  (domain = afInet ∨ domain = afInet6) ∧
    (baseType type = sockStream ∨ baseType type = sockDgram)

instance (domain : Int) (type : Int32) : Decidable (Supported domain type) :=
  inferInstanceAs (Decidable (_ ∧ _))

def vcomSocketOpenSocket (w : World) (domain : Int) (type : Int32) (r : Libc) : World × Int :=
  if Supported domain type then libcOpen w r else (w, -1)

def vcomSocketOpenEpoll (w : World) (flags : Int32) (r : Libc) : World × Int :=
  if flags < 0 then (w, -einval)
  else if flags ≠ 0 ∧ flags &&& ~~~epollCloexec ≠ 0 then (w, -einval)
  else libcOpen w r

def vcomSocketCloseSocket (w : World) (fd : Int) (r : Libc) : World × Int := libcClose w fd r
def vcomSocketCloseEpoll (w : World) (epfd : Int) (r : Libc) : World × Int := libcClose w epfd r

def vcomSocketIsVcomFd (s : VcomSocketMain) (fd : Int) : Bool :=
  match s.sockidxByFd fd with
  | some i => decide ((s.vsockets.elt i).type = .vppcomBound)
  | none => false

def vcomSocketIsVcomEpfd (s : VcomSocketMain) (epfd : Int) : Bool :=
  match s.epollidxByEpfd epfd with
  | some j => decide ((s.vepolls.elt j).type = .vppcomBound)
  | none => false

/-- The index of the socket, none where the source returns `INVALID_SESSION_ID`. -/
def vcomSocketGetSidAndVsock (s : VcomSocketMain) (fd : Int) : Option Nat :=
  match s.sockidxByFd fd with
  | some i =>
    let vsock := s.vsockets.elt i
    if vsock.type = .vppcomBound ∧ vsock.sid ≠ invalidSessionId then some i else none
  | none => none

def vcomSocketGetVepIdxAndVepoll (s : VcomSocketMain) (epfd : Int) : Option Nat :=
  match s.epollidxByEpfd epfd with
  | some j =>
    let vepoll := s.vepolls.elt j
    if vepoll.type = .vppcomBound ∧ vepoll.vepIdx ≠ invalidVepIdx then some j else none
  | none => none

def setVepoll (s : VcomSocketMain) (j : Nat) (v : VcomEpoll) : VcomSocketMain :=
  { s with vepolls := set s.vepolls j v }

def addVsock (s : VcomSocketMain) (fd sid : Int) : VcomSocketMain :=
  { s with
    vsockets := insert s.vsockets ⟨fd, sid, .vppcomBound⟩
    sockidxByFd := Function.update s.sockidxByFd fd (some (fresh s.vsockets)) }

def addVepoll (s : VcomSocketMain) (epfd vepIdx : Int) (flags : Int32) : VcomSocketMain :=
  { s with
    vepolls := insert s.vepolls ⟨epfd, vepIdx, .vppcomBound, flags, 0, false⟩
    epollidxByEpfd := Function.update s.epollidxByEpfd epfd (some (fresh s.vepolls)) }

/-- The end of `vcom_socket_close_vepoll`, for the instance at index `j`. -/
def dropVepoll (w : World) (epfd : Int) (j : Nat) (r : Libc) : World × Int :=
  let v := w.vsm.vepolls.elt j
  let c := vcomSocketCloseEpoll (vppcomSessionClose w v.vepIdx) v.epfd r
  ({ c.1 with vsm := { w.vsm with
      epollidxByEpfd := Function.update w.vsm.epollidxByEpfd epfd none
      vepolls := remove w.vsm.vepolls j vepollInit } }, c.2)

@[simp] theorem epollidx_dropVepoll (w : World) (epfd : Int) (j : Nat) (r : Libc) :
    (dropVepoll w epfd j r).1.vsm.epollidxByEpfd =
      Function.update w.vsm.epollidxByEpfd epfd none := rfl

@[simp] theorem vepolls_dropVepoll (w : World) (epfd : Int) (j : Nat) (r : Libc) :
    (dropVepoll w epfd j r).1.vsm.vepolls = remove w.vsm.vepolls j vepollInit := rfl

/-- `closes` tells what `close` returns for a descriptor. -/
def vcomSocketCloseVepoll (w : World) (epfd : Int) (closes : Int → Libc) : World × Int :=
  match w.vsm.epollidxByEpfd epfd with
  | none => (w, -ebadf)
  | some j =>
    let v := w.vsm.vepolls.elt j
    if v.type ≠ .vppcomBound then (w, -einval)
    else if v.count ≠ 0 then
      if v.close then (w, -ebadf)
      else ({ w with vsm := setVepoll w.vsm j { v with close := true } }, 0)
    else dropVepoll w epfd j (closes v.epfd)

def closeEpitem (fd : Int) (closes : Int → Libc) (w : World) (x : Nat) : World :=
  let item := w.vsm.vepitems.elt x
  if item.fd = fd ∧ item.type = .vcomSocket then
    match vcomSocketGetVepIdxAndVepoll w.vsm item.epfd with
    | none => w
    | some j =>
      let v := w.vsm.vepolls.elt j
      if v.close then
        if v.count = 1 then
          let w := { w with vsm := setVepoll w.vsm j { v with count := 0 } }
          (vcomSocketCloseVepoll w v.epfd closes).1
        else { w with vsm := setVepoll w.vsm j { v with count := v.count - 1 } }
      else w
  else w

/-- The first part of `vcom_socket_close_vsock`, for the socket at index `i`. -/
def dropVsock (w : World) (fd : Int) (i : Nat) (r : Libc) : World × Int :=
  let vsock := w.vsm.vsockets.elt i
  let c := vcomSocketCloseSocket (vppcomSessionClose w vsock.sid) vsock.fd r
  ({ c.1 with vsm := { w.vsm with
      vsockets := remove w.vsm.vsockets i vsocketInit
      sockidxByFd := Function.update w.vsm.sockidxByFd fd none } }, c.2)

@[simp] theorem sockidx_dropVsock (w : World) (fd : Int) (i : Nat) (r : Libc) :
    (dropVsock w fd i r).1.vsm.sockidxByFd = Function.update w.vsm.sockidxByFd fd none := rfl

def vcomSocketCloseVsock (w : World) (fd : Int) (closes : Int → Libc) : World × Int :=
  match w.vsm.sockidxByFd fd with
  | none => (w, -ebadf)
  | some i =>
    let vsock := w.vsm.vsockets.elt i
    if vsock.type ≠ .vppcomBound then (w, -einval)
    else
      let c := dropVsock w fd i (closes vsock.fd)
      ((members w.vsm.epitemidxsByFd fd).foldl (closeEpitem fd closes) c.1, c.2)

def vcomSocketClose (w : World) (fd : Int) (closes : Int → Libc) : World × Int :=
  if vcomSocketIsVcomFd w.vsm fd then vcomSocketCloseVsock w fd closes
  else if vcomSocketIsVcomEpfd w.vsm fd then vcomSocketCloseVepoll w fd closes
  else (w, -ebadf)

def vcomSocketSocket (w : World) (domain : Int) (type : Int32) (r : Libc) (sid : Int) (c : Libc) :
    World × Int :=
  let o := vcomSocketOpenSocket w domain type r
  if o.2 < 0 then o
  else if sid < 0 then ((vcomSocketCloseSocket o.1 o.2 c).1, sid)
  else
    let w := openSession o.1 sid
    ({ w with vsm := addVsock w.vsm o.2 sid }, o.2)

def vcomSocketEpollCreate1 (w : World) (flags : Int32) (r : Libc) (vepIdx : Int) (c : Libc) :
    World × Int :=
  let o := vcomSocketOpenEpoll w flags r
  if o.2 < 0 then o
  else if vepIdx < 0 then ((vcomSocketCloseEpoll o.1 o.2 c).1, vepIdx)
  else
    let w := openSession o.1 vepIdx
    ({ w with vsm := addVepoll w.vsm o.2 vepIdx flags }, o.2)

def addVepitem (s : VcomSocketMain) (x : VcomEpitem) : VcomSocketMain :=
  let i := fresh s.vepitems
  { s with
    vepitems := insert s.vepitems x
    epitemidxByEpfdfd := Function.update s.epitemidxByEpfdfd x.epfdfd (some i)
    epitemidxsByEpfd := addIndex s.epitemidxsByEpfd x.epfd i
    epitemidxsByFd := addIndex s.epitemidxsByFd x.fd i }

/-- `vcom_socket_ctl_vepitem`, called with `free_vepitem_on_del` set. The index of
the epoll instance is `j`. -/
def vcomSocketCtlVepitem (s : VcomSocketMain) (epfd op fd : Int) (event : EpollEvent) (j : Nat)
    (type : VcomFdType) : VcomSocketMain × Int :=
  let v := s.vepolls.elt j
  if op = epollCtlAdd then
    match s.epitemidxByEpfdfd (epfd, fd) with
    | some _ => (s, -eexist)
    | none =>
      (setVepoll (addVepitem s ⟨epfd, fd, fd, fd, type, event, noEvent⟩) j
        { v with count := v.count + 1 }, 0)
  else if op = epollCtlMod then
    match s.epitemidxByEpfdfd (epfd, fd) with
    | none => (s, -enoent)
    | some i =>
      let x := { s.vepitems.elt i with event, revent := noEvent }
      ({ s with vepitems := set s.vepitems i x }, 0)
  else if op = epollCtlDel then
    match s.epitemidxByEpfdfd (epfd, fd) with
    | none => (s, -enoent)
    | some i =>
      let s := { s with
        epitemidxByEpfdfd := Function.update s.epitemidxByEpfdfd (epfd, fd) none }
      match delIndex s.epitemidxsByEpfd epfd i with
      | none => (s, -enoent)
      | some byEpfd =>
        let s := { s with epitemidxsByEpfd := byEpfd }
        match delIndex s.epitemidxsByFd fd i with
        | none => (s, -enoent)
        | some byFd =>
          let s := { s with
            epitemidxsByFd := byFd
            vepitems := remove s.vepitems i vepitemInit }
          (setVepoll s j { v with count := v.count - 1 }, 0)
  else (s, -einval)

def vcomSocketEpollCtl (s : VcomSocketMain) (epfd op fd : Int) (event : EpollEvent) (rv : Int) :
    VcomSocketMain × Int :=
  match vcomSocketGetVepIdxAndVepoll s epfd with
  | none => (s, -ebadf)
  | some j =>
    let type : Option VcomFdType :=
      if (vcomSocketGetSidAndVsock s fd).isSome then some .vcomSocket
      else if (vcomSocketGetVepIdxAndVepoll s fd).isSome then some .epoll
      else none
    match type with
    | none => (s, -ebadf)
    | some type => if rv < 0 then (s, rv) else vcomSocketCtlVepitem s epfd op fd event j type

end Vppsb.VcomSockets
