import Vppsb.Dialogue
import Vppsb.VcomHandles

namespace Vppsb.VcomData

open Vppsb.Dialogue Vppsb.PoolStore
open Vppsb.VcomSockets Vppsb.VcomCalls Vppsb.VcomEdits
open Vppsb.VcomSelect (einval)

def efault : Int := 14
def edestaddrreq : Int := 89
def enoprotoopt : Int := 92
def eisconn : Int := 106

def fDupfd : Int := 0
def fGetfd : Int := 1
def fSetfd : Int := 2
def fGetfl : Int := 3
def fSetfl : Int := 4
def fGetlk : Int := 5
def fSetlk : Int := 6
def fSetlkw : Int := 7
def fSetown : Int := 8
def fGetown : Int := 9
def fDupfdCloexec : Int := 1030

def solSocket : Int := 1
def soType : Int := 3
def soBindtodevice : Int := 25
def inetAddrstrlen : Nat := 16
def inet6Addrstrlen : Nat := 46

/-- The options of the socket level that are left to the C library in both directions, in
the order of the source. -/
def socketOptions : List Int :=
  [1, 5, 6, 7, 8, 2, 15, 9, soType, 38, 39, 4, 10, 11, 12, 13, 14, 29, 35, 37, 20, 21, 18, 19, 16,
    17, 28, 30, 34, 31, 36, 40, 41, 42, 43, 26, 44, 48, 45, 47, 49]

/-- `SO_BINDTODEVICE` can be got like the others. -/
def gettableOptions : List Int := soBindtodevice :: socketOptions

/-- A call of the program on a socket. A pointer that is only compared with null is a
`Bool`. -/
inductive Request where
  | read (buf : Bool) (nbytes : Nat)
  | write (buf : Bool) (n : Nat)
  | fcntl (cmd : Int)
  | bind (addr : Sockaddr) (len : Nat)
  | getsockname (addr len : Bool)
  | connect (addr : Sockaddr) (len : Nat)
  | getpeername (addr len : Bool)
  | send (buf : Bool) (n : Nat) (flags : Int)
  | recv (buf : Bool) (n : Nat) (flags : Int)
  | sendto (buf : Bool) (n : Nat) (flags : Int) (addr : Option Sockaddr) (addrLen : Nat)
  | recvfrom (buf : Bool) (n : Nat) (flags : Int) (addr addrLen : Bool)
  | sendmsg (message : Option (Bool × Nat)) (flags : Int)
  | recvmsg (message : Bool) (flags : Int)
  | getsockopt (level optname : Int) (optval optlen : Bool)
  | setsockopt (level optname : Int) (optval : Bool) (optlen : Nat)
  | listen (n : Int)
  | shutdown (how : Int)

structure VppcomEndpoint where
  isIp4 : Bool
  ip : List UInt8
  port : UInt16

/-- A call of the C library on a descriptor: one that the functions below make, or the
call of the program as it is. -/
inductive LibcCall where
  | vfcntl (cmd : Int)
  | bind (addr : Sockaddr) (len : Nat)
  | getsockname
  | getsockopt (level optname : Int)
  | setsockopt (level optname : Int) (optval : Bool) (optlen : Nat)
  | same (q : Request)

inductive VppcomCall where
  | read (n : Nat)
  | write (n : Int)
  | bind (ep : VppcomEndpoint)
  | connect (ep : VppcomEndpoint)
  | listen (n : Int)
  | epollWait (maxevents timeout : Int)

inductive Under where
  | libc (fd : Int) (c : LibcCall)
  | vppcom (sid : Int) (c : VppcomCall)

structure Answer where
  rv : Int
  errno : Int
  value : Int32

abbrev Calls := Comp Under Answer Int

/-- A call that returns 0 or has set `errno`, as the value that a function here returns. -/
def checked (u : Under) : Calls := do
  let a ← ask u
  if a.rv ≠ 0 then pure (-a.errno) else pure a.rv

/-- The checks that most functions begin with. -/
def withVsock (s : VcomSocketMain) (fd : Int) (body : VcomSocket → Calls) : Calls :=
  match s.sockidxByFd fd with
  | none => pure (-ebadf)
  | some i =>
    let vsock := s.vsockets.elt i
    if vsock.type ≠ .vppcomBound then pure (-einval) else body vsock

/-- `2` of the source is the only answer but for an invalid command that is given to a
command of this list. -/
def vcomSocketCheckFcntlCmd (cmd : Int) : Nat :=
  if cmd = fDupfd ∨ cmd = fDupfdCloexec then 1
  else if cmd ∈ [fGetfd, fSetfd, fGetfl, fSetfl, fGetlk, fSetlk, fSetlkw, fGetown, fSetown] then 2
  else 0

def vcomSocketFcntlVa (s : VcomSocketMain) (fd cmd : Int) : Calls :=
  withVsock s fd fun vsock =>
    match vcomSocketCheckFcntlCmd cmd with
    | 0 => pure (-ebadf)
    | 1 => pure (-ebadf)
    | 2 => do
      let a ← ask (.libc vsock.fd (.vfcntl cmd))
      pure a.rv
    | 3 => pure (-einval)
    | _ => pure (-einval)

def vcomFcntl (s : VcomSocketMain) (fd cmd : Int) : Calls :=
  if vcomSocketIsVcomFd s fd then vcomSocketFcntlVa s fd cmd else pure (-1)

def vppcomSessionRead (sid : Int) (n : Nat) : Calls := do
  let a ← ask (.vppcom sid (.read n))
  pure a.rv

/-- The read is made `fuel` times at most. -/
def vcomSocketRead (fuel : Nat) (s : VcomSocketMain) (fd : Int) (buf : Bool) (nbytes : Nat) : Calls :=
  withVsock s fd fun vsock =>
    if buf = false then pure (-einval)
    else do
      let rv ← vcomFcntl s fd fGetfl
      if rv < 0 then pure rv
      else if Int32.ofInt rv &&& oNonblock = 0 then
        again (fun rv => decide (rv ≠ -eagain)) (vppcomSessionRead vsock.sid nbytes) fuel
      else vppcomSessionRead vsock.sid nbytes

def vcomSocketWrite (s : VcomSocketMain) (fd : Int) (buf : Bool) (n : Nat) : Calls :=
  withVsock s fd fun vsock =>
    if buf = false then pure (-einval)
    else do
      let a ← ask (.vppcom vsock.sid (.write n))
      pure a.rv

def endpointOf (addr : Sockaddr) : Option VppcomEndpoint :=
  if addr.family = afInet then some ⟨true, addr.addr, addr.port⟩
  else if addr.family = afInet6 then some ⟨false, addr.addr, addr.port⟩
  else none

def vcomSocketBind (s : VcomSocketMain) (fd : Int) (addr : Sockaddr) (len : Nat) : Calls :=
  withVsock s fd fun vsock =>
    match endpointOf addr with
    | none => pure (-1)
    | some ep =>
      if len ≠ sockaddrLen ep.isIp4 then pure (-einval)
      else do
        let a ← ask (.vppcom vsock.sid (.bind ep))
        if a.rv = 0 then checked (.libc fd (.bind addr len)) else pure a.rv

def vcomSocketGetsockname (s : VcomSocketMain) (fd : Int) (addr len : Bool) : Calls :=
  withVsock s fd fun _ =>
    if addr = false ∨ len = false then pure (-efault) else checked (.libc fd .getsockname)

def vcomSocketConnect (s : VcomSocketMain) (fd : Int) (addr : Sockaddr) : Calls :=
  match s.sockidxByFd fd with
  | none => pure (-1)
  | some i =>
    match endpointOf addr with
    | none => pure (-1)
    | some ep => do
      let a ← ask (.vppcom (s.vsockets.elt i).sid (.connect ep))
      pure a.rv

def vcomSocketGetpeername (s : VcomSocketMain) (fd : Int) (addr len : Bool) : Calls :=
  withVsock s fd fun _ => if addr = false ∨ len = false then pure (-efault) else pure 0

/-- `vcom_socket_is_connection_mode_socket` with the call that it makes. -/
def connectionMode (s : VcomSocketMain) (fd : Int) : Comp Under Answer Bool :=
  if vcomSocketIsVcomFd s fd then do
    let a ← ask (.libc fd (.getsockopt solSocket soType))
    pure (vcomSocketIsConnectionModeSocket s fd ⟨⟨a.rv, a.errno⟩, a.value⟩)
  else pure false

/-- A family is never both of the two, so that an address is always refused. -/
def vcomSocketSendto (s : VcomSocketMain) (fd : Int) (buf : Bool) (n : Nat)
    (addr : Option Sockaddr) (addrLen : Nat) : Calls :=
  withVsock s fd fun vsock =>
    if buf = false then pure (-einval)
    else do
      let write : Calls := do
        let a ← ask (.vppcom vsock.sid (.write (Int32.ofNat n).toInt))
        pure a.rv
      let mode ← connectionMode s fd
      if mode then
        if addr.isSome ∨ addrLen ≠ 0 then pure (-eisconn) else write
      else match addr with
        | none => pure (-edestaddrreq)
        | some addr =>
          if addr.family ≠ afInet ∨ addr.family ≠ afInet6 then pure (-einval) else write

def vcomSocketSend (s : VcomSocketMain) (fd : Int) (buf : Bool) (n : Nat) : Calls :=
  vcomSocketSendto s fd buf n none 0

def vcomSocketRecvfrom (s : VcomSocketMain) (fd : Int) (buf : Bool) (n : Nat) (addr : Bool) : Calls :=
  withVsock s fd fun vsock =>
    if buf = false then pure (-einval)
    else if addr then pure (-einval)
    else vppcomSessionRead vsock.sid n

def vcomSocketRecv (s : VcomSocketMain) (fd : Int) (buf : Bool) (n : Nat) : Calls :=
  vcomSocketRecvfrom s fd buf n false

def vcomSocketSendmsg (s : VcomSocketMain) (fd : Int) (message : Option (Bool × Nat)) : Calls :=
  match s.sockidxByFd fd with
  | none => pure (-ebadf)
  | some _ => do
    let mode ← connectionMode s fd
    if mode then
      match message with
      | none => .stuck
      | some m => if m.1 ∨ m.2 ≠ 0 then pure (-eisconn) else pure (-1)
    else pure (-1)

def vcomSocketRecvmsg (s : VcomSocketMain) (fd : Int) (message : Bool) : Calls :=
  withVsock s fd fun _ => if message = false then pure (-einval) else pure (-eopnotsupp)

def vcomSocketGetsockopt (s : VcomSocketMain) (fd level optname : Int) (optval optlen : Bool) :
    Calls :=
  withVsock s fd fun _ =>
    if optval = false ∧ optlen = false then pure (-efault)
    else if optlen = false then .stuck
    else if level = solSocket then
      if optname ∈ gettableOptions then checked (.libc fd (.getsockopt level optname))
      else pure (-enoprotoopt)
    else pure (-enoprotoopt)

def vcomSocketSetsockopt (s : VcomSocketMain) (fd level optname : Int) (optval : Bool)
    (optlen : Nat) : Calls :=
  withVsock s fd fun _ =>
    if optname = soBindtodevice then checked (.libc fd (.setsockopt level optname optval optlen))
    else if optval = false then pure (-efault)
    else if optlen < 4 then pure (-einval)
    else if level = solSocket then
      if optname ∈ socketOptions then
        checked (.libc fd (.setsockopt level optname optval optlen))
      else pure (-enoprotoopt)
    else pure (-enoprotoopt)

def vcomSocketListen (s : VcomSocketMain) (fd n : Int) : Calls :=
  match s.sockidxByFd fd with
  | none => pure (-1)
  | some i => do
    let a ← ask (.vppcom (s.vsockets.elt i).sid (.listen n))
    pure a.rv

def vcomSocketShutdown (s : VcomSocketMain) (fd how : Int) : Calls :=
  match s.sockidxByFd fd with
  | none => pure (-1)
  | some _ => if how = 0 ∨ how = 1 ∨ how = 2 then pure 0 else pure (-einval)

def vcomSocketGetVepIdx (s : VcomSocketMain) (epfd : Int) : Int :=
  match s.epollidxByEpfd epfd with
  | none => invalidVepIdx
  | some j =>
    if (s.vepolls.elt j).type = .vppcomBound then (s.vepolls.elt j).vepIdx else invalidVepIdx

def vcomSocketEpollPwait (s : VcomSocketMain) (epfd : Int) (events : Bool) (maxevents timeout : Int) :
    Calls :=
  if events = false then pure (-efault)
  else if timeout < -1 then pure (-ebadf)
  else if vcomSocketGetVepIdx s epfd ≠ invalidVepIdx then do
    let a ← ask (.vppcom (vcomSocketGetVepIdx s epfd) (.epollWait maxevents timeout))
    pure a.rv
  else pure (-ebadf)

def Within (fd sid : Int) : Under → Prop
  | .libc fd' _ => fd' = fd
  | .vppcom sid' _ => sid' = sid

def Answered : Under → Answer → Prop
  | .libc _ (.bind ..), a | .libc _ .getsockname, a | .libc _ (.getsockopt ..), a
  | .libc _ (.setsockopt ..), a => a.rv = 0 ∨ a.rv = -1 ∧ 0 < a.errno
  | .vppcom _ (.bind _), a | .vppcom _ (.connect _), a | .vppcom _ (.listen _), a => a.rv ≤ 0
  | _, _ => True

variable {s : VcomSocketMain} {fd sid : Int} {i : Nat} {post : Int → Prop}

structure At (s : VcomSocketMain) (fd sid : Int) (i : Nat) : Prop where
  found : s.sockidxByFd fd = some i
  vsock : s.vsockets.elt i = ⟨fd, sid, .vppcomBound⟩

abbrev Stays (fd sid : Int) (post : Int → Prop) (m : Calls) : Prop :=
  Ensures (Within fd sid) Answered post m

def Any (_ : Int) : Prop := True

theorem At.isVcomFd (h : At s fd sid i) : vcomSocketIsVcomFd s fd = true := by
  rw [vcomSocketIsVcomFd, h.found]
  dsimp only
  rw [h.vsock]
  rfl

theorem At.stays (h : At s fd sid i) {body : VcomSocket → Calls}
    (hb : Stays fd sid post (body ⟨fd, sid, .vppcomBound⟩)) :
    Stays fd sid post (withVsock s fd body) := by
  rw [withVsock, h.found]
  dsimp only
  rw [h.vsock]
  exact hb

theorem stays_checked {c : LibcCall} (hc : ∀ a, Answered (.libc fd c) a → a.rv = 0 ∨ 0 < a.errno) :
    Stays fd sid (· ≤ 0) (checked (.libc fd c)) := by
  refine ensures_ask_bind rfl fun a ha => ensures_ite (fun hne => ?_) fun he => ?_
  · exact Int.le_of_lt (Int.neg_neg_of_pos ((hc a ha).resolve_left hne))
  · exact Int.le_of_eq (not_not.mp he)

theorem stays_vppcom (c : VppcomCall) (hp : ∀ a, Answered (.vppcom sid c) a → post a.rv) :
    Stays fd sid post (do let a ← ask (.vppcom sid c); pure a.rv) :=
  ensures_ask_bind rfl fun a ha => hp a ha

theorem stays_connectionMode {post : Bool → Prop} (hp : ∀ b, post b) :
    Ensures (Within fd sid) Answered post (connectionMode s fd) :=
  ensures_ite (fun _ => ensures_ask_bind rfl fun _ _ => hp _) fun _ => hp _

theorem At.fcntl (h : At s fd sid i) (cmd : Int) : Stays fd sid Any (vcomSocketFcntlVa s fd cmd) := by
  apply h.stays
  split
  · exact trivial
  · exact trivial
  · exact ensures_ask_bind rfl fun _ _ => trivial
  · exact trivial
  · exact trivial

theorem At.read (h : At s fd sid i) (fuel : Nat) (buf : Bool) (nbytes : Nat) :
    Stays fd sid Any (vcomSocketRead fuel s fd buf nbytes) := by
  have hread : Stays fd sid Any (vppcomSessionRead sid nbytes) :=
    stays_vppcom _ fun _ _ => trivial
  apply h.stays
  refine ensures_ite (fun _ => trivial) fun _ => ensures_bind ?_
  rw [vcomFcntl, if_pos h.isVcomFd]
  refine ensures_mono (h.fcntl fGetfl) fun rv _ => ensures_ite (fun _ => trivial) fun _ => ?_
  exact ensures_ite (fun _ => ensures_again hread fuel) fun _ => hread

theorem At.write (h : At s fd sid i) (buf : Bool) (n : Nat) :
    Stays fd sid Any (vcomSocketWrite s fd buf n) :=
  h.stays (ensures_ite (fun _ => trivial) fun _ => stays_vppcom _ fun _ _ => trivial)

theorem At.bind (h : At s fd sid i) (addr : Sockaddr) (len : Nat) :
    Stays fd sid (· ≤ 0) (vcomSocketBind s fd addr len) := by
  apply h.stays
  split
  · exact (by decide : (-1 : Int) ≤ 0)
  · refine ensures_ite (fun _ => (by decide : -einval ≤ 0)) fun _ => ?_
    refine ensures_ask_bind rfl fun a ha => ensures_ite (fun _ => ?_) fun _ => ha
    exact stays_checked fun a ha => ha.imp_right And.right

theorem At.getsockname (h : At s fd sid i) (addr len : Bool) :
    Stays fd sid (· ≤ 0) (vcomSocketGetsockname s fd addr len) :=
  h.stays (ensures_ite (fun _ => (by decide : -efault ≤ 0)) fun _ =>
    stays_checked fun a ha => ha.imp_right And.right)

theorem At.connect (h : At s fd sid i) (addr : Sockaddr) :
    Stays fd sid (· ≤ 0) (vcomSocketConnect s fd addr) := by
  rw [vcomSocketConnect, h.found]
  dsimp only
  split
  · exact (by decide : (-1 : Int) ≤ 0)
  · rw [h.vsock]
    exact stays_vppcom _ fun a ha => ha

theorem At.getpeername (h : At s fd sid i) (addr len : Bool) :
    Stays fd sid (· ≤ 0) (vcomSocketGetpeername s fd addr len) :=
  h.stays (ensures_ite (fun _ => (by decide : -efault ≤ 0)) fun _ => Int.le_refl 0)

theorem At.sendto (h : At s fd sid i) (buf : Bool) (n : Nat) (addr : Option Sockaddr)
    (addrLen : Nat) : Stays fd sid Any (vcomSocketSendto s fd buf n addr addrLen) := by
  apply h.stays
  refine ensures_ite (fun _ => trivial) fun _ => ensures_bind (stays_connectionMode fun b => ?_)
  have hwrite : Stays fd sid Any (do
      let a ← ask (.vppcom sid (.write (Int32.ofNat n).toInt)); pure a.rv) :=
    stays_vppcom _ fun _ _ => trivial
  refine ensures_ite (fun _ => ensures_ite (fun _ => trivial) fun _ => hwrite) fun _ => ?_
  cases addr with
  | none => exact trivial
  | some addr => exact ensures_ite (fun _ => trivial) fun _ => hwrite

theorem At.recvfrom (h : At s fd sid i) (buf : Bool) (n : Nat) (addr : Bool) :
    Stays fd sid Any (vcomSocketRecvfrom s fd buf n addr) :=
  h.stays (ensures_ite (fun _ => trivial) fun _ => ensures_ite (fun _ => trivial) fun _ =>
    stays_vppcom _ fun _ _ => trivial)

theorem At.sendmsg (h : At s fd sid i) (message : Option (Bool × Nat)) :
    Stays fd sid Any (vcomSocketSendmsg s fd message) := by
  unfold vcomSocketSendmsg
  rw [h.found]
  refine ensures_bind (stays_connectionMode fun b => ensures_ite (fun _ => ?_) fun _ => trivial)
  cases message with
  | none => exact trivial
  | some m => exact ensures_ite (fun _ => trivial) fun _ => trivial

theorem At.recvmsg (h : At s fd sid i) (message : Bool) :
    Stays fd sid Any (vcomSocketRecvmsg s fd message) :=
  h.stays (ensures_ite (fun _ => trivial) fun _ => trivial)

theorem At.getsockopt (h : At s fd sid i) (level optname : Int) (optval optlen : Bool) :
    Stays fd sid (· ≤ 0) (vcomSocketGetsockopt s fd level optname optval optlen) := by
  have hno : -enoprotoopt ≤ 0 := by decide
  apply h.stays
  refine ensures_ite (fun _ => (by decide : -efault ≤ 0)) fun _ => ensures_ite (fun _ => trivial) ?_
  refine fun _ => ensures_ite (fun _ => ensures_ite (fun _ => ?_) fun _ => hno) fun _ => hno
  exact stays_checked fun a ha => ha.imp_right And.right

theorem At.setsockopt (h : At s fd sid i) (level optname : Int) (optval : Bool) (optlen : Nat) :
    Stays fd sid (· ≤ 0) (vcomSocketSetsockopt s fd level optname optval optlen) := by
  have hno : -enoprotoopt ≤ 0 := by decide
  have hset : Stays fd sid (· ≤ 0) (checked (.libc fd (.setsockopt level optname optval optlen))) :=
    stays_checked fun a ha => ha.imp_right And.right
  apply h.stays
  refine ensures_ite (fun _ => hset) fun _ => ensures_ite (fun _ => (by decide : -efault ≤ 0)) ?_
  refine fun _ => ensures_ite (fun _ => (by decide : -einval ≤ 0)) fun _ => ?_
  exact ensures_ite (fun _ => ensures_ite (fun _ => hset) fun _ => hno) fun _ => hno

theorem At.listen (h : At s fd sid i) (n : Int) :
    Stays fd sid (· ≤ 0) (vcomSocketListen s fd n) := by
  rw [vcomSocketListen, h.found]
  dsimp only
  rw [h.vsock]
  exact stays_vppcom _ fun a ha => ha

theorem At.shutdown (h : At s fd sid i) (how : Int) :
    Stays fd sid (· ≤ 0) (vcomSocketShutdown s fd how) := by
  rw [vcomSocketShutdown, h.found]
  exact ensures_ite (fun _ => Int.le_refl 0) fun _ => (by decide : -einval ≤ 0)

theorem stays_epollPwait (h : vcomSocketGetVepIdx s fd = sid) (events : Bool)
    (maxevents timeout : Int) :
    Stays fd sid Any (vcomSocketEpollPwait s fd events maxevents timeout) := by
  refine ensures_ite (fun _ => trivial) fun _ => ensures_ite (fun _ => trivial) fun _ => ?_
  rw [h]
  exact ensures_ite (fun _ => stays_vppcom _ fun _ _ => trivial) fun _ => trivial

end Vppsb.VcomData
