import Vppsb.FdSets
import Vppsb.StepRun

namespace Vppsb.VcomSelect

open Vppsb.StepRun Vppsb.FdSets

def fdSetSize : Nat := 1024
def einval : Int := 22
def ebadfd : Int := 77

structure Timespec where
  sec : Int
  nsec : Int

structure Timeval where
  sec : Int
  usec : Int

def nsecPerSec : Int := 1000000000

/-- The two loops of the source move whole seconds from `nsec` to `sec`. -/
def setNormalizedTimespec (sec nsec : Int) : Timespec :=
  ⟨sec + nsec / nsecPerSec, nsec % nsecPerSec⟩

def timespecAdd (lhs rhs : Timespec) : Timespec :=
  setNormalizedTimespec (lhs.sec + rhs.sec) (lhs.nsec + rhs.nsec)

def timespecSub (lhs rhs : Timespec) : Timespec :=
  setNormalizedTimespec (lhs.sec - rhs.sec) (lhs.nsec - rhs.nsec)

def timespecCompare (lhs rhs : Timespec) : Int :=
  if lhs.sec < rhs.sec then -1 else if lhs.sec > rhs.sec then 1 else lhs.nsec - rhs.nsec

def vcomTimerisvalid (tv : Timeval) : Bool := !(decide (tv.sec < 0) || decide (tv.usec < 0))

def timerisset (tv : Timeval) : Bool := decide (tv.sec ≠ 0) || decide (tv.usec ≠ 0)

def timevalToTimespec (tv : Timeval) : Timespec := ⟨tv.sec, tv.usec * 1000⟩
def timespecToTimeval (ts : Timespec) : Timeval := ⟨ts.sec, ts.nsec / 1000⟩

inductive VcomSocketType where
  | unbound
  | kernelBound
  | vppcomBound
deriving DecidableEq

/-- A socket of the pool. There is no session id where `sid` is
`INVALID_SESSION_ID`. -/
structure VcomSocket where
  type : VcomSocketType
  sid : Option Nat

/-- The pool of sockets through the hash `sockidx_by_fd`. -/
abbrev Sockets := Nat → Option VcomSocket

def isVcomSocketFd (sockets : Sockets) (fd : Nat) : Bool :=
  match sockets fd with
  | some vsock => decide (vsock.type = .vppcomBound)
  | none => false

def vcomSocketGetSid (sockets : Sockets) (fd : Nat) : Option Nat :=
  match sockets fd with
  | some vsock => if vsock.type = .vppcomBound then vsock.sid else none
  | none => none

/-- The sets of `src` go to the first sets for sockets of vcom and to the
second ones for all others. -/
def vcomFdSetSplit (sockets : Sockets) (nfds : Nat) (src vcom libc : SelectSets) : Marks × Marks :=
  (fdLoop nfds).foldl (fun (m : Marks × Marks) x =>
    if isSet src x.1 x.2 then
      if isVcomSocketFd sockets x.2 then (mark m.1 x.1 x.2, m.2) else (m.1, mark m.2 x.1 x.2)
    else m) (emptyMarks vcom, emptyMarks libc)

def fdRweSetsOr (dst : Marks) (src : SelectSets) (nfds : Nat) : Marks :=
  markAll (isSet src) id (fdLoop nfds) dst

def vcomFdSetMerge (dest : SelectSets) (vcomNfds : Nat) (vcom : SelectSets) (libcNfds : Nat)
    (libc : SelectSets) : Marks :=
  fdRweSetsOr (fdRweSetsOr (emptyMarks dest) vcom vcomNfds) libc libcNfds

def fdSetIszero (s : SelectSets) (k : FdKind) : Bool :=
  (List.range fdSetSize).all (fun fd => !isSet s k fd)

/-- The loop of `vcom_socket_fds_2_sid_fds`. It fails at a descriptor that has no session id, and is
undefined at an id that has no bit in an `fd_set`. -/
def collectSids (sockets : Sockets) (fds : SelectSets) :
    List (FdKind × Nat) → Marks → Option (Except Int Marks)
  | [], m => some (.ok m)
  | (k, fd) :: rest, m =>
    if isSet fds k fd && present m.sets k then
      match vcomSocketGetSid sockets fd with
      | none => some (.error (-ebadfd))
      | some sid => if sid < fdSetSize then collectSids sockets fds rest (mark m k sid) else none
    else collectSids sockets fds rest m

def vcomSocketFds2SidFds (sockets : Sockets) (sids : SelectSets) (vcomNfds : Nat)
    (fds : SelectSets) : Option (Except Int Marks) :=
  collectSids sockets fds (fdLoop vcomNfds) (emptyMarks sids)

/-- The loop that clears the descriptors whose session id is not in `sids`. It
stops at a descriptor without one. -/
def clearIdle (sockets : Sockets) (sids : SelectSets) :
    List (FdKind × Nat) → SelectSets → Option (SelectSets × Bool)
  | [], fds => some (fds, true)
  | (k, fd) :: rest, fds =>
    if isSet fds k fd && present sids k then
      match vcomSocketGetSid sockets fd with
      | none => some (fds, false)
      | some sid =>
        if sid < fdSetSize then
          clearIdle sockets sids rest (if isSet sids k sid then fds else setBit fds k fd false)
        else none
    else clearIdle sockets sids rest fds

/-- The second loop of `vcom_socket_sid_fds_2_fds`, which looks for the largest
descriptor (-1 for none) and counts the bits. -/
def countFds (nfds : Nat) (fds : SelectSets) : Int × Nat :=
  (fdLoop nfds).foldl (fun (m : Int × Nat) x =>
    if isSet fds x.1 x.2 then (if (x.2 : Int) > m.1 then (x.2 : Int) else m.1, m.2 + 1) else m)
    (-1, 0)

/-- The result with `new_vcom_nfds`, which a failing call does not write, and the sets. -/
def vcomSocketSidFds2Fds (sockets : Sockets) (vcomNfds : Nat) (fds sids : SelectSets)
    (newVcomNfds : Nat) : Option (Int × Nat × SelectSets) :=
  match clearIdle sockets sids (fdLoop vcomNfds) fds with
  | none => none
  | some (fds, true) =>
    let m := countFds vcomNfds fds
    some (m.2, nfdsOf m.1, fds)
  | some (fds, false) => some (-ebadfd, newVcomNfds, fds)

/-- Called with a zero timeout, so that `vppcom_select` does not wait. The sets
stay as they are when nothing is ready. -/
def vcomSocketSelect (sockets : Sockets) (vppcomSelect : Nat → SelectSets → Int × SelectSets)
    (vcomNfds : Nat) (fds : SelectSets) : Option (Int × SelectSets) :=
  match vcomSocketFds2SidFds sockets (zeroSets fds) vcomNfds fds with
  | none => none
  | some (.error rv) => some (rv, fds)
  | some (.ok m) =>
    -- the number of session ids is written through a null pointer when all sets are absent
    if present fds .read || present fds .write || present fds .except then
      let r := vppcomSelect (nfdsOf m.maxFd) m.sets
      if 0 < r.1 then
        (vcomSocketSidFds2Fds sockets vcomNfds fds r.2 0).map (fun t => (t.1, t.2.2))
      else some (r.1, fds)
    else none

structure Poll where
  vppcomSelect : Nat → SelectSets → Int × SelectSets
  libcSelect : Nat → SelectSets → Int × SelectSets
  errno : Int
  clockGettime : Except Int Timespec

/-- The variables that the polling loop only reads. No end time stands for a
call without timeout. -/
structure Watch where
  sockets : Sockets
  sets : SelectSets
  vcomNfds : Nat
  libcNfds : Nat
  endTime : Option Timespec

/-- At the head of the polling loop with the sets it hands out, or at
`select_done`. -/
inductive LoopState where
  | polling (vcom libc : SelectSets)
  | exited (rv : Int) (sets : SelectSets) (timedout : Bool)

/-- The result of `vcom_select_impl`, or -1 where it is not called. -/
def vcomCall (w : Watch) (p : Poll) (vcom : SelectSets) : Option (Int × SelectSets) :=
  if w.vcomNfds ≠ 0 then vcomSocketSelect w.sockets p.vppcomSelect w.vcomNfds vcom
  else some (-1, vcom)

def libcCall (w : Watch) (p : Poll) (libc : SelectSets) : Int × SelectSets :=
  if w.libcNfds ≠ 0 then p.libcSelect w.libcNfds libc else (-1, libc)

/-- One round of the polling loop. The sets that are merged on exit are the
ones that the two calls have modified in place. -/
def pollRound (w : Watch) : LoopState → Poll → Option LoopState
  | .exited _ _ _, _ => none
  | .polling vcom libc, p => do
    let v ← vcomCall w p vcom
    let l := libcCall w p libc
    some (
      if w.vcomNfds ≠ 0 ∧ v.1 < 0 then .exited v.1 w.sets false
      -- the source returns `errno` itself here, without the sign
      else if w.libcNfds ≠ 0 ∧ l.1 < 0 then .exited p.errno w.sets false
      else if (w.vcomNfds ≠ 0 ∧ 0 < v.1) ∨ (w.libcNfds ≠ 0 ∧ 0 < l.1) then
        let m := vcomFdSetMerge (zeroSets w.sets) w.vcomNfds v.2 w.libcNfds l.2
        .exited m.nfd m.sets false
      else match p.clockGettime, w.endTime with
        | .error errno, _ => .exited (-errno) w.sets false
        | .ok _, none => .polling v.2 l.2
        | .ok now, some endTime =>
          if timespecCompare now endTime < 0 then .polling v.2 l.2 else .exited 0 w.sets true)

structure Call where
  sockets : Sockets
  nfds : Int
  sets : SelectSets
  timeout : Option Timeval

/-- What the calls outside of the polling loop return, and the rounds of the
loop. `libcSelect` is the call that emulates `usleep`. -/
structure Outside where
  start : Except Int Timespec
  vcomInit : Int
  libcSelect : SelectSets → Timeval → Int × SelectSets × Timeval
  errno : Int
  polls : List Poll
  finish : Except Int Timespec

structure Result where
  rv : Int
  sets : SelectSets
  timeout : Option Timeval

def selectDone (finish : Except Int Timespec) (endTime : Timespec) (timeout : Option Timeval)
    (timedout firstClockGettimeFailed : Bool) (rv : Int) (sets : SelectSets) : Result :=
  match timeout with
  | none => ⟨rv, sets, none⟩
  | some tv =>
    if vcomTimerisvalid tv then
      if timedout then ⟨rv, sets, some ⟨0, 0⟩⟩
      else if firstClockGettimeFailed then ⟨rv, sets, some tv⟩
      else match finish with
        | .error errno => ⟨-errno, sets, some tv⟩
        | .ok now => ⟨rv, sets, some (timespecToTimeval (timespecSub endTime now))⟩
    else ⟨rv, sets, some tv⟩

def endTimeOf (start : Timespec) (tv : Timeval) : Timespec :=
  if timerisset tv then
    let ts := timevalToTimespec tv
    timespecAdd start (setNormalizedTimespec ts.sec ts.nsec)
  else start

def watchOf (c : Call) (start : Timespec) : Watch × SelectSets × SelectSets :=
  let m := vcomFdSetSplit c.sockets c.nfds.toNat c.sets (zeroSets c.sets) (zeroSets c.sets)
  (⟨c.sockets, c.sets, nfdsOf m.1.maxFd, nfdsOf m.2.maxFd, c.timeout.map (endTimeOf start)⟩,
    m.1.sets, m.2.sets)

/-- `vcom_select`, defined when the rounds given are just those that the call
makes. -/
def vcomSelect (c : Call) (o : Outside) : Option Result :=
  let early (timeout : Option Timeval) (endTime : Timespec) (failed : Bool) (rv : Int)
      (sets : SelectSets) : Option Result :=
    if o.polls.isEmpty then some (selectDone o.finish endTime timeout false failed rv sets) else none
  if c.timeout.any (fun tv => !vcomTimerisvalid tv) then early c.timeout ⟨0, 0⟩ false (-einval) c.sets
  else match o.start with
  | .error errno => early c.timeout ⟨0, 0⟩ true (-errno) c.sets
  | .ok start =>
    let endTime := (c.timeout.map (endTimeOf start)).getD ⟨0, 0⟩
    if o.vcomInit ≠ 0 then early c.timeout endTime false (-1) c.sets
    else if c.nfds < 0 ∨ fdSetSize < c.nfds then early c.timeout endTime false (-einval) c.sets
    else if c.nfds = 0 ∧ fdSetIszero c.sets .read ∧ fdSetIszero c.sets .write ∧
        fdSetIszero c.sets .except then
      match c.timeout with
      | none => early none endTime false (-einval) c.sets
      | some tv =>
        let r := o.libcSelect c.sets tv
        early (some r.2.2) endTime false (if r.1 = -1 then -o.errno else r.1) r.2.1
    else
      let (w, vcom, libc) := watchOf c start
      match run (pollRound w) (.polling vcom libc) o.polls with
      | some (.exited rv sets timedout) =>
        some (selectDone o.finish endTime c.timeout timedout false rv sets)
      | _ => none

end Vppsb.VcomSelect
