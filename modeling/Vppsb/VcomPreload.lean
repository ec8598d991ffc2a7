import Vppsb.VcomData
import Vppsb.VcomTeardown

namespace Vppsb.VcomPreload

open Vppsb.StepRun Vppsb.Dialogue Vppsb.PoolStore Vppsb.KeyedPool Vppsb.PoolIndex
open Vppsb.VcomSockets Vppsb.VcomCalls Vppsb.VcomEdits Vppsb.VcomTeardown Vppsb.VcomData
open Vppsb.VcomSelect (einval)

def epMaxEvents : Int := 0x7fffffff / 12

structure Returned where
  rv : Int
  errno : Option Int

def failedWith (e : Int) : Returned := ⟨-1, some e⟩

def sizeReturned (rv : Int) : Returned := if rv < 0 then failedWith (-rv) else ⟨rv, none⟩

def zeroReturned (rv : Int) : Returned := if rv ≠ 0 then failedWith (-rv) else ⟨0, none⟩

def vcomBind (s : VcomSocketMain) (fd : Int) (addr : Sockaddr) (len : Nat) : Calls :=
  match endpointOf addr with
  | none => pure (-1)
  | some ep =>
    if len ≠ sockaddrLen ep.isIp4 then pure (-einval) else vcomSocketBind s fd addr len

/-- The length that is wanted is that of an address in text. -/
def vcomConnect (s : VcomSocketMain) (fd : Int) (addr : Sockaddr) (len : Nat) : Calls :=
  match endpointOf addr with
  | none => pure (-1)
  | some ep =>
    if len ≠ (if ep.isIp4 then inetAddrstrlen else inet6Addrstrlen) then pure (-1)
    else vcomSocketConnect s fd addr

/-- The function of the socket layer that a wrapper comes to. -/
def vcomRequest (fuel : Nat) (s : VcomSocketMain) (fd : Int) : Request → Calls
  | .read buf nbytes => vcomSocketRead fuel s fd buf nbytes
  | .write buf n => vcomSocketWrite s fd buf n
  | .fcntl cmd => vcomSocketFcntlVa s fd cmd
  | .bind addr len => vcomBind s fd addr len
  | .getsockname addr len => vcomSocketGetsockname s fd addr len
  | .connect addr len => vcomConnect s fd addr len
  | .getpeername addr len => vcomSocketGetpeername s fd addr len
  | .send buf n _ => vcomSocketSend s fd buf n
  | .recv buf n _ => vcomSocketRecv s fd buf n
  | .sendto buf n _ addr addrLen => vcomSocketSendto s fd buf n addr addrLen
  | .recvfrom buf n _ addr _ => vcomSocketRecvfrom s fd buf n addr
  | .sendmsg message _ => vcomSocketSendmsg s fd message
  | .recvmsg message _ => vcomSocketRecvmsg s fd message
  | .getsockopt level optname optval optlen => vcomSocketGetsockopt s fd level optname optval optlen
  | .setsockopt level optname optval optlen => vcomSocketSetsockopt s fd level optname optval optlen
  | .listen n => vcomSocketListen s fd n
  | .shutdown how => vcomSocketShutdown s fd how

/-- The functions whose wrappers take everything but 0 for a failure. -/
def returnsZero : Request → Bool
  | .bind .. | .getsockname .. | .connect .. | .getpeername .. => true
  | .getsockopt .. | .setsockopt .. | .listen .. | .shutdown .. => true
  | _ => false

def returned (q : Request) (rv : Int) : Returned :=
  if returnsZero q then zeroReturned rv else sizeReturned rv

structure Process where
  life : Life
  kernel : List Int

def Process.vsm (p : Process) : VcomSocketMain := p.life.vcom.world.vsm

/-- `vcom_init` comes first, and -1 is returned where it fails. -/
def vcomEntered (created : Int) (v : Vcom) (body : Vcom → Calls) : Calls :=
  let i := vcomInit created v
  if i.2 ≠ 0 then pure (-1) else body i.1

def request (created : Int) (fuel : Nat) (p : Process) (fd : Int) (q : Request) :
    Comp Under Answer Returned :=
  if vcomSocketIsVcomFd p.vsm fd then do
    let rv ← vcomEntered created p.life.vcom fun v => vcomRequest fuel v.world.vsm fd q
    pure (returned q rv)
  else do
    let a ← ask (.libc fd (.same q))
    pure ⟨a.rv, none⟩

def epollWait (created : Int) (p : Process) (epfd : Int) (events : Bool) (maxevents timeout : Int) :
    Comp Under Answer Returned :=
  if maxevents ≤ 0 ∨ epMaxEvents < maxevents then pure (failedWith einval)
  else if vcomSocketIsVcomEpfd p.vsm epfd then do
    let rv ← vcomEntered created p.life.vcom fun v =>
      vcomSocketEpollPwait v.world.vsm epfd events maxevents timeout
    pure (sizeReturned rv)
  else pure (failedWith einval)

/-- What a program does. `gets` is a descriptor that it gets from a call that has no
wrapper, and the last argument of `socket` and `accept` is what the C library returns
where the call is passed on. -/
inductive App where
  | gets (fd : Int)
  | socket (created domain : Int) (type : Int32) (r : Libc) (sid : Int) (c kernel : Libc)
  | accept (created fd : Int) (addr addrLen : Bool) (o : AcceptCalls) (kernel : Libc)
  | accept4 (created fd : Int) (addr addrLen : Bool) (flags : Int32) (o : AcceptCalls) (kernel : Libc)
  | epollCreate (created size : Int) (r : Libc) (vepIdx : Int) (c : Libc)
  | epollCreate1 (created : Int) (flags : Int32) (r : Libc) (vepIdx : Int) (c : Libc)
  | epollCtl (created epfd op fd : Int) (event : Option EpollEvent) (rv : Int)
  | close (created fd : Int) (closes : Int → Libc)
  | request (created : Int) (fuel : Nat) (fd : Int) (q : Request) (answers : List Answer)
  | epollWait (created epfd : Int) (events : Bool) (maxevents timeout : Int) (answers : List Answer)
  | unload (o : Answers)

def Fresh (p : Process) (r : Libc) : Prop :=
  r.Opens (p.life.vcom.world.fds ++ p.kernel)

instance (p : Process) (r : Libc) : Decidable (Fresh p r) :=
  inferInstanceAs (Decidable (Libc.Opens _ _))

/-- The descriptors of the kernel are not those that a call opens. -/
def FreshAct (p : Process) : Act → Prop
  | .socket _ _ r _ _ => Fresh p r
  | .accept _ _ _ o => Fresh p o.socket
  | .accept4 _ _ _ _ o => Fresh p o.socket
  | .epollCreate1 _ r _ _ => Fresh p r
  | .epollCtl .. => True
  | .close .. => True

instance (p : Process) : (a : Act) → Decidable (FreshAct p a)
  | .socket _ _ r _ _ => inferInstanceAs (Decidable (Fresh p r))
  | .accept _ _ _ o => inferInstanceAs (Decidable (Fresh p o.socket))
  | .accept4 _ _ _ _ o => inferInstanceAs (Decidable (Fresh p o.socket))
  | .epollCreate1 _ r _ _ => inferInstanceAs (Decidable (Fresh p r))
  | .epollCtl .. => inferInstanceAs (Decidable True)
  | .close .. => inferInstanceAs (Decidable True)

def enter (p : Process) (created : Int) (a : Act) : Option Process :=
  if FreshAct p a then (live p.life (.call created a)).map fun l => { p with life := l } else none

def passOpen (p : Process) (r : Libc) : Option Process :=
  if Fresh p r then some (if r.rv = -1 then p else { p with kernel := r.rv :: p.kernel }) else none

def converse (p : Process) (m : Comp Under Answer Returned) (answers : List Answer) : Option Process :=
  (talk m answers).map fun _ => p

def initOnly (p : Process) (created : Int) : Process :=
  { p with life := { p.life with vcom := (vcomInit created p.life.vcom).1 } }

/-- The operations that `vcom_epoll_ctl` lets through. -/
def EpollCtlValid (epfd op fd : Int) (event : Option EpollEvent) : Prop :=
  (op = epollCtlAdd ∨ op = epollCtlMod ∨ op = epollCtlDel) ∧
    (op ≠ epollCtlDel → event.isSome) ∧ epfd ≠ fd

instance (epfd op fd : Int) (event : Option EpollEvent) : Decidable (EpollCtlValid epfd op fd event) :=
  inferInstanceAs (Decidable (_ ∧ _))

def act (p : Process) : App → Option Process
  | .gets fd =>
    if 0 ≤ fd ∧ fd ∉ p.life.vcom.world.fds ++ p.kernel then some { p with kernel := fd :: p.kernel }
    else none
  | .socket created domain type r sid c kernel =>
    if Supported domain type then enter p created (.socket domain type r sid c)
    else passOpen p kernel
  | .accept created fd addr addrLen o kernel =>
    if vcomSocketIsVcomFd p.vsm fd then enter p created (.accept fd addr addrLen o)
    else passOpen p kernel
  | .accept4 created fd addr addrLen flags o kernel =>
    if vcomSocketIsVcomFd p.vsm fd then enter p created (.accept4 fd addr addrLen flags o)
    else passOpen p kernel
  | .epollCreate created size r vepIdx c =>
    if size ≤ 0 then some (initOnly p created) else enter p created (.epollCreate1 0 r vepIdx c)
  | .epollCreate1 created flags r vepIdx c => enter p created (.epollCreate1 flags r vepIdx c)
  | .epollCtl created epfd op fd event rv =>
    if vcomSocketIsVcomEpfd p.vsm epfd ∧ vcomSocketIsVcomFd p.vsm fd then
      if EpollCtlValid epfd op fd event then
        enter p created (.epollCtl epfd op fd (event.getD noEvent) rv)
      else some (initOnly p created)
    else some p
  | .close created fd closes =>
    if vcomSocketIsVcomFd p.vsm fd ∨ vcomSocketIsVcomEpfd p.vsm fd then
      enter p created (.close fd closes)
    else some { p with kernel := p.kernel.erase fd }
  | .request created fuel fd q answers => converse p (request created fuel p fd q) answers
  | .epollWait created epfd events maxevents timeout answers =>
    converse p (epollWait created p epfd events maxevents timeout) answers
  | .unload o => (live p.life (.destroy o)).map fun l => { p with life := l }

def launched : Process := ⟨born, []⟩

def sessionOf (s : VcomSocketMain) (fd : Int) : Option Int :=
  match s.sockidxByFd fd with
  | some i => some (s.vsockets.elt i).sid
  | none => (s.epollidxByEpfd fd).map fun j => (s.vepolls.elt j).vepIdx

variable {p p' : Process} {fd sid created : Int} {fuel : Nat} {q : Request} {w : World}
variable {lost : List Int}

section Sessions

theorem sessionOf_cases (h : Sound w) (hs : sessionOf w.vsm fd = some sid) :
    (∃ i, Live w.vsm.vsockets i ∧ (w.vsm.vsockets.elt i).fd = fd ∧
        (w.vsm.vsockets.elt i).sid = sid) ∨
      ∃ j, Live w.vsm.vepolls j ∧ (w.vsm.vepolls.elt j).epfd = fd ∧
        (w.vsm.vepolls.elt j).vepIdx = sid := by
  unfold sessionOf at hs
  cases hi : w.vsm.sockidxByFd fd with
  | some i =>
    rw [hi] at hs
    have hl := (h.socks.hashed fd i).mp hi
    exact Or.inl ⟨i, hl.1, hl.2, Option.some.inj hs⟩
  | none =>
    rw [hi] at hs
    obtain ⟨j, hj, hv⟩ := Option.map_eq_some_iff.mp hs
    have hl := (h.epolls.hashed fd j).mp hj
    exact Or.inr ⟨j, hl.1, hl.2, hv⟩

theorem sessionOf_isOpen (h : Sound w) (ho : Accounted lost w) (hs : sessionOf w.vsm fd = some sid) :
    sid ∈ w.sessions := by
  rw [ho.perm.mem_iff]
  obtain ⟨i, hi, -, hv⟩ | ⟨j, hj, -, hv⟩ := sessionOf_cases h hs
  · exact List.mem_append_left _ (mem_column.mpr ⟨i, hi, hv⟩)
  · exact List.mem_append_right _ (List.mem_append_left _ (mem_column.mpr ⟨j, hj, hv⟩))

/-- Two descriptors never have the same session. -/
theorem sessionOf_injective (h : Sound w) (ho : Accounted lost w) {fd' : Int}
    (hs : sessionOf w.vsm fd = some sid) (hs' : sessionOf w.vsm fd' = some sid) : fd' = fd := by
  have hn := ho.perm.nodup_iff.mp ho.nodup
  have hd := List.disjoint_of_nodup_append hn
  have hsocks := hn.of_append_left
  have hepolls := hn.of_append_right.of_append_left
  have hapart : ∀ i j, Live w.vsm.vsockets i → Live w.vsm.vepolls j →
      (w.vsm.vsockets.elt i).sid = sid → (w.vsm.vepolls.elt j).vepIdx ≠ sid := by
    intro i j hi hj hv hv'
    exact hd (mem_column.mpr ⟨i, hi, hv⟩)
      (List.mem_append_left _ (mem_column.mpr ⟨j, hj, hv'⟩))
  obtain ⟨i, hi, hf, hv⟩ | ⟨i, hi, hf, hv⟩ := sessionOf_cases h hs
  · obtain ⟨j, hj, hf', hv'⟩ | ⟨j, hj, hf', hv'⟩ := sessionOf_cases h hs'
    · obtain rfl := column_injective hsocks hi hj (hv.trans hv'.symm)
      exact hf'.symm.trans hf
    · exact absurd hv' (hapart i j hi hj hv)
  · obtain ⟨j, hj, hf', hv'⟩ | ⟨j, hj, hf', hv'⟩ := sessionOf_cases h hs'
    · exact absurd hv (hapart j i hj hi hv')
    · obtain rfl := column_injective hepolls hi hj (hv.trans hv'.symm)
      exact hf'.symm.trans hf

theorem sessionOf_lost (h : Sound w) (ho : Accounted lost w) (hs : sessionOf w.vsm fd = some sid) :
    sid ∉ lost := by
  have hn := ho.perm.nodup_iff.mp ho.nodup
  intro hl
  obtain ⟨i, hi, -, hv⟩ | ⟨j, hj, -, hv⟩ := sessionOf_cases h hs
  · exact List.disjoint_of_nodup_append hn (mem_column.mpr ⟨i, hi, hv⟩)
      (List.mem_append_right _ hl)
  · exact List.disjoint_of_nodup_append hn.of_append_right (mem_column.mpr ⟨j, hj, hv⟩) hl

theorem sound_at (h : Sound w) {i : Nat} (hi : w.vsm.sockidxByFd fd = some i) :
    At w.vsm fd (w.vsm.vsockets.elt i).sid i := by
  have hb := h.socks.found hi
  have hk := h.socks.hashed.key_eq hi
  refine ⟨hi, ?_⟩
  rw [← hk, ← hb.1]

end Sessions

section Requests

/-- Of a function whose wrapper takes only 0 for success, the value is never positive. -/
def Fit (q : Request) (rv : Int) : Prop := returnsZero q = true → rv ≤ 0

theorem at_request {s : VcomSocketMain} {i : Nat} (h : At s fd sid i) (fuel : Nat) (q : Request) :
    Stays fd sid (Fit q) (vcomRequest fuel s fd q) := by
  have hany : ∀ q : Request, returnsZero q = false → ∀ rv, Any rv → Fit q rv := by
    intro q hq rv _ ht
    rw [hq] at ht
    cases ht
  have hle : ∀ (q : Request) (rv : Int), rv ≤ 0 → Fit q rv := fun _ _ hrv _ => hrv
  cases q with
  | read buf nbytes => exact ensures_mono (h.read fuel buf nbytes) (hany _ rfl)
  | write buf n => exact ensures_mono (h.write buf n) (hany _ rfl)
  | fcntl cmd => exact ensures_mono (h.fcntl cmd) (hany _ rfl)
  | getsockname addr len => exact ensures_mono (h.getsockname addr len) (hle _)
  | getpeername addr len => exact ensures_mono (h.getpeername addr len) (hle _)
  | send buf n flags => exact ensures_mono (h.sendto buf n none 0) (hany _ rfl)
  | recv buf n flags => exact ensures_mono (h.recvfrom buf n false) (hany _ rfl)
  | sendto buf n flags addr len => exact ensures_mono (h.sendto buf n addr len) (hany _ rfl)
  | recvfrom buf n flags addr len => exact ensures_mono (h.recvfrom buf n addr) (hany _ rfl)
  | sendmsg message flags => exact ensures_mono (h.sendmsg message) (hany _ rfl)
  | recvmsg message flags => exact ensures_mono (h.recvmsg message) (hany _ rfl)
  | getsockopt level optname optval optlen =>
    exact ensures_mono (h.getsockopt level optname optval optlen) (hle _)
  | setsockopt level optname optval optlen =>
    exact ensures_mono (h.setsockopt level optname optval optlen) (hle _)
  | listen n => exact ensures_mono (h.listen n) (hle _)
  | shutdown how => exact ensures_mono (h.shutdown how) (hle _)
  | bind addr len =>
    rw [vcomRequest, vcomBind]
    split
    · exact hle _ _ (by decide)
    · refine ensures_ite (fun _ => hle _ _ (by decide)) fun _ => ?_
      exact ensures_mono (h.bind addr len) (hle _)
  | connect addr len =>
    rw [vcomRequest, vcomConnect]
    split
    · exact hle _ _ (by decide)
    · refine ensures_ite (fun _ => hle _ _ (by decide)) fun _ => ?_
      exact ensures_mono (h.connect addr) (hle _)

/-- A wrapper returns what is not negative, or -1 with `errno` set. -/
def Told (r : Returned) : Prop :=
  0 ≤ r.rv ∧ r.errno = none ∨ r.rv = -1 ∧ ∃ e, r.errno = some e ∧ 0 < e

theorem told_size (rv : Int) : Told (sizeReturned rv) := by
  unfold sizeReturned
  split
  · rename_i h
    exact Or.inr ⟨rfl, -rv, rfl, Int.neg_pos_of_neg h⟩
  · rename_i h
    exact Or.inl ⟨Int.not_lt.mp h, rfl⟩

theorem told_returned {rv : Int} (h : Fit q rv) : Told (returned q rv) := by
  unfold returned
  split
  · rename_i hz
    unfold zeroReturned
    split
    · rename_i hne
      have hlt : rv < 0 := Int.lt_iff_le_and_ne.mpr ⟨h hz, hne⟩
      exact Or.inr ⟨rfl, -rv, rfl, Int.neg_pos_of_neg hlt⟩
    · exact Or.inl ⟨Int.le_refl 0, rfl⟩
  · exact told_size rv

theorem vcomInit_of_session {l : Life} (h : Balanced l)
    (hs : sessionOf l.vcom.world.vsm fd = some sid) (created : Int) :
    vcomInit created l.vcom = (l.vcom, 0) := by
  have hi : l.vcom.isVcomInit = true := by
    by_contra hn
    have hb := h.blank (h.setUp.trans (Bool.not_eq_true _ ▸ hn))
    rw [hb] at hs
    cases hs
  rw [vcomInit, if_pos hi]

theorem request_own (h : Balanced p.life) {i : Nat} (hi : p.vsm.sockidxByFd fd = some i)
    (created : Int) (fuel : Nat) (q : Request) :
    Ensures (Within fd (p.vsm.vsockets.elt i).sid) Answered Told (request created fuel p fd q) := by
  have hat : At p.vsm fd (p.vsm.vsockets.elt i).sid i := sound_at h.sound hi
  have hs : sessionOf p.vsm fd = some (p.vsm.vsockets.elt i).sid := by rw [sessionOf, hi]
  unfold request vcomEntered
  rw [if_pos hat.isVcomFd, vcomInit_of_session h hs created]
  exact ensures_bind (ensures_mono (at_request hat fuel q) fun rv hrv => told_returned hrv)

theorem epollWait_own (h : Balanced p.life) {j : Nat} (hj : p.vsm.epollidxByEpfd fd = some j)
    (hn : p.vsm.sockidxByFd fd = none) (created : Int) (events : Bool) (maxevents timeout : Int) :
    Ensures (Within fd (p.vsm.vepolls.elt j).vepIdx) Answered Told
      (epollWait created p fd events maxevents timeout) := by
  have hb := h.sound.epolls.found hj
  have hs : sessionOf p.vsm fd = some (p.vsm.vepolls.elt j).vepIdx := by
    rw [sessionOf, hn, hj]
    rfl
  have hfail : Told (failedWith einval) := Or.inr ⟨rfl, einval, rfl, by decide⟩
  have hidx : vcomSocketGetVepIdx p.vsm fd = (p.vsm.vepolls.elt j).vepIdx := by
    rw [vcomSocketGetVepIdx, hj]
    exact if_pos hb.1
  unfold epollWait vcomEntered
  refine ensures_ite (fun _ => hfail) fun _ => ensures_ite (fun _ => ?_) fun _ => hfail
  rw [vcomInit_of_session h hs created]
  exact ensures_bind (ensures_mono (stays_epollPwait hidx events maxevents timeout) fun rv _ =>
    told_size rv)

end Requests

section Descriptors

variable {x : Int} {closes : Int → Libc} {a : Act}

def Opens : Act → Int → Prop
  | .socket _ _ r _ _, x => x = r.rv ∧ r.rv ≠ -1
  | .accept _ _ _ o, x => x = o.socket.rv ∧ o.socket.rv ≠ -1
  | .accept4 _ _ _ _ o, x => x = o.socket.rv ∧ o.socket.rv ≠ -1
  | .epollCreate1 _ r _ _, x => x = r.rv ∧ r.rv ≠ -1
  | _, _ => False

theorem closeVepoll_fds (epfd : Int) (h : x ∈ (vcomSocketCloseVepoll w epfd closes).1.fds) :
    x ∈ w.fds := by
  unfold vcomSocketCloseVepoll at h
  split at h
  · exact h
  · dsimp only at h
    split at h
    · exact h
    · split at h
      · split at h
        · exact h
        · exact h
      · exact List.mem_of_mem_erase h

theorem closeEpitem_fds (i : Nat) (h : x ∈ (closeEpitem fd closes w i).fds) : x ∈ w.fds := by
  unfold closeEpitem at h
  dsimp only at h
  split at h
  · split at h
    · exact h
    · split at h
      · split at h
        · have hc := closeVepoll_fds _ h
          exact hc
        · exact h
      · exact h
  · exact h

theorem closeEpitems_fds (l : List Nat) (h : x ∈ (l.foldl (closeEpitem fd closes) w).fds) :
    x ∈ w.fds := by
  induction l generalizing w with
  | nil => exact h
  | cons i l ih => exact closeEpitem_fds i (ih h)

theorem close_fds (h : x ∈ (vcomSocketClose w fd closes).1.fds) : x ∈ w.fds := by
  unfold vcomSocketClose at h
  split at h
  · unfold vcomSocketCloseVsock at h
    split at h
    · exact h
    · dsimp only at h
      split at h
      · exact h
      · exact List.mem_of_mem_erase (closeEpitems_fds _ h)
  · split at h
    · exact closeVepoll_fds _ h
    · exact h

theorem accept_fds {addr addrLen : Bool} {flags : Int32} {o : AcceptCalls} (hf : o.Fits w)
    (h : x ∈ (vcomSocketAcceptFlags w fd addr addrLen flags o).world.fds) :
    x ∈ w.fds ∨ x = o.socket.rv ∧ o.socket.rv ≠ -1 := by
  by_cases ho : Obtains w fd flags o
  · by_cases hc : Connects flags o
    · rw [acceptFlags_made hf ho hc, acceptAnswer_world] at h
      exact (List.mem_cons.mp h).symm.imp_right fun he => ⟨he, hc.2.2.2.2⟩
    · rw [(acceptFlags_lost hf ho hc).1] at h
      exact Or.inl h
  · rw [(acceptFlags_refused ho).1] at h
    exact Or.inl h

/-- A descriptor that is open after a call was open before, or the call opened it. -/
theorem call_fds (hf : Fits w a) (h : x ∈ (call w a).1.fds) : x ∈ w.fds ∨ Opens a x := by
  cases a with
  | socket domain type r sid c =>
    by_cases ho : Opened domain type r ∧ 0 ≤ sid
    · rw [call, socket_made hf.1 ho.1 ho.2] at h
      exact (List.mem_cons.mp h).symm.imp_right fun he => ⟨he, ho.1.2⟩
    · rw [call, (socket_failed hf.1 ho).1] at h
      exact Or.inl h
  | accept fd addr addrLen o => exact accept_fds hf h
  | accept4 fd addr addrLen flags o => exact accept_fds hf h
  | epollCreate1 flags r vepIdx c =>
    obtain hc | ⟨h0, -, -, hc⟩ := @epollCreate1_cases w vepIdx flags r c hf.1
    · rw [call, hc.1] at h
      exact Or.inl h
    · rw [call, hc] at h
      exact (List.mem_cons.mp h).symm.imp_right fun he => ⟨he, by omega⟩
  | epollCtl epfd op fd event rv => exact Or.inl h
  | close fd closes => exact Or.inl (close_fds h)

theorem fresh_notMem {r : Libc} (hf : Fresh p r) (hr : r.rv ≠ -1) :
    0 ≤ r.rv ∧ r.rv ∉ p.life.vcom.world.fds ∧ r.rv ∉ p.kernel := by
  obtain ⟨h0, hn⟩ := opens_new hf hr
  exact ⟨h0, fun hm => hn (List.mem_append_left _ hm), fun hm => hn (List.mem_append_right _ hm)⟩

theorem opens_notMem (hf : FreshAct p a) (hx : Opens a x) : x ∉ p.kernel := by
  cases a with
  | epollCtl => exact hx.elim
  | close => exact hx.elim
  | _ =>
    obtain ⟨rfl, hr⟩ := hx
    exact (fresh_notMem hf hr).2.2

theorem init_fds (created : Int) (v : Vcom) :
    (vcomInit created v).1.world.fds = v.world.fds := by
  unfold vcomInit vcomSocketMainInitOnce
  split
  · rfl
  · split
    · rfl
    · dsimp only
      split <;> rfl

theorem live_fds {l : Life} (hl : live p.life (.call created a) = some l) (hf : FreshAct p a)
    (h : x ∈ l.vcom.world.fds) : x ∈ p.life.vcom.world.fds ∨ x ∉ p.kernel := by
  have hi := init_fds created p.life.vcom
  rw [live] at hl
  dsimp only at hl
  generalize vcomInit created p.life.vcom = v at hi hl
  by_cases hv : v.2 ≠ 0
  · rw [if_pos hv] at hl
    obtain rfl := Option.some.inj hl
    rw [← hi]
    exact Or.inl h
  · rw [if_neg hv] at hl
    obtain ⟨w, hw, rfl⟩ := Option.map_eq_some_iff.mp hl
    obtain ⟨hfits, rfl⟩ := step_eq_some.mp hw
    rw [← hi]
    exact (call_fds hfits h).imp_right fun ho => opens_notMem hf ho

end Descriptors

structure Apart (p : Process) : Prop where
  balanced : Balanced p.life
  kernel : p.kernel.Nodup
  apart : ∀ fd ∈ p.kernel, fd ∉ p.life.vcom.world.fds

theorem apart_launched : Apart launched :=
  ⟨balanced_born, List.nodup_nil, fun _ h => absurd h List.not_mem_nil⟩

theorem apart_enter (h : Apart p) {a : Act} (he : enter p created a = some p') : Apart p' := by
  unfold enter at he
  rw [Option.ite_none_right_eq_some] at he
  obtain ⟨hf, he⟩ := he
  obtain ⟨l, hl, rfl⟩ := Option.map_eq_some_iff.mp he
  refine ⟨balanced_live h.balanced hl, h.kernel, fun fd hk hw => ?_⟩
  obtain hold | hnew := live_fds hl hf hw
  · exact h.apart fd hk hold
  · exact hnew hk

theorem apart_passOpen (h : Apart p) {r : Libc} (he : passOpen p r = some p') : Apart p' := by
  unfold passOpen at he
  rw [Option.ite_none_right_eq_some] at he
  obtain ⟨hf, he⟩ := he
  obtain rfl := Option.some.inj he
  by_cases hr : r.rv = -1
  · rwa [if_pos hr]
  · obtain ⟨-, hw, hk⟩ := fresh_notMem hf hr
    rw [if_neg hr]
    refine ⟨h.balanced, List.nodup_cons.mpr ⟨hk, h.kernel⟩, fun fd hfd => ?_⟩
    obtain rfl | hfd := List.mem_cons.mp hfd
    · exact hw
    · exact h.apart fd hfd

theorem apart_initOnly (h : Apart p) (created : Int) : Apart (initOnly p created) := by
  refine ⟨(h.balanced.init created).1, h.kernel, fun fd hk hw => ?_⟩
  have hi := init_fds created p.life.vcom
  exact h.apart fd hk (hi ▸ hw)

theorem apart_act (h : Apart p) {a : App} (ha : act p a = some p') : Apart p' := by
  have hconverse : ∀ {m : Comp Under Answer Returned} {answers},
      converse p m answers = some p' → Apart p' := by
    intro m answers hc
    obtain ⟨_, -, rfl⟩ := Option.map_eq_some_iff.mp hc
    exact h
  cases a with
  | gets fd =>
    obtain ⟨⟨-, hn⟩, he⟩ := Option.ite_none_right_eq_some.mp ha
    obtain rfl := Option.some.inj he
    rw [List.mem_append, not_or] at hn
    refine ⟨h.balanced, List.nodup_cons.mpr ⟨hn.2, h.kernel⟩, fun x hx => ?_⟩
    obtain rfl | hx := List.mem_cons.mp hx
    · exact hn.1
    · exact h.apart x hx
  | socket created domain type r sid c kernel =>
    rw [act] at ha
    split at ha
    · exact apart_enter h ha
    · exact apart_passOpen h ha
  | accept created fd addr addrLen o kernel =>
    rw [act] at ha
    split at ha
    · exact apart_enter h ha
    · exact apart_passOpen h ha
  | accept4 created fd addr addrLen flags o kernel =>
    rw [act] at ha
    split at ha
    · exact apart_enter h ha
    · exact apart_passOpen h ha
  | epollCreate created size r vepIdx c =>
    rw [act] at ha
    split at ha
    · obtain rfl := Option.some.inj ha
      exact apart_initOnly h created
    · exact apart_enter h ha
  | epollCreate1 created flags r vepIdx c => exact apart_enter h ha
  | epollCtl created epfd op fd event rv =>
    rw [act] at ha
    split at ha
    · split at ha
      · exact apart_enter h ha
      · obtain rfl := Option.some.inj ha
        exact apart_initOnly h created
    · obtain rfl := Option.some.inj ha
      exact h
  | close created fd closes =>
    rw [act] at ha
    split at ha
    · exact apart_enter h ha
    · obtain rfl := Option.some.inj ha
      exact ⟨h.balanced, h.kernel.erase fd, fun x hx => h.apart x (List.mem_of_mem_erase hx)⟩
  | request created fuel fd q answers => exact hconverse ha
  | epollWait created epfd events maxevents timeout answers => exact hconverse ha
  | unload o =>
    rw [act] at ha
    obtain ⟨l, hl, rfl⟩ := Option.map_eq_some_iff.mp ha
    refine ⟨balanced_live h.balanced hl, h.kernel, fun fd _ hw => ?_⟩
    obtain rfl := Option.some.inj hl
    have hw : fd ∈ (vcomDestroy o p.life.vcom).1.world.fds := hw
    rw [(tornDown h.balanced o).noFds] at hw
    cases hw

/-- The session of a descriptor is open, no other descriptor has it, and none has lost
it. -/
structure Owns (p : Process) (fd sid : Int) : Prop where
  session : sessionOf p.vsm fd = some sid
  isOpen : sid ∈ p.life.vcom.world.sessions
  only : ∀ fd', sessionOf p.vsm fd' = some sid → fd' = fd
  kept : sid ∉ p.life.lost

theorem Apart.owns (h : Apart p) (hs : sessionOf p.vsm fd = some sid) : Owns p fd sid :=
  ⟨hs, sessionOf_isOpen h.balanced.sound h.balanced.accounted hs,
    fun _ hs' => sessionOf_injective h.balanced.sound h.balanced.accounted hs hs',
    sessionOf_lost h.balanced.sound h.balanced.accounted hs⟩

/-- A conversation only makes calls on one descriptor and on the session that it owns,
and the program is told the result by the rules. -/
def Keeps (p : Process) (fd : Int) (m : Comp Under Answer Returned) : Prop :=
  ∃ sid, Owns p fd sid ∧ ∀ answers r log, talk m answers = some (r, log) →
    (∀ x ∈ log, Answered x.1 x.2) → Told r ∧ ∀ x ∈ log, Within fd sid x.1

/-- What is read, written, asked or waited for over one descriptor concerns no other: the kernel
gets the calls on its own descriptors as they are, and a socket or an epoll instance is served
through its own descriptor and session. A descriptor of the kernel is never waited for and never
in an epoll instance, and its end leaves the library as it is. -/
structure Isolated (p : Process) : Prop where
  apart : (p.life.vcom.world.fds ++ p.kernel).Nodup
  passed : ∀ fd ∈ p.kernel, ∀ created fuel q answers r log,
    talk (request created fuel p fd q) answers = some (r, log) →
      ∃ a, log = [(.libc fd (.same q), a)] ∧ r = ⟨a.rv, none⟩
  requests : ∀ fd, vcomSocketIsVcomFd p.vsm fd = true → ∀ created fuel q,
    Keeps p fd (request created fuel p fd q)
  waits : ∀ epfd, vcomSocketIsVcomEpfd p.vsm epfd = true → ∀ created events maxevents timeout,
    Keeps p epfd (epollWait created p epfd events maxevents timeout)
  refused : ∀ epfd ∈ p.kernel, ∀ created events maxevents timeout,
    epollWait created p epfd events maxevents timeout = pure (failedWith einval)
  unedited : ∀ epfd fd, epfd ∈ p.kernel ∨ fd ∈ p.kernel → ∀ created op event rv,
    act p (.epollCtl created epfd op fd event rv) = some p
  closed : ∀ fd ∈ p.kernel, ∀ created closes,
    act p (.close created fd closes) = some { p with kernel := p.kernel.erase fd }

theorem Apart.keeps (h : Apart p) {m : Comp Under Answer Returned}
    (hs : sessionOf p.vsm fd = some sid) (hm : Ensures (Within fd sid) Answered Told m) :
    Keeps p fd m :=
  ⟨sid, h.owns hs, fun _ _ _ ht ha => talk_ensured hm ht ha⟩

theorem isVcomEpfd_some {s : VcomSocketMain} {epfd : Int} (h : vcomSocketIsVcomEpfd s epfd = true) :
    ∃ j, s.epollidxByEpfd epfd = some j := by
  unfold vcomSocketIsVcomEpfd at h
  cases hj : s.epollidxByEpfd epfd with
  | none =>
    rw [hj] at h
    cases h
  | some j => exact ⟨j, rfl⟩

theorem Apart.notVcomFd (h : Apart p) (hk : fd ∈ p.kernel) : ¬ vcomSocketIsVcomFd p.vsm fd = true := by
  rw [vcomSocketIsVcomFd, Process.vsm, h.balanced.sound.sock_free (h.apart fd hk)]
  exact Bool.false_ne_true

theorem Apart.notVcomEpfd (h : Apart p) (hk : fd ∈ p.kernel) :
    ¬ vcomSocketIsVcomEpfd p.vsm fd = true := by
  rw [vcomSocketIsVcomEpfd, Process.vsm, h.balanced.sound.epoll_free (h.apart fd hk)]
  exact Bool.false_ne_true

theorem Apart.isolated (h : Apart p) : Isolated p := by
  have hsound := h.balanced.sound
  refine ⟨?_, ?_, ?_, ?_, ?_, ?_, ?_⟩
  · exact List.nodup_append.mpr ⟨hsound.fds.nodup, h.kernel, fun x hx y hy he =>
      h.apart y hy (he ▸ hx)⟩
  · intro fd hk created fuel q answers r log ht
    rw [request, if_neg (h.notVcomFd hk)] at ht
    cases answers with
    | nil => cases ht
    | cons a as =>
      cases ht
      exact ⟨a, rfl, rfl⟩
  · intro fd hv created fuel q
    obtain ⟨i, hi⟩ := isVcomFd_some hv
    have hs : sessionOf p.vsm fd = some (p.vsm.vsockets.elt i).sid := by rw [sessionOf, hi]
    exact h.keeps hs (request_own h.balanced hi created fuel q)
  · intro epfd hv created events maxevents timeout
    obtain ⟨j, hj⟩ := isVcomEpfd_some hv
    have hn : p.vsm.sockidxByFd epfd = none := by
      by_contra hne
      obtain ⟨i, hi⟩ := Option.ne_none_iff_exists'.mp hne
      have hd := List.disjoint_of_nodup_append (hsound.fds.perm.nodup_iff.mp hsound.fds.nodup)
      exact hd (mem_column.mpr ⟨i, (hsound.socks.hashed epfd i).mp hi⟩)
        (mem_column.mpr ⟨j, (hsound.epolls.hashed epfd j).mp hj⟩)
    have hs : sessionOf p.vsm epfd = some (p.vsm.vepolls.elt j).vepIdx := by
      rw [sessionOf, hn, hj]
      rfl
    exact h.keeps hs (epollWait_own h.balanced hj hn created events maxevents timeout)
  · intro epfd hk created events maxevents timeout
    rw [epollWait, if_neg (h.notVcomEpfd hk), ite_self]
  · intro epfd fd hk created op event rv
    have hnot : ¬ (vcomSocketIsVcomEpfd p.vsm epfd = true ∧ vcomSocketIsVcomFd p.vsm fd = true) :=
      fun hv => hk.elim (fun he => h.notVcomEpfd he hv.1) fun hf => h.notVcomFd hf hv.2
    rw [act, if_neg hnot]
  · intro fd hk created closes
    rw [act, if_neg (not_or.mpr ⟨h.notVcomFd hk, h.notVcomEpfd hk⟩)]

/-- Whatever a program does with its sockets, they stay isolated. -/
theorem run_serves_own {es : List App} (hr : run act launched es = some p) : Isolated p :=
  (invariant (P := Apart) (fun _ _ _ hs ht => apart_act hs ht) apart_launched hr).isolated

def mixed : List App :=
  [.socket 0 afInet sockStream ⟨3, 0⟩ 7 ⟨0, 0⟩ ⟨0, 0⟩,
    .socket 0 1 sockStream ⟨0, 0⟩ 0 ⟨0, 0⟩ ⟨4, 0⟩,
    .request 0 2 3 (.read true 8) [⟨0, 0, 0⟩, ⟨-11, 0, 0⟩, ⟨8, 0, 0⟩],
    .request 0 2 4 (.read true 8) [⟨5, 0, 0⟩]]

theorem run_serves_own_sample : ∃ p, run act launched mixed = some p ∧ Isolated p ∧
    p.kernel = [4] ∧ sessionOf p.vsm 3 = some 7 := by
  obtain ⟨p, hr⟩ : ∃ p, run act launched mixed = some p := ⟨_, rfl⟩
  refine ⟨p, hr, run_serves_own hr, ?_, ?_⟩
  · obtain rfl := Option.some.inj hr
    rfl
  · obtain rfl := Option.some.inj hr
    rfl

end Vppsb.VcomPreload
