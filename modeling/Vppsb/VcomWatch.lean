import Vppsb.VcomPolling
import Vppsb.VcomPreload

namespace Vppsb.VcomWatch

open Vppsb.StepRun Vppsb.PoolIndex Vppsb.FdSets
open Vppsb.VcomSelect (Sockets isVcomSocketFd vcomSocketGetSid vcomSocketFds2SidFds
  vcomSocketSelect fdSetSize Call)
open Vppsb.VcomRounds (sidOf Bound Reduces SomeSet Watchable readySids collectSids_beyond
  vcomSocketSelect_spec)
open Vppsb.VcomPolling (HasSids vcomPart)
open Vppsb.VcomSockets Vppsb.VcomCalls Vppsb.VcomEdits Vppsb.VcomTeardown Vppsb.VcomPreload

def socketsOf (s : VcomSocketMain) : Sockets := fun fd =>
  (s.sockidxByFd fd).map fun i =>
    let vsock := s.vsockets.elt i
    ⟨vsock.type, if vsock.sid = invalidSessionId then none else some vsock.sid.toNat⟩

variable {p : Process} {n fd : Nat} {fds : SelectSets}

theorem isVcomSocketFd_socketsOf (s : VcomSocketMain) (fd : Nat) :
    isVcomSocketFd (socketsOf s) fd = vcomSocketIsVcomFd s fd := by
  rw [isVcomSocketFd, socketsOf, vcomSocketIsVcomFd]
  cases s.sockidxByFd fd with
  | none => rfl
  | some i => rfl

theorem getSid_socketsOf (h : Apart p) (hv : isVcomSocketFd (socketsOf p.vsm) fd = true) :
    ∃ sid : Nat, vcomSocketGetSid (socketsOf p.vsm) fd = some sid ∧ Owns p fd sid := by
  rw [isVcomSocketFd_socketsOf] at hv
  obtain ⟨i, hi⟩ := isVcomFd_some hv
  obtain ⟨ht, h0⟩ := h.balanced.sound.socks.found hi
  have hs : sessionOf p.vsm fd = some (p.vsm.vsockets.elt i).sid := by rw [sessionOf, hi]
  have hne : (p.vsm.vsockets.elt i).sid ≠ invalidSessionId := by
    have h0 : 0 ≤ (p.vsm.vsockets.elt i).sid := h0
    rw [invalidSessionId]
    omega
  have hnat : ((p.vsm.vsockets.elt i).sid.toNat : Int) = (p.vsm.vsockets.elt i).sid :=
    Int.toNat_of_nonneg h0
  refine ⟨(p.vsm.vsockets.elt i).sid.toNat, ?_, ?_⟩
  · rw [vcomSocketGetSid, socketsOf, hi]
    dsimp only [Option.map_some]
    rw [if_neg hne]
    exact if_pos ht
  · rw [hnat]
    exact h.owns hs

/-- The sets hold descriptors of sockets below `n`, and one of them is there. -/
structure Watched (p : Process) (n : Nat) (fds : SelectSets) : Prop where
  below : Below n fds
  isVcom : ∀ k fd, isSet fds k fd = true → isVcomSocketFd (socketsOf p.vsm) fd = true
  some : SomeSet fds

/-- Each session of the sets has a bit in an `fd_set`. -/
def HaveBits (p : Process) (fds : SelectSets) : Prop :=
  ∀ k fd (sid : Nat), isSet fds k fd = true → Owns p fd sid → sid < fdSetSize

theorem watchable (h : Apart p) (hb : HaveBits p fds)
    (hv : ∀ k fd, isSet fds k fd = true → isVcomSocketFd (socketsOf p.vsm) fd = true) :
    Watchable (socketsOf p.vsm) fds := by
  intro k fd hs
  obtain ⟨sid, hsid, ho⟩ := getSid_socketsOf h (hv k fd hs)
  exact ⟨sid, hsid, hb k fd sid hs ho⟩

theorem Watched.bound (hw : Watched p n fds) (hb : HaveBits p fds) (h : Apart p) :
    Bound (socketsOf p.vsm) n fds := ⟨hw.below, watchable h hb hw.isVcom⟩

def ReadyFor (p : Process) (ready : FdKind → Nat → Bool) (k : FdKind) (fd : Nat) : Prop :=
  ∃ sid : Nat, Owns p fd sid ∧ ready k sid = true

theorem isSet_readySids (h : Apart p) (hw : Watched p n fds) (ready : FdKind → Nat → Bool)
    (k : FdKind) (fd : Nat) :
    isSet (readySids (socketsOf p.vsm) fds ready) k fd = true ↔
      isSet fds k fd = true ∧ ReadyFor p ready k fd := by
  rw [readySids, isSet_restrict, Bool.and_eq_true]
  refine and_congr_right fun hs => ?_
  obtain ⟨sid, hsid, ho⟩ := getSid_socketsOf h (hw.isVcom k fd hs)
  rw [sidOf, hsid]
  constructor
  · exact fun hr => ⟨sid, ho, hr⟩
  · rintro ⟨sid', ho', hr⟩
    have he : sid' = sid := Int.ofNat.inj (Option.some.inj (ho'.session.symm.trans ho.session))
    rwa [he] at hr

/-- What a program gets from `select` on its sockets. -/
structure Watches (p : Process) : Prop where
  hasSids : ∀ c : Call, c.sockets = socketsOf p.vsm → HaveBits p (vcomPart c) → HasSids c
  kernel : ∀ fd : Nat, (fd : Int) ∈ p.kernel → isVcomSocketFd (socketsOf p.vsm) fd = false
  ready : ∀ n fds select ready, Watched p n fds → HaveBits p fds → Reduces select ready →
    (∃ k fd, isSet fds k fd = true ∧ ReadyFor p ready k fd) → ∃ fds',
      vcomSocketSelect (socketsOf p.vsm) select n fds = some ((bitCount n fds' : Int), fds') ∧
        ∀ k fd, isSet fds' k fd = true ↔ isSet fds k fd = true ∧ ReadyFor p ready k fd
  idle : ∀ n fds select ready, Watched p n fds → HaveBits p fds → Reduces select ready →
    (¬ ∃ k fd, isSet fds k fd = true ∧ ReadyFor p ready k fd) →
      vcomSocketSelect (socketsOf p.vsm) select n fds = some (0, fds)
  beyond : ∀ n fds select, Watched p n fds → ¬ HaveBits p fds →
    vcomSocketSelect (socketsOf p.vsm) select n fds = none
  apart : ∀ sid fd fd', Owns p fd sid → Owns p fd' sid → fd = fd'

theorem Watched.beyond (hw : Watched p n fds) (h : Apart p) (hno : ¬ HaveBits p fds)
    (select : Nat → SelectSets → Int × SelectSets) :
    vcomSocketSelect (socketsOf p.vsm) select n fds = none := by
  have hsids : ∀ k fd, isSet fds k fd = true → vcomSocketGetSid (socketsOf p.vsm) fd ≠ none := by
    intro k fd hs
    obtain ⟨sid, hsid, -⟩ := getSid_socketsOf h (hw.isVcom k fd hs)
    exact Option.ne_none_iff_exists'.mpr ⟨sid, hsid⟩
  simp only [HaveBits, not_forall, Nat.not_lt] at hno
  obtain ⟨k, fd, sid', hs, ho', hge⟩ := hno
  obtain ⟨sid, hsid, ho⟩ := getSid_socketsOf h (hw.isVcom k fd hs)
  obtain rfl : sid' = sid := Int.ofNat.inj (Option.some.inj (ho'.session.symm.trans ho.session))
  have hcollect : vcomSocketFds2SidFds (socketsOf p.vsm) (zeroSets fds) n fds = none :=
    collectSids_beyond hsids (fun k => present_zeroSets fds k)
      (mem_fdLoop.mpr (hw.below k fd hs)) hs hsid hge
  rw [vcomSocketSelect, hcollect]

theorem watches_of_apart (h : Apart p) : Watches p := by
  refine ⟨?_, ?_, ?_, ?_, fun n fds select hw hno => hw.beyond h hno select,
    fun sid fd fd' ho ho' => ho'.only fd ho.session⟩
  · intro c hc hb
    rw [HasSids, hc]
    refine watchable h hb fun k fd hs => ?_
    rw [vcomPart, isSet_restrict, Bool.and_eq_true, Bool.and_eq_true, hc] at hs
    exact hs.2.2
  · intro fd hk
    rw [isVcomSocketFd_socketsOf, vcomSocketIsVcomFd, Process.vsm,
      h.balanced.sound.sock_free (h.apart fd hk)]
  · intro n fds select ready hw hb hr hex
    refine ⟨readySids (socketsOf p.vsm) fds ready, ?_, isSet_readySids h hw ready⟩
    obtain ⟨k, fd, hs⟩ := hex
    exact (vcomSocketSelect_spec (hw.bound hb h) hr).1
      ⟨k, fd, (isSet_readySids h hw ready k fd).mpr hs⟩
  · intro n fds select ready hw hb hr hno
    apply (vcomSocketSelect_spec (hw.bound hb h) hr).2 hw.some
    rintro ⟨k, fd, hs⟩
    exact hno ⟨k, fd, (isSet_readySids h hw ready k fd).mp hs⟩

/-- In every run `select` tells of each socket whether its own session is ready, as far as the
sessions have bits. -/
theorem run_watches {es : List App} (hr : run act launched es = some p) : Watches p :=
  watches_of_apart (invariant (P := Apart) (fun _ _ _ hs ht => apart_act hs ht) apart_launched hr)

def twoSockets : List App :=
  [.socket 0 afInet sockStream ⟨3, 0⟩ 7 ⟨0, 0⟩ ⟨0, 0⟩, .socket 0 afInet sockStream ⟨4, 0⟩ 2 ⟨0, 0⟩ ⟨0, 0⟩]

theorem run_watches_sample : ∃ p, run act launched twoSockets = some p ∧ Watches p ∧
    vcomSocketGetSid (socketsOf p.vsm) 3 = some 7 ∧ vcomSocketGetSid (socketsOf p.vsm) 4 = some 2 := by
  obtain ⟨p, hr⟩ : ∃ p, run act launched twoSockets = some p := ⟨_, rfl⟩
  refine ⟨p, hr, run_watches hr, ?_, ?_⟩
  · obtain rfl := Option.some.inj hr
    rfl
  · obtain rfl := Option.some.inj hr
    rfl

end Vppsb.VcomWatch
