import Vppsb.VcomSets

namespace Vppsb.VcomPselect

open Vppsb.FdSets Vppsb.VcomSelect Vppsb.VcomSets
open Vppsb.VcomRounds (countFds_count)

/-- `FD_CLR` of a descriptor of vcom in the set that the pass looks at. -/
def clearVcom (sockets : Sockets) (s : SelectSets) (x : FdKind × Nat) : SelectSets :=
  if isSet s x.1 x.2 then
    if isVcomSocketFd sockets x.2 then setBit s x.1 x.2 false else s
  else s

/-- Returns the number of the bits that are left, the new `nfds` and the sets. -/
def vcomFdClear (sockets : Sockets) (nfds : Int) (s : SelectSets) : Nat × Nat × SelectSets :=
  let s := (fdLoop nfds.toNat).foldl (clearVcom sockets) s
  let m := countFds nfds.toNat s
  (m.2, nfdsOf m.1, s)

/-- The passes of the loop of `vcom_fd_set`, which leaves out the except set. -/
def readWriteLoop (n : Nat) : List (FdKind × Nat) :=
  (List.range n).flatMap (fun fd => [(.read, fd), (.write, fd)])

/-- `FD_SET` of a descriptor of vcom that stands in the saved set. -/
def restoreVcom (sockets : Sockets) (saved s : SelectSets) (x : FdKind × Nat) : SelectSets :=
  if present s x.1 && isSet saved x.1 x.2 then
    if isVcomSocketFd sockets x.2 then setBit s x.1 x.2 true else s
  else s

def vcomFdSet (sockets : Sockets) (nfds : Int) (s saved : SelectSets) : Nat × Nat × SelectSets :=
  let s := (readWriteLoop nfds.toNat).foldl (restoreVcom sockets saved) s
  let m := countFds nfds.toNat s
  (m.2, nfdsOf m.1, s)

/-- The local copies: an empty set where the pointer is null. -/
def savedSets (s : SelectSets) : SelectSets := fun k => some ((s k).getD (fun _ => false))

/-- `if (F) *F = saved_F` for each of the three sets. -/
def copyBack (saved s : SelectSets) : SelectSets :=
  fun k => (s k).map (fun f => (saved k).getD f)

variable {Sigset : Type}

abbrev LibcPselect (Sigset : Type) :=
  Nat → SelectSets → Option Timespec → Option Sigset → Int × SelectSets

structure PselectCall (Sigset : Type) where
  sockets : Sockets
  nfds : Int
  sets : SelectSets
  timeout : Option Timespec
  sigmask : Option Sigset

structure PselectResult where
  rv : Int
  errno : Option Int
  sets : SelectSets

def pselect (libcPselect : LibcPselect Sigset) (c : PselectCall Sigset) : PselectResult :=
  if c.nfds < 0 then ⟨-1, some einval, c.sets⟩
  else if c.timeout.any (fun ts => decide (ts.sec < 0) || decide (ts.nsec < 0)) then
    ⟨-1, some einval, c.sets⟩
  else
    let saved := savedSets c.sets
    let (_, newNfds, sets) := vcomFdClear c.sockets c.nfds c.sets
    let r := if newNfds ≠ 0 then libcPselect newNfds sets c.timeout c.sigmask else (-2, sets)
    if newNfds ≠ 0 ∧ r.1 = -1 then ⟨r.1, none, copyBack saved r.2⟩
    else if (newNfds ≠ 0 ∧ r.1 ≠ -1) ∨ r.1 = -2 then
      let (nfd, _, sets) := vcomFdSet c.sockets c.nfds r.2 saved
      ⟨nfd, none, sets⟩
    else ⟨r.1, none, r.2⟩

section Loops

variable (sockets : Sockets)

def kernelSets (n : Nat) (s : SelectSets) : SelectSets :=
  restrict s (fun _ fd => !(decide (fd < n) && isVcomSocketFd sockets fd))

@[simp] theorem present_clearVcom (s : SelectSets) (x : FdKind × Nat) (k : FdKind) :
    present (clearVcom sockets s x) k = present s k := by
  rw [clearVcom]
  split
  · split
    · exact present_setBit ..
    · rfl
  · rfl

theorem isSet_clearVcom (s : SelectSets) (x : FdKind × Nat) (k : FdKind) (fd : Nat) :
    isSet (clearVcom sockets s x) k fd = true ↔
      isSet s k fd = true ∧ ¬ (x = (k, fd) ∧ isVcomSocketFd sockets fd = true) := by
  obtain ⟨j, i⟩ := x
  rw [clearVcom, Prod.mk.injEq]
  by_cases hx : j = k ∧ i = fd
  · obtain ⟨rfl, rfl⟩ := hx
    cases hs : isSet s j i <;> cases hv : isVcomSocketFd sockets i <;> simp [hs, isSet_setBit]
  · have hx' : ¬ (k = j ∧ fd = i) := fun h => hx ⟨h.1.symm, h.2.symm⟩
    split
    · split
      · rw [isSet_setBit, if_neg hx']
        simp [hx]
      · simp [hx]
    · simp [hx]

theorem clearLoop (xs : List (FdKind × Nat)) (s : SelectSets) :
    (∀ k, present (xs.foldl (clearVcom sockets) s) k = present s k) ∧
    ∀ k fd, isSet (xs.foldl (clearVcom sockets) s) k fd = true ↔
      isSet s k fd = true ∧ ¬ ((k, fd) ∈ xs ∧ isVcomSocketFd sockets fd = true) := by
  induction xs generalizing s with
  | nil => simp
  | cons x xs ih =>
    obtain ⟨hp, hb⟩ := ih (clearVcom sockets s x)
    rw [List.foldl_cons]
    constructor
    · intro k
      rw [hp, present_clearVcom]
    · intro k fd
      rw [hb, isSet_clearVcom, List.mem_cons]
      grind

theorem clearLoop_eq (n : Nat) (s : SelectSets) :
    (fdLoop n).foldl (clearVcom sockets) s = kernelSets sockets n s := by
  obtain ⟨hp, hb⟩ := clearLoop sockets (fdLoop n) s
  apply ext
  · intro k
    rw [hp, kernelSets, present_restrict]
  · intro k fd
    rw [Bool.eq_iff_iff, hb, mem_fdLoop, kernelSets, isSet_restrict, Bool.and_eq_true]
    apply and_congr_right
    intro _
    by_cases hlt : fd < n <;> simp [hlt]

theorem mem_readWriteLoop {n fd : Nat} {k : FdKind} :
    (k, fd) ∈ readWriteLoop n ↔ fd < n ∧ k ≠ .except := by
  cases k <;> simp [readWriteLoop]

theorem isSet_savedSets (s : SelectSets) (k : FdKind) (fd : Nat) :
    isSet (savedSets s) k fd = isSet s k fd := by
  rw [isSet, savedSets, isSet]
  cases s k <;> rfl

@[simp] theorem present_restoreVcom (saved s : SelectSets) (x : FdKind × Nat) (k : FdKind) :
    present (restoreVcom sockets saved s x) k = present s k := by
  rw [restoreVcom]
  split
  · split
    · exact present_setBit ..
    · rfl
  · rfl

theorem isSet_restoreVcom (saved s : SelectSets) (x : FdKind × Nat) (k : FdKind) (fd : Nat) :
    isSet (restoreVcom sockets saved s x) k fd = true ↔ isSet s k fd = true ∨
      x = (k, fd) ∧ present s k = true ∧ isSet saved k fd = true ∧
        isVcomSocketFd sockets fd = true := by
  obtain ⟨j, i⟩ := x
  rw [restoreVcom, Prod.mk.injEq]
  by_cases hx : j = k ∧ i = fd
  · obtain ⟨rfl, rfl⟩ := hx
    cases hp : present s j <;> cases hs : isSet saved j i <;>
      cases hv : isVcomSocketFd sockets i <;> simp [hp, isSet_setBit]
  · have hx' : ¬ (k = j ∧ fd = i) := fun h => hx ⟨h.1.symm, h.2.symm⟩
    split
    · split
      · rw [isSet_setBit, if_neg hx']
        simp [hx]
      · simp [hx]
    · simp [hx]

theorem restoreLoop (saved : SelectSets) (xs : List (FdKind × Nat)) (s : SelectSets) :
    (∀ k, present (xs.foldl (restoreVcom sockets saved) s) k = present s k) ∧
    ∀ k fd, isSet (xs.foldl (restoreVcom sockets saved) s) k fd = true ↔
      isSet s k fd = true ∨ (k, fd) ∈ xs ∧ present s k = true ∧ isSet saved k fd = true ∧
        isVcomSocketFd sockets fd = true := by
  induction xs generalizing s with
  | nil => simp
  | cons x xs ih =>
    obtain ⟨hp, hb⟩ := ih (restoreVcom sockets saved s x)
    rw [List.foldl_cons]
    constructor
    · intro k
      rw [hp, present_restoreVcom]
    · intro k fd
      rw [hb, isSet_restoreVcom, List.mem_cons, present_restoreVcom]
      grind

theorem copyBack_savedSets {s s' : SelectSets} (hp : ∀ k, present s' k = present s k) :
    copyBack (savedSets s) s' = s := by
  funext k
  have hk := hp k
  rw [present, present] at hk
  rw [copyBack, savedSets]
  cases hs : s k <;> cases hs' : s' k <;> simp_all

end Loops

/-- A call answers for the sets that it was given: on success with some of their
bits. -/
def Answers (libcPselect : LibcPselect Sigset) : Prop :=
  ∀ n s timeout sigmask, (∀ k, present (libcPselect n s timeout sigmask).2 k = present s k) ∧
    ((libcPselect n s timeout sigmask).1 ≠ -1 →
      ∀ k fd, isSet (libcPselect n s timeout sigmask).2 k fd = true → isSet s k fd = true)

/-- The sets after a call that found them as `entry`, when `libc_pselect` has
left them as `left`. -/
structure Ready (sockets : Sockets) (n : Nat) (entry left : SelectSets) (r : PselectResult) :
    Prop where
  present : ∀ k, present r.sets k = present entry k
  kernel : ∀ k fd, fd < n → isSet left k fd = true →
    isSet entry k fd = true ∧ isVcomSocketFd sockets fd = false
  ready : ∀ k fd, fd < n → k ≠ .except → (isSet r.sets k fd = true ↔
    isSet left k fd = true ∨ isSet entry k fd = true ∧ isVcomSocketFd sockets fd = true)
  except : ∀ fd, fd < n → isSet r.sets .except fd = isSet left .except fd
  above : ∀ k fd, n ≤ fd → isSet r.sets k fd = isSet left k fd
  count : r.rv = bitCount n r.sets

section Effect

variable {sockets : Sockets} {n : Nat} {entry left : SelectSets}

theorem isSet_kernelSets {k : FdKind} {fd : Nat} : isSet (kernelSets sockets n entry) k fd = true ↔
    isSet entry k fd = true ∧ (fd < n → isVcomSocketFd sockets fd = false) := by
  rw [kernelSets, isSet_restrict, Bool.and_eq_true]
  by_cases hlt : fd < n <;> simp [hlt]

theorem vcomFdSet_ready {nfds : Int} (hp : ∀ k, present left k = present entry k)
    (hsub : ∀ k fd, isSet left k fd = true →
      isSet (kernelSets sockets nfds.toNat entry) k fd = true) :
    Ready sockets nfds.toNat entry left
      ⟨(vcomFdSet sockets nfds left (savedSets entry)).1, none,
        (vcomFdSet sockets nfds left (savedSets entry)).2.2⟩ := by
  obtain ⟨hpres, hbits⟩ :=
    restoreLoop sockets (savedSets entry) (readWriteLoop nfds.toNat) left
  constructor
  · intro k
    rw [← hp]
    exact hpres k
  · intro k fd hlt hs
    obtain ⟨he, hv⟩ := isSet_kernelSets.mp (hsub k fd hs)
    exact ⟨he, hv hlt⟩
  · intro k fd hlt hk
    simp only [vcomFdSet]
    rw [hbits, mem_readWriteLoop, isSet_savedSets, hp]
    constructor
    · rintro (h | ⟨_, _, hs, hv⟩)
      · exact Or.inl h
      · exact Or.inr ⟨hs, hv⟩
    · rintro (h | ⟨hs, hv⟩)
      · exact Or.inl h
      · exact Or.inr ⟨⟨hlt, hk⟩, isSet_le_present hs, hs, hv⟩
  · intro fd _
    simp only [vcomFdSet]
    rw [Bool.eq_iff_iff, hbits, mem_readWriteLoop]
    simp
  · intro k fd hge
    simp only [vcomFdSet]
    rw [Bool.eq_iff_iff, hbits, mem_readWriteLoop]
    simp [Nat.not_lt.mpr hge]
  · simp only [vcomFdSet]
    rw [countFds_count]

end Effect

def Rejected (c : PselectCall Sigset) : Prop :=
  c.nfds < 0 ∨ ∃ ts, c.timeout = some ts ∧ (ts.sec < 0 ∨ ts.nsec < 0)

section Calls

variable {libcPselect : LibcPselect Sigset} {c : PselectCall Sigset}

theorem timeout_negative (timeout : Option Timespec) :
    timeout.any (fun ts => decide (ts.sec < 0) || decide (ts.nsec < 0)) = true ↔
      ∃ ts, timeout = some ts ∧ (ts.sec < 0 ∨ ts.nsec < 0) := by
  cases timeout with
  | none => simp
  | some ts => simp

theorem pselect_rejected (hrej : Rejected c) :
    pselect libcPselect c = ⟨-1, some einval, c.sets⟩ := by
  obtain hn | ht := hrej
  · rw [pselect, if_pos hn]
  · rw [pselect, if_pos ((timeout_negative _).mpr ht), ite_self]

/-- What a call that is not rejected hands to `libc_pselect`. -/
theorem vcomFdClear_eq (c : PselectCall Sigset) : vcomFdClear c.sockets c.nfds c.sets =
    ((countFds c.nfds.toNat (kernelSets c.sockets c.nfds.toNat c.sets)).2,
      nfdsOf (countFds c.nfds.toNat (kernelSets c.sockets c.nfds.toNat c.sets)).1,
      kernelSets c.sockets c.nfds.toNat c.sets) := by
  rw [vcomFdClear, clearLoop_eq]

theorem pselect_alone (hok : ¬ Rejected c)
    (h0 : nfdsOf (countFds c.nfds.toNat (kernelSets c.sockets c.nfds.toNat c.sets)).1 = 0) :
    Ready c.sockets c.nfds.toNat c.sets (kernelSets c.sockets c.nfds.toNat c.sets)
      (pselect libcPselect c) := by
  obtain ⟨hn, ht⟩ := not_or.mp hok
  rw [pselect, if_neg hn, if_neg (mt (timeout_negative _).mp ht), vcomFdClear_eq]
  simp only [h0, ne_eq, not_true_eq_false, if_false, false_and, or_true, if_true]
  apply vcomFdSet_ready
  · exact fun k => present_restrict ..
  · exact fun _ _ h => h

theorem pselect_asked (hlibc : Answers libcPselect) (hok : ¬ Rejected c) {newNfds : Nat}
    (hnew : newNfds =
      nfdsOf (countFds c.nfds.toNat (kernelSets c.sockets c.nfds.toNat c.sets)).1)
    (h0 : newNfds ≠ 0) {rv : Int} {left : SelectSets}
    (hcall : libcPselect newNfds (kernelSets c.sockets c.nfds.toNat c.sets) c.timeout c.sigmask =
      (rv, left)) :
    (rv = -1 → pselect libcPselect c = ⟨-1, none, c.sets⟩) ∧
    (rv ≠ -1 → Ready c.sockets c.nfds.toNat c.sets left (pselect libcPselect c)) := by
  obtain ⟨hn, ht⟩ := not_or.mp hok
  obtain ⟨hp, hsub⟩ := hlibc newNfds (kernelSets c.sockets c.nfds.toNat c.sets) c.timeout c.sigmask
  rw [hcall] at hp hsub
  have hpres : ∀ k, present left k = present c.sets k := by
    intro k
    rw [hp, kernelSets, present_restrict]
  rw [pselect, if_neg hn, if_neg (mt (timeout_negative _).mp ht), vcomFdClear_eq, ← hnew]
  simp only [h0, ne_eq, not_false_eq_true, if_true, hcall, true_and]
  constructor
  · rintro rfl
    rw [if_pos rfl, copyBack_savedSets hpres]
  · intro hrv
    rw [if_neg hrv, if_pos (Or.inl hrv)]
    exact vcomFdSet_ready hpres (hsub hrv)

end Calls

/-- The whole effect on the three sets: a call that is rejected or that
`libc_pselect` fails leaves them as they were, any other one reports the kernel's
answer and all descriptors of vcom that it was asked about. -/
theorem pselect_effect (libcPselect : LibcPselect Sigset) (hlibc : Answers libcPselect)
    (c : PselectCall Sigset) :
    (Rejected c → pselect libcPselect c = ⟨-1, some einval, c.sets⟩) ∧
    (¬ Rejected c → ∃ newNfds,
      IsNfds newNfds (below c.nfds.toNat (kernelSets c.sockets c.nfds.toNat c.sets)) ∧
      (newNfds = 0 → Ready c.sockets c.nfds.toNat c.sets
        (kernelSets c.sockets c.nfds.toNat c.sets) (pselect libcPselect c)) ∧
      (newNfds ≠ 0 → ∀ rv left, libcPselect newNfds
          (kernelSets c.sockets c.nfds.toNat c.sets) c.timeout c.sigmask = (rv, left) →
        (rv = -1 → pselect libcPselect c = ⟨-1, none, c.sets⟩) ∧
        (rv ≠ -1 →
          Ready c.sockets c.nfds.toNat c.sets left (pselect libcPselect c)))) := by
  refine ⟨pselect_rejected, fun hok =>
    ⟨nfdsOf (countFds c.nfds.toNat (kernelSets c.sockets c.nfds.toNat c.sets)).1,
      countFds_nfds, ?_, ?_⟩⟩
  · intro h0
    exact pselect_alone hok h0
  · intro h0 rv left hcall
    exact pselect_asked hlibc hok rfl h0 hcall

def oneSocket : Sockets := fun fd => if fd = 4 then some ⟨.vppcomBound, some 1⟩ else none

def threeAndFour : SelectSets := fun k =>
  if k = .except then none else some (fun fd => fd == 3 || fd == 4)

def readable : LibcPselect Unit := fun _ s _ _ =>
  (1, fun k => if k = .read then s k else (s k).map (fun _ _ => false))

theorem pselect_effect_sample : ∃ newNfds,
    IsNfds newNfds (below 5 (kernelSets oneSocket 5 threeAndFour)) ∧
    (newNfds ≠ 0 → Ready oneSocket 5 threeAndFour
      (readable newNfds (kernelSets oneSocket 5 threeAndFour) none none).2
      (pselect readable ⟨oneSocket, 5, threeAndFour, none, none⟩)) := by
  have ha : Answers readable := by
    intro n s timeout sigmask
    constructor
    · intro k
      rw [readable, present, present]
      dsimp only
      split
      · rfl
      · exact Option.isSome_map ..
    · intro _ k fd h
      rw [readable, isSet] at h
      dsimp only at h
      split at h
      · exact h
      · cases hs : s k <;> simp [hs] at h
  have hok : ¬ Rejected (⟨oneSocket, 5, threeAndFour, none, none⟩ : PselectCall Unit) := by
    rintro (h | ⟨ts, h, _⟩)
    · exact absurd h (by decide)
    · exact absurd h.symm (Option.some_ne_none ts)
  obtain ⟨m, hm, _, hcalled⟩ := (pselect_effect readable ha _).2 hok
  exact ⟨m, hm, fun h0 => (hcalled h0 1 _ rfl).2 (by decide)⟩

end Vppsb.VcomPselect
