import Vppsb.VcomRounds

namespace Vppsb.VcomPolling

open Vppsb.StepRun Vppsb.FdSets Vppsb.VcomSelect Vppsb.VcomRounds

def Watched (c : Call) (k : FdKind) (fd : Nat) : Prop :=
  isSet c.sets k fd = true ∧ fd < c.nfds.toNat

/-- The part of the caller's sets that belongs to vcom. -/
def vcomPart (c : Call) : SelectSets :=
  restrict c.sets (fun _ fd => decide (fd < c.nfds.toNat) && isVcomSocketFd c.sockets fd)

def kernelPart (c : Call) : SelectSets :=
  restrict c.sets (fun _ fd => decide (fd < c.nfds.toNat) && !isVcomSocketFd c.sockets fd)

/-- The sockets of vcom that the call watches have session ids, with bits for them. -/
def HasSids (c : Call) : Prop := Watchable c.sockets (vcomPart c)

/-- Whether a descriptor is ready in a round. -/
def readyIn (c : Call) (r : Ready) (k : FdKind) (fd : Nat) : Bool :=
  if isVcomSocketFd c.sockets fd then r.sid k (sidOf c.sockets fd) else r.fd k fd

theorem watched_iff (c : Call) (k : FdKind) (fd : Nat) : Watched c k fd ↔
    isSet (vcomPart c) k fd = true ∨ isSet (kernelPart c) k fd = true := by
  simp only [Watched, vcomPart, kernelPart, isSet_restrict, Bool.and_eq_true, decide_eq_true_eq,
    Bool.not_eq_true']
  cases isVcomSocketFd c.sockets fd <;> simp

theorem vcomPart_kernelPart (c : Call) (k : FdKind) (fd : Nat)
    (h : isSet (vcomPart c) k fd = true) : isSet (kernelPart c) k fd = false := by
  simp only [vcomPart, isSet_restrict, Bool.and_eq_true] at h
  simp [kernelPart, h.2.2]

theorem watchOf_sets (c : Call) (start : Timespec) :
    (watchOf c start).2 = (vcomPart c, kernelPart c) := by
  simp only [watchOf, vcomFdSetSplit_eq, markAll_zeroSets]
  rfl

section Watch

variable {c : Call} {start : Timespec}

theorem watchOf_vcomNfds_le (c : Call) (start : Timespec) :
    (watchOf c start).1.vcomNfds ≤ c.nfds.toNat := by
  simp only [watchOf, vcomFdSetSplit_eq]
  exact nfdsOf_markAll_le

theorem watchOf_libcNfds_le (c : Call) (start : Timespec) :
    (watchOf c start).1.libcNfds ≤ c.nfds.toNat := by
  simp only [watchOf, vcomFdSetSplit_eq]
  exact nfdsOf_markAll_le

theorem someSet_of_nfds {s : SelectSets} {q : FdKind → Nat → Bool} {n : Nat}
    (h : nfdsOf (markAll q id (fdLoop n) (emptyMarks (zeroSets s))).maxFd ≠ 0) : SomeSet s := by
  obtain hmax | ⟨k, fd, -, -, hs, -⟩ :=
    maxFd_markAll_cases q id (fdLoop n) (emptyMarks (zeroSets s))
  · rw [hmax] at h
    exact absurd rfl h
  · refine ⟨k, ?_⟩
    rwa [emptyMarks, present_zeroSets] at hs

theorem nfdsOf_fits (s : SelectSets) (q : FdKind → Nat → Bool) (n : Nat) :
    Below (nfdsOf (markAll (fun k fd => isSet s k fd && q k fd) id (fdLoop n)
      (emptyMarks (zeroSets s))).maxFd) (restrict s (fun k fd => decide (fd < n) && q k fd)) := by
  intro k fd h
  simp only [isSet_restrict, Bool.and_eq_true, decide_eq_true_eq] at h
  have hx : (k, fd) ∈ fdLoop n := mem_fdLoop.mpr h.2.1
  refine lt_nfdsOf_markAll (t := id) hx (by simp [h.1, h.2.2]) ?_
  simpa [emptyMarks] using isSet_le_present h.1

theorem below_zero {s : SelectSets} (h : Below 0 s) : ¬ AnySet s :=
  fun ⟨k, fd, hfd⟩ => absurd (h k fd hfd) (Nat.not_lt_zero fd)

theorem watchOf_fits (hs : HasSids c) (start : Timespec) :
    Fits (watchOf c start).1 (vcomPart c) (kernelPart c) := by
  have hv : Below (watchOf c start).1.vcomNfds (vcomPart c) := by
    simp only [watchOf, vcomFdSetSplit_eq]
    exact nfdsOf_fits c.sets (fun _ fd => isVcomSocketFd c.sockets fd) c.nfds.toNat
  have hk : Below (watchOf c start).1.libcNfds (kernelPart c) := by
    simp only [watchOf, vcomFdSetSplit_eq]
    exact nfdsOf_fits c.sets (fun _ fd => !isVcomSocketFd c.sockets fd) c.nfds.toNat
  have hsome : (watchOf c start).1.vcomNfds ≠ 0 → SomeSet (vcomPart c) := by
    simp only [watchOf, vcomFdSetSplit_eq]
    intro h
    obtain ⟨k, hp⟩ := someSet_of_nfds h
    exact ⟨k, by rw [vcomPart, present_restrict, hp]⟩
  exact ⟨⟨hv, hs⟩, fun h => below_zero (h ▸ hv), hsome, hk, fun h => below_zero (h ▸ hk)⟩

theorem Fits.zero {w : Watch} {vcom libc : SelectSets} (h : Fits w vcom libc) :
    Fits w vcom (zeroSets libc) :=
  ⟨h.bound, h.vcomNone, h.vcomSome, fun k fd hk => by simp at hk,
    fun _ => not_anySet_zeroSets libc⟩

end Watch

/-- Rounds with what is ready in each, in which no call fails. -/
def AllAnswer (xs : List (Poll × Ready)) : Prop := ∀ x ∈ xs, Answers x.1 x.2

def roundsOf (xs : List (Poll × Ready)) : List Poll := xs.map (fun x => x.1)

/-- While the loop goes on, the vcom sets stay as they were handed out, and the
kernel sets are empty from the second round on. -/
theorem run_polling {w : Watch} {vcom libc v l : SelectSets} {xs : List (Poll × Ready)}
    (hw : Fits w vcom libc) (hx : AllAnswer xs)
    (hr : run (pollRound w) (.polling vcom libc) (roundsOf xs) = some (.polling v l)) :
    v = vcom ∧ l = if xs = [] then libc else zeroSets libc := by
  induction xs generalizing libc with
  | nil =>
    cases hr
    exact ⟨rfl, rfl⟩
  | cons x xs ih =>
    have ha := hx x (by simp)
    have hxs : AllAnswer xs := fun y hy => hx y (List.mem_cons_of_mem _ hy)
    obtain ⟨t, ht, hrest⟩ := run_cons_eq_some.mp hr
    have hexit : ∀ rv sets timedout, t ≠ .exited rv sets timedout := by
      rintro rv sets timedout rfl
      cases xs with
      | nil => cases hrest
      | cons y ys =>
        obtain ⟨u, hu, _⟩ := run_cons_eq_some.mp hrest
        cases hu
    have hstep : t = .polling vcom (zeroSets libc) := by
      by_cases h : AnySet (readySids w.sockets vcom x.2.sid)
      · rw [pollRound_vcom hw ha h] at ht
        exact absurd (Option.some.inj ht).symm (hexit _ _ _)
      · by_cases h' : AnySet (restrict libc x.2.fd)
        · rw [pollRound_libc hw ha h h'] at ht
          exact absurd (Option.some.inj ht).symm (hexit _ _ _)
        · obtain hi | hi := pollRound_idle hw ha h h'
          · rw [hi] at ht
            exact (Option.some.inj ht).symm
          · rw [hi] at ht
            exact absurd (Option.some.inj ht).symm (hexit _ _ _)
    subst hstep
    obtain ⟨hv, hl⟩ := ih (Fits.zero hw) hxs hrest
    refine ⟨hv, ?_⟩
    rw [hl, if_neg (List.cons_ne_nil x xs)]
    split
    · rfl
    · exact eq_zeroSets (by simp) (not_anySet_zeroSets _)

/-- The sets handed out in a round are those of the caller, and what is ready in
it among them is reported. -/
def RoundFaithful (c : Call) (w : Watch) (vcom libc : SelectSets) (p : Poll) (r : Ready) : Prop :=
  (vcom = vcomPart c ∧ libc = kernelPart c) ∧
    ∀ k fd, Watched c k fd → readyIn c r k fd = true →
      ∃ rv sets, pollRound w (.polling vcom libc) p = some (.exited rv sets false) ∧
        isSet sets k fd = true

theorem present_readySids (c : Call) (r : Ready) (k : FdKind) :
    present (readySids c.sockets (vcomPart c) r.sid) k = present c.sets k := by
  simp [readySids, vcomPart]

/-- A round that has been handed the caller's sets reports what is ready. -/
theorem pollRound_reports {c : Call} {start : Timespec} {p : Poll} {r : Ready} (hs : HasSids c)
    (ha : Answers p r) {k : FdKind} {fd : Nat} (hw : Watched c k fd)
    (hr : readyIn c r k fd = true) :
    ∃ rv sets, pollRound (watchOf c start).1 (.polling (vcomPart c) (kernelPart c)) p =
      some (.exited rv sets false) ∧ isSet sets k fd = true := by
  have hf := watchOf_fits hs start
  have hpk : ∀ k, present (restrict (kernelPart c) r.fd) k = present c.sets k :=
    fun k => by simp [kernelPart]
  have hin : isSet (readySids c.sockets (vcomPart c) r.sid) k fd = true ∨
      isSet (restrict (kernelPart c) r.fd) k fd = true := by
    obtain h | h := (watched_iff c k fd).mp hw
    · have hv := h
      simp only [vcomPart, isSet_restrict, Bool.and_eq_true] at hv
      rw [readyIn, if_pos hv.2.2] at hr
      exact Or.inl (by rw [readySids, isSet_restrict, h, hr]; rfl)
    · have hv := h
      simp only [kernelPart, isSet_restrict, Bool.and_eq_true, Bool.not_eq_true'] at hv
      rw [readyIn, hv.2.2] at hr
      exact Or.inr (by rw [isSet_restrict, h, Bool.true_and]; simpa using hr)
  by_cases hany : AnySet (readySids c.sockets (vcomPart c) r.sid)
  · refine ⟨_, _, pollRound_vcom hf ha hany, ?_⟩
    exact (isSet_merge (present_readySids c r) hpk (hf.bound.below.restrict _)
      (hf.below.restrict _) k fd).mpr hin
  · have hk := hin.resolve_left fun h => hany ⟨k, fd, h⟩
    refine ⟨_, _, pollRound_libc hf ha hany ⟨k, fd, hk⟩, ?_⟩
    exact (isSet_merge (fun k => by simp [vcomPart]) hpk hf.bound.below
      (hf.below.restrict _) k fd).mpr (Or.inr hk)

/-- A round gets the caller's sets, and reports what is ready in it, just when
it is the first one or no kernel descriptor is watched: after an idle round the
sets that the kernel has emptied are handed out again. -/
theorem round_faithful_iff (c : Call) (start : Timespec) (hs : HasSids c)
    (xs : List (Poll × Ready)) (hx : AllAnswer xs) (vcom libc : SelectSets)
    (hr : run (pollRound (watchOf c start).1)
      (.polling (watchOf c start).2.1 (watchOf c start).2.2) (roundsOf xs) =
        some (.polling vcom libc))
    (p : Poll) (r : Ready) (ha : Answers p r) :
    RoundFaithful c (watchOf c start).1 vcom libc p r ↔ xs = [] ∨ ¬ AnySet (kernelPart c) := by
  rw [watchOf_sets] at hr
  obtain ⟨rfl, rfl⟩ := run_polling (watchOf_fits hs start) hx hr
  constructor
  · rintro ⟨⟨_, hl⟩, _⟩
    by_cases hnil : xs = []
    · exact Or.inl hnil
    · rw [if_neg hnil] at hl
      exact Or.inr (hl ▸ not_anySet_zeroSets _)
  · intro h
    have hl : (if xs = [] then kernelPart c else zeroSets (kernelPart c)) = kernelPart c := by
      split
      · rfl
      · exact (eq_zeroSets (fun _ => rfl) (h.resolve_left ‹_›)).symm
    rw [hl]
    exact ⟨⟨rfl, rfl⟩, fun k fd hw hrd => pollRound_reports hs ha hw hrd⟩

def exactPoll (r : Ready) : Poll :=
  { vppcomSelect := fun n s => (bitCount n (restrict s r.sid), restrict s r.sid)
    libcSelect := fun n s => (bitCount n (restrict s r.fd), restrict s r.fd)
    errno := 0
    clockGettime := .ok ⟨0, 0⟩ }

theorem exactPoll_answers (r : Ready) : Answers (exactPoll r) r :=
  ⟨fun _ _ _ => rfl, fun _ _ _ => rfl, _, rfl⟩

def noneReady : Ready := ⟨fun _ _ => false, fun _ _ => false⟩
def allReady : Ready := ⟨fun _ _ => true, fun _ _ => true⟩

def readCall (sockets : Sockets) : Call :=
  ⟨sockets, 4, fun k => if k = .read then some (fun fd => fd == 3) else none, none⟩

def noSocket : Sockets := fun _ => none
def oneSocket : Sockets := fun fd => if fd = 3 then some ⟨.vppcomBound, some 7⟩ else none

theorem allAnswer_idle : AllAnswer [(exactPoll noneReady, noneReady)] :=
  fun _ hx => List.mem_singleton.mp hx ▸ exactPoll_answers noneReady

theorem oneSocket_hasSids {c : Call} (hc : c.sockets = oneSocket) : HasSids c := by
  intro k fd h
  simp only [vcomPart, isSet_restrict, hc, Bool.and_eq_true] at h
  rw [hc]
  by_cases hfd : fd = 3
  · exact ⟨7, by rw [hfd]; rfl, by decide⟩
  · simp [isVcomSocketFd, oneSocket, hfd] at h

/-- The second round of a wait on a socket of vcom. -/
theorem round_faithful_iff_sample :
    ∃ vcom libc, run (pollRound (watchOf (readCall oneSocket) ⟨0, 0⟩).1)
      (.polling (watchOf (readCall oneSocket) ⟨0, 0⟩).2.1 (watchOf (readCall oneSocket) ⟨0, 0⟩).2.2)
      (roundsOf [(exactPoll noneReady, noneReady)]) = some (.polling vcom libc) ∧
      (RoundFaithful (readCall oneSocket) (watchOf (readCall oneSocket) ⟨0, 0⟩).1 vcom libc
        (exactPoll allReady) allReady ↔
        [(exactPoll noneReady, noneReady)] = [] ∨ ¬ AnySet (kernelPart (readCall oneSocket))) :=
  ⟨_, _, rfl, round_faithful_iff (readCall oneSocket) ⟨0, 0⟩ (oneSocket_hasSids rfl)
    [(exactPoll noneReady, noneReady)] allAnswer_idle _ _ rfl (exactPoll allReady) allReady
    (exactPoll_answers allReady)⟩

/-- The second round of a wait on a kernel descriptor. -/
theorem kernel_wakeup_lost :
    AllAnswer [(exactPoll noneReady, noneReady)] ∧ Answers (exactPoll allReady) allReady ∧
    ∃ vcom libc, run (pollRound (watchOf (readCall noSocket) ⟨0, 0⟩).1)
      (.polling (watchOf (readCall noSocket) ⟨0, 0⟩).2.1 (watchOf (readCall noSocket) ⟨0, 0⟩).2.2)
      (roundsOf [(exactPoll noneReady, noneReady)]) = some (.polling vcom libc) ∧
      ¬ RoundFaithful (readCall noSocket) (watchOf (readCall noSocket) ⟨0, 0⟩).1 vcom libc
        (exactPoll allReady) allReady := by
  refine ⟨allAnswer_idle, exactPoll_answers allReady, _, _, rfl, fun h => ?_⟩
  have hbit := congrArg (fun s => isSet s .read 3) h.1.2
  exact absurd hbit (by decide)

end Vppsb.VcomPolling
