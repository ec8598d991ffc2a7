import Vppsb.VcomFailures

namespace Vppsb.VcomTimeLeft

open Vppsb.StepRun Vppsb.FdSets Vppsb.VcomSelect Vppsb.VcomExits Vppsb.VcomFailures

section Time

def nanos (ts : Timespec) : Int := ts.sec * nsecPerSec + ts.nsec

def span (tv : Timeval) : Int := (tv.sec * 1000000 + tv.usec) * 1000

def AtMost (tv limit : Timeval) : Prop :=
  tv.sec < limit.sec ∨ tv.sec = limit.sec ∧ tv.usec ≤ limit.usec

/-- What should be left of a timeout. -/
structure GoodTime (limit tv : Timeval) (timedOut : Prop) : Prop where
  sec : 0 ≤ tv.sec
  usec : 0 ≤ tv.usec ∧ tv.usec < 1000000
  most : AtMost tv limit
  zero : timedOut → tv = ⟨0, 0⟩

/-- A timeout that is accepted and has less than a second in `usec`. -/
structure ProperTime (tv : Timeval) : Prop where
  valid : vcomTimerisvalid tv = true
  usec : tv.usec < 1000000

theorem ProperTime.nonneg {tv : Timeval} (h : ProperTime tv) : 0 ≤ tv.sec ∧ 0 ≤ tv.usec := by
  have hv := h.valid
  simp only [vcomTimerisvalid, Bool.not_eq_true', Bool.or_eq_false_iff, decide_eq_false_iff_not]
    at hv
  omega

theorem nanos_setNormalizedTimespec (sec nsec : Int) :
    nanos (setNormalizedTimespec sec nsec) = sec * nsecPerSec + nsec := by
  simp only [nanos, setNormalizedTimespec, nsecPerSec]
  omega

theorem nanos_timespecAdd (lhs rhs : Timespec) :
    nanos (timespecAdd lhs rhs) = nanos lhs + nanos rhs := by
  rw [timespecAdd, nanos_setNormalizedTimespec]
  simp only [nanos, nsecPerSec]
  omega

theorem nanos_endTimeOf (start : Timespec) (tv : Timeval) :
    nanos (endTimeOf start tv) = nanos start + span tv := by
  rw [endTimeOf]
  split
  · simp only [nanos_timespecAdd, nanos_setNormalizedTimespec, timevalToTimespec, span, nsecPerSec]
    omega
  · next h =>
      obtain ⟨hs, hu⟩ : tv.sec = 0 ∧ tv.usec = 0 := by
        simpa [timerisset] using h
      rw [span, hs, hu]
      exact (Int.add_zero _).symm

def left (endTime now : Timespec) : Timeval := timespecToTimeval (timespecSub endTime now)

theorem left_eq (endTime now : Timespec) : left endTime now =
    ⟨(nanos endTime - nanos now) / nsecPerSec, (nanos endTime - nanos now) % nsecPerSec / 1000⟩ := by
  simp only [left, timespecToTimeval, timespecSub, setNormalizedTimespec, nanos, nsecPerSec,
    Timeval.mk.injEq]
  omega

/-- The time left is good just in case the clock has not passed the end, and is within a
microsecond of it after a timeout. -/
theorem goodTime_left {start now : Timespec} {limit : Timeval} {timedOut : Prop}
    (hl : ProperTime limit) (hn : nanos start ≤ nanos now) :
    GoodTime limit (left (endTimeOf start limit) now) timedOut ↔
      nanos now ≤ nanos (endTimeOf start limit) ∧
        (timedOut → nanos (endTimeOf start limit) < nanos now + 1000) := by
  have hnonneg := hl.nonneg
  have husec := hl.usec
  have hend := nanos_endTimeOf start limit
  rw [left_eq]
  generalize nanos (endTimeOf start limit) = last at hend ⊢
  simp only [span] at hend
  constructor
  · intro h
    have hsec := h.sec
    simp only [nsecPerSec] at hsec
    refine ⟨by omega, fun ht => ?_⟩
    have hz := h.zero ht
    simp only [nsecPerSec, Timeval.mk.injEq] at hz
    omega
  · rintro ⟨hle, hz⟩
    constructor
    · simp only [nsecPerSec]
      omega
    · simp only [nsecPerSec]
      omega
    · simp only [AtMost, nsecPerSec]
      omega
    · intro ht
      have := hz ht
      simp only [nsecPerSec, Timeval.mk.injEq]
      omega

theorem goodTime_self {limit : Timeval} {timedOut : Prop} (hl : ProperTime limit)
    (h : ¬ timedOut) : GoodTime limit limit timedOut where
  sec := hl.nonneg.1
  usec := ⟨hl.nonneg.2, hl.usec⟩
  most := .inr ⟨rfl, Int.le_refl _⟩
  zero ht := absurd ht h

theorem goodTime_zero {limit : Timeval} {timedOut : Prop} (hl : ProperTime limit) :
    GoodTime limit ⟨0, 0⟩ timedOut where
  sec := Int.le_refl 0
  usec := by decide
  most := by
    have := hl.nonneg
    simp only [AtMost]
    omega
  zero _ := rfl

theorem GoodTime.valid {limit tv : Timeval} {timedOut : Prop} (h : GoodTime limit tv timedOut) :
    vcomTimerisvalid tv = true := by
  have hs := h.sec
  have hu := h.usec.1
  simp only [vcomTimerisvalid, Bool.not_eq_true', Bool.or_eq_false_iff, decide_eq_false_iff_not]
  omega

end Time

theorem selectDone_timeout (finish : Except Int Timespec) (endTime : Timespec) {tv : Timeval}
    (hv : vcomTimerisvalid tv = true) (timedout failed : Bool) (rv : Int) (sets : SelectSets) :
    (selectDone finish endTime (some tv) timedout failed rv sets).timeout = some (
      if timedout then ⟨0, 0⟩
      else if failed then tv
      else match finish with
      | .error _ => tv
      | .ok now => left endTime now) := by
  simp only [selectDone, if_pos hv]
  split
  · rfl
  · split
    · rfl
    · cases finish <;> rfl

def reading (r : Except Int Timespec) : List Timespec := r.toOption.toList

def readings (o : Outside) : List Timespec :=
  reading o.start ++ (o.polls.flatMap (fun p => reading p.clockGettime) ++ reading o.finish)

def NonDecreasing (o : Outside) : Prop :=
  (readings o).Pairwise (fun a b => nanos a ≤ nanos b)

instance (o : Outside) : Decidable (NonDecreasing o) := inferInstanceAs (Decidable (List.Pairwise _ _))

theorem NonDecreasing.start_le_finish {o : Outside} (h : NonDecreasing o) {start now : Timespec}
    (hs : o.start = .ok start) (hf : o.finish = .ok now) : nanos start ≤ nanos now := by
  have hp := (List.pairwise_append.mp h).2.2
  apply hp
  · rw [hs]
    exact List.mem_cons_self
  · rw [hf]
    exact List.mem_append_right _ List.mem_cons_self

/-- The call times out: in its sleep, or in the last round of the loop. -/
def TimesOut (c : Call) (o : Outside) : Stage → Prop
  | .sleep _ tv => (o.libcSelect c.sets tv).1 = 0
  | .loop start => LastRound c o start (fun vcom libc p =>
      roundFailure (watchOf c start).1 vcom libc p = none ∧
        ¬ ReadyRound (watchOf c start).1 vcom libc p)
  | _ => False

/-- The last reading of the clock, if there is one, is not past the end time. A call that
times out in the loop makes none, and one that sleeps is left with the time of
`libc_select` where the reading fails. -/
def InTime (c : Call) (o : Outside) (limit : Timeval) : Stage → Prop
  | .noInit start | .badNfds start =>
      ∀ now, o.finish = .ok now → nanos now ≤ nanos (endTimeOf start limit)
  | .sleep start tv =>
      vcomTimerisvalid (o.libcSelect c.sets tv).2.2 = true ∧
      (∀ e, o.finish = .error e →
        GoodTime limit (o.libcSelect c.sets tv).2.2 ((o.libcSelect c.sets tv).1 = 0)) ∧
      ∀ now, o.finish = .ok now → nanos now ≤ nanos (endTimeOf start limit) ∧
        ((o.libcSelect c.sets tv).1 = 0 → nanos (endTimeOf start limit) < nanos now + 1000)
  | .loop start => TimesOut c o (.loop start) ∨
      ∀ now, o.finish = .ok now → nanos now ≤ nanos (endTimeOf start limit)
  | _ => True

def LeavesTime (c : Call) (o : Outside) (limit : Timeval) (res : Result) : Prop :=
  ∃ tv, res.timeout = some tv ∧ GoodTime limit tv (TimesOut c o (stageOf c o))

variable {c : Call} {o : Outside} {limit : Timeval} {res : Result}

theorem leavesTime_iff {tv : Timeval} (h : res.timeout = some tv) :
    LeavesTime c o limit res ↔ GoodTime limit tv (TimesOut c o (stageOf c o)) := by
  constructor
  · rintro ⟨tv', ht, hg⟩
    obtain rfl := Option.some.inj (h.symm.trans ht)
    exact hg
  · exact fun hg => ⟨tv, h, hg⟩

theorem leavesTime_done (hl : ProperTime limit) (ht : c.timeout = some limit)
    (hc : NonDecreasing o) {start : Timespec} (hs : o.start = .ok start)
    (hto : ¬ TimesOut c o (stageOf c o)) {rv : Int} {sets : SelectSets}
    (hres : res = selectDone o.finish (deadline c start) c.timeout false false rv sets) :
    LeavesTime c o limit res ↔
      ∀ now, o.finish = .ok now → nanos now ≤ nanos (endTimeOf start limit) := by
  have hd : deadline c start = endTimeOf start limit := by
    rw [deadline, ht]
    rfl
  rw [ht, hd] at hres
  have htime := selectDone_timeout o.finish (endTimeOf start limit) hl.valid false false rv sets
  rw [← hres] at htime
  cases hf : o.finish with
  | error e =>
      rw [hf] at htime
      rw [leavesTime_iff htime]
      apply iff_of_true
      · exact goodTime_self hl hto
      · exact fun now h => absurd h (by simp)
  | ok now =>
      rw [hf] at htime
      refine (leavesTime_iff htime).trans
        ((goodTime_left hl (hc.start_le_finish hs hf)).trans ?_)
      constructor
      · intro h now' hn
        obtain rfl := Except.ok.inj hn
        exact h.1
      · exact fun h => ⟨h now rfl, fun ht => absurd ht hto⟩

theorem leavesTime_sleep (hl : ProperTime limit) (hc : NonDecreasing o) {start : Timespec}
    (ht : c.timeout = some limit) (hst : stageOf c o = .sleep start limit) {rv : Int}
    {sets : SelectSets}
    (hres : res = selectDone o.finish (deadline c start) (some (o.libcSelect c.sets limit).2.2)
      false false rv sets) :
    LeavesTime c o limit res ↔ InTime c o limit (.sleep start limit) := by
  have hs : o.start = .ok start := start_of_stageOf (by rw [hst]; rfl)
  have hto : TimesOut c o (stageOf c o) ↔ (o.libcSelect c.sets limit).1 = 0 := by rw [hst]; rfl
  have hd : deadline c start = endTimeOf start limit := by
    rw [deadline, ht]
    rfl
  rw [hd] at hres
  by_cases hv : vcomTimerisvalid (o.libcSelect c.sets limit).2.2 = true
  · have htime := selectDone_timeout o.finish (endTimeOf start limit) hv false false rv sets
    rw [← hres] at htime
    cases hf : o.finish with
    | error e =>
        rw [hf] at htime
        refine (leavesTime_iff htime).trans ?_
        rw [hto]
        constructor
        · intro h
          exact ⟨hv, fun _ _ => h, fun now hn => absurd (hf.symm.trans hn) (by simp)⟩
        · exact fun h => h.2.1 e hf
    | ok now =>
        rw [hf] at htime
        refine (leavesTime_iff htime).trans
          ((goodTime_left hl (hc.start_le_finish hs hf)).trans ?_)
        rw [hto]
        constructor
        · intro h
          refine ⟨hv, fun e he => absurd (hf.symm.trans he) (by simp), fun now' hn => ?_⟩
          obtain rfl := Except.ok.inj (hf.symm.trans hn)
          exact h
        · exact fun h => h.2.2 now hf
  · -- an invalid time stays as `libc_select` left it
    have htime : res.timeout = some (o.libcSelect c.sets limit).2.2 := by
      rw [hres]
      simp only [selectDone, if_neg hv]
    rw [leavesTime_iff htime]
    exact iff_of_false (fun h => hv h.valid) (fun h => hv h.1)

theorem leavesTime_loop (hl : ProperTime limit) (ht : c.timeout = some limit)
    (hc : NonDecreasing o) {start : Timespec} (hst : stageOf c o = .loop start) {rv : Int}
    {sets : SelectSets} {timedout : Bool}
    (hr : loopRun c start o.polls = some (.exited rv sets timedout))
    (hres : res = selectDone o.finish (deadline c start) c.timeout timedout false rv sets) :
    LeavesTime c o limit res ↔ InTime c o limit (.loop start) := by
  have hs : o.start = .ok start := start_of_stageOf (by rw [hst]; rfl)
  have hto : TimesOut c o (.loop start) ↔ timedout = true := by
    obtain ⟨front, p, vcom, libc, hp, hrun, hround⟩ := loopRun_exited hr
    refine (lastRound_iff hp hrun).trans ?_
    obtain ⟨e, hf, -, htd, -⟩ | ⟨-, hrr, -, htd⟩ | ⟨hf, hrr, -, htd⟩ := pollRound_exited hround
    · rw [htd]
      exact iff_of_false (fun h => Option.some_ne_none e (hf.symm.trans h.1)) Bool.false_ne_true
    · rw [htd]
      exact iff_of_false (fun h => h.2 hrr) Bool.false_ne_true
    · exact iff_of_true ⟨hf, hrr⟩ htd
  cases timedout with
  | true =>
      rw [ht] at hres
      have htime := selectDone_timeout o.finish (deadline c start) hl.valid true false rv sets
      rw [← hres] at htime
      rw [leavesTime_iff htime]
      exact iff_of_true (goodTime_zero hl) (.inl (hto.mpr rfl))
  | false =>
      have hno : ¬ TimesOut c o (.loop start) := fun h => Bool.false_ne_true (hto.mp h)
      rw [leavesTime_done hl ht hc hs (by rwa [hst]) hres]
      exact (or_iff_right hno).symm

/-- The time that is left is right just in case the last reading of the clock is in time. -/
theorem timeLeft_iff (ht : c.timeout = some limit) (hl : ProperTime limit) (hc : NonDecreasing o)
    (hr : vcomSelect c o = some res) :
    LeavesTime c o limit res ↔ InTime c o limit (stageOf c o) := by
  have h := returns_of_vcomSelect hr
  cases hst : stageOf c o with
  | bogusTime =>
      obtain ⟨tv, htv, hv⟩ := bogusTime_of_stageOf hst
      obtain rfl := Option.some.inj (ht.symm.trans htv)
      exact absurd (hv.symm.trans hl.valid) Bool.false_ne_true
  | noStart e =>
      have hres : res = selectDone o.finish ⟨0, 0⟩ c.timeout false true (-e) c.sets := by
        rw [hst] at h
        exact h
      rw [ht] at hres
      have htime := selectDone_timeout o.finish ⟨0, 0⟩ hl.valid false true (-e) c.sets
      rw [← hres] at htime
      rw [leavesTime_iff htime]
      apply iff_of_true _ trivial
      apply goodTime_self hl
      rw [hst]
      exact fun h => h
  | noInit start | badNfds start =>
      rw [hst] at h
      apply leavesTime_done hl ht hc (start_of_stageOf (by rw [hst]; rfl)) _ h
      rw [hst]
      exact fun h => h
  | forever start =>
      exact absurd (ht.symm.trans (forever_of_stageOf hst)) (Option.some_ne_none limit)
  | sleep start tv =>
      obtain rfl : limit = tv := Option.some.inj (ht.symm.trans (sleep_of_stageOf hst).2)
      rw [hst] at h
      exact leavesTime_sleep hl hc ht hst h
  | loop start =>
      rw [hst] at h
      obtain ⟨rv, sets, timedout, hrun, hres⟩ := h
      exact leavesTime_loop hl ht hc hst hrun hres

def waitASecond : Call :=
  ⟨fun _ => none, 1, fun k => if k = .read then some (fun fd => fd == 0) else none, some ⟨1, 0⟩⟩

/-- The descriptor is ready in the first round, and the clock is read at the given time
after that. -/
def readyAtOnce (finish : Timespec) : Outside :=
  { start := .ok ⟨10, 0⟩
    vcomInit := 0
    libcSelect := fun s tv => (0, s, tv)
    errno := 4
    polls := [⟨fun _ s => (0, s), fun _ s => (1, s), 4, .ok ⟨10, 0⟩⟩]
    finish := .ok finish }

theorem timeLeft_iff_sample : ∃ res,
    vcomSelect waitASecond (readyAtOnce ⟨10, 1000⟩) = some res ∧ res.timeout = some ⟨0, 999999⟩ ∧
    (LeavesTime waitASecond (readyAtOnce ⟨10, 1000⟩) ⟨1, 0⟩ res ↔
      InTime waitASecond (readyAtOnce ⟨10, 1000⟩) ⟨1, 0⟩ (.loop ⟨10, 0⟩)) :=
  ⟨⟨1, _, _⟩, rfl, rfl, timeLeft_iff rfl ⟨rfl, by decide⟩ (by decide) rfl⟩

/-- The last reading is five microseconds past the end of the second. -/
theorem time_negative : ∃ res, vcomSelect waitASecond (readyAtOnce ⟨11, 5000⟩) = some res ∧
    NonDecreasing (readyAtOnce ⟨11, 5000⟩) ∧
    ¬ LeavesTime waitASecond (readyAtOnce ⟨11, 5000⟩) ⟨1, 0⟩ res := by
  refine ⟨⟨1, _, some ⟨-1, 999995⟩⟩, rfl, by decide, ?_⟩
  rintro ⟨tv, ht, hg⟩
  obtain rfl := Option.some.inj ht
  exact absurd hg.sec (by decide)

end Vppsb.VcomTimeLeft
