import Vppsb.VcomExits

namespace Vppsb.VcomFailures

open Vppsb.StepRun Vppsb.FdSets Vppsb.VcomSelect Vppsb.VcomExits

def select (res : Result) : Int × Option Int :=
  if res.rv < 0 then (-1, some (-res.rv)) else (res.rv, none)

section Round

variable (w : Watch) (vcom libc : SelectSets) (p : Poll)

/-- What `vcom_select_impl` gives. The loop does not get past a round in which that is undefined. -/
def vcomGives : Int × SelectSets := (vcomCall w p vcom).getD (-1, vcom)

def VcomFails : Prop := w.vcomNfds ≠ 0 ∧ (vcomGives w vcom p).1 < 0

def LibcFails : Prop := ¬ VcomFails w vcom p ∧ w.libcNfds ≠ 0 ∧ (libcCall w p libc).1 < 0

/-- Something is ready in a round in which no call fails. -/
def ReadyRound : Prop :=
  ¬ VcomFails w vcom p ∧ ¬ LibcFails w vcom libc p ∧
    ((w.vcomNfds ≠ 0 ∧ 0 < (vcomGives w vcom p).1) ∨ (w.libcNfds ≠ 0 ∧ 0 < (libcCall w p libc).1))

instance : Decidable (VcomFails w vcom p) := inferInstanceAs (Decidable (_ ∧ _))
instance : Decidable (LibcFails w vcom libc p) := inferInstanceAs (Decidable (_ ∧ _))
instance : Decidable (ReadyRound w vcom libc p) := inferInstanceAs (Decidable (_ ∧ _))

def mergedIn : Marks :=
  vcomFdSetMerge (zeroSets w.sets) w.vcomNfds (vcomGives w vcom p).2 w.libcNfds
    (libcCall w p libc).2

/-- The `errno` of the call that fails in a round. `vppcom_select` and the translations
return it as a negative number. -/
def roundFailure : Option Int :=
  if VcomFails w vcom p then some (-(vcomGives w vcom p).1)
  else if LibcFails w vcom libc p then some p.errno
  else if ReadyRound w vcom libc p then none
  else match p.clockGettime with
  | .error e => some e
  | .ok _ => none

variable {w vcom libc p} {rv : Int} {sets : SelectSets} {timedout : Bool}

theorem roundFailure_of_libc (h : LibcFails w vcom libc p) :
    roundFailure w vcom libc p = some p.errno := by
  rw [roundFailure, if_neg h.1, if_pos h]

/-- The ways out of the polling loop. -/
theorem pollRound_exited
    (h : pollRound w (.polling vcom libc) p = some (.exited rv sets timedout)) :
    (∃ e, roundFailure w vcom libc p = some e ∧ sets = w.sets ∧ timedout = false ∧
      ¬ ReadyRound w vcom libc p ∧ rv = if LibcFails w vcom libc p then e else -e) ∨
    (roundFailure w vcom libc p = none ∧ ReadyRound w vcom libc p ∧
      sets = (mergedIn w vcom libc p).sets ∧ timedout = false) ∨
    (roundFailure w vcom libc p = none ∧ ¬ ReadyRound w vcom libc p ∧ sets = w.sets ∧
      timedout = true) := by
  simp only [pollRound, Option.bind_eq_bind] at h
  obtain ⟨v, hgives, h⟩ := Option.bind_eq_some_iff.mp h
  obtain rfl : vcomGives w vcom p = v := by rw [vcomGives, hgives, Option.getD_some]
  rw [Option.some.injEq] at h
  by_cases hv' : w.vcomNfds ≠ 0 ∧ (vcomGives w vcom p).1 < 0
  · have hv : VcomFails w vcom p := hv'
    rw [if_pos hv'] at h
    injection h with h1 h2 h3
    have hl : ¬ LibcFails w vcom libc p := fun hl => hl.1 hv
    refine .inl ⟨_, if_pos hv, h2.symm, h3.symm, fun hr => hr.1 hv, ?_⟩
    rw [if_neg hl, ← h1, Int.neg_neg]
  have hv : ¬ VcomFails w vcom p := hv'
  rw [if_neg hv'] at h
  by_cases hl : w.libcNfds ≠ 0 ∧ (libcCall w p libc).1 < 0
  · have hlf : LibcFails w vcom libc p := ⟨hv, hl⟩
    rw [if_pos hl] at h
    injection h with h1 h2 h3
    refine .inl ⟨p.errno, ?_, h2.symm, h3.symm, fun hr => hr.2.1 hlf, ?_⟩
    · rw [roundFailure, if_neg hv, if_pos hlf]
    · rw [if_pos hlf, h1]
  have hlf : ¬ LibcFails w vcom libc p := fun h => hl h.2
  rw [if_neg hl] at h
  by_cases hr : (w.vcomNfds ≠ 0 ∧ 0 < (vcomGives w vcom p).1) ∨
      (w.libcNfds ≠ 0 ∧ 0 < (libcCall w p libc).1)
  · have hrr : ReadyRound w vcom libc p := ⟨hv, hlf, hr⟩
    rw [if_pos hr] at h
    injection h with h1 h2 h3
    refine .inr (.inl ⟨?_, hrr, h2.symm, h3.symm⟩)
    rw [roundFailure, if_neg hv, if_neg hlf, if_pos hrr]
  have hrr : ¬ ReadyRound w vcom libc p := fun h => hr h.2.2
  rw [if_neg hr] at h
  rw [roundFailure, if_neg hv, if_neg hlf, if_neg hrr]
  cases hc : p.clockGettime with
  | error e =>
      rw [hc] at h
      injection h with h1 h2 h3
      refine .inl ⟨e, rfl, h2.symm, h3.symm, hrr, ?_⟩
      rw [if_neg hlf, h1]
  | ok now =>
      rw [hc] at h
      cases he : w.endTime with
      | none =>
          rw [he] at h
          cases h
      | some endTime =>
          rw [he] at h
          simp only at h
          split at h
          · cases h
          · injection h with h1 h2 h3
            exact .inr (.inr ⟨rfl, hrr, h2.symm, h3.symm⟩)

end Round

/-- A call fails before `select_done`, in a round or outside of the loop. -/
def FailsBefore (c : Call) (o : Outside) (e : Int) : Stage → Prop
  | .noStart errno => e = errno
  | .sleep _ tv => (o.libcSelect c.sets tv).1 = -1 ∧ e = o.errno
  | .loop start => LastRound c o start (fun vcom libc p =>
      roundFailure (watchOf c start).1 vcom libc p = some e)
  | _ => False

/-- The call that fails is the `libc_select` of a round. -/
def FailsInLibc (c : Call) (o : Outside) (e : Int) : Stage → Prop
  | .loop start => LastRound c o start (fun vcom libc p =>
      LibcFails (watchOf c start).1 vcom libc p ∧ e = p.errno)
  | _ => False

/-- A ready round puts other sets in the place of those of the caller. -/
def ChangesSets (c : Call) (o : Outside) : Stage → Prop
  | .loop start => LastRound c o start (fun vcom libc p =>
      ReadyRound (watchOf c start).1 vcom libc p ∧
        (mergedIn (watchOf c start).1 vcom libc p).sets ≠ c.sets)
  | _ => False

def ReadsClock (c : Call) (o : Outside) : Stage → Prop
  | .noInit _ | .badNfds _ => c.timeout ≠ none
  | .sleep _ tv => vcomTimerisvalid (o.libcSelect c.sets tv).2.2 = true
  | .loop start => c.timeout ≠ none ∧ ∀ rv sets, loopRun c start o.polls ≠ some (.exited rv sets true)
  | _ => False

def FailsAtEnd (c : Call) (o : Outside) (e : Int) : Prop :=
  ReadsClock c o (stageOf c o) ∧ o.finish = .error e

/-- Some call that `vcom_select` makes fails with this `errno`. -/
def Fails (c : Call) (o : Outside) (e : Int) : Prop :=
  FailsBefore c o e (stageOf c o) ∨ FailsAtEnd c o e

/-- The failure reaches the caller, and the sets are his. -/
structure Reported (c : Call) (res : Result) (e : Int) : Prop where
  rv : res.rv = -e
  errno : select res = (-1, some e)
  sets : res.sets = c.sets

structure Done (c : Call) (o : Outside) (res : Result) (rv : Int) (sets : SelectSets) : Prop where
  atEnd : ∀ e, FailsAtEnd c o e → res.rv = -e
  kept : (∀ e, ¬ FailsAtEnd c o e) → res.rv = rv
  resSets : res.sets = sets
  failed : ∀ e, FailsBefore c o e (stageOf c o) → sets = c.sets ∧
    (rv = -e ∨ FailsInLibc c o e (stageOf c o))
  libc : ∀ e, FailsInLibc c o e (stageOf c o) → FailsBefore c o e (stageOf c o) ∧ rv = e
  changed : sets ≠ c.sets ↔ ChangesSets c o (stageOf c o)

/-- The `errno` of a failed call is positive. -/
structure Errnos (o : Outside) : Prop where
  sleep : 0 < o.errno
  start : ∀ e, o.start = .error e → 0 < e
  finish : ∀ e, o.finish = .error e → 0 < e
  select : ∀ p ∈ o.polls, 0 < p.errno
  clock : ∀ p ∈ o.polls, ∀ e, p.clockGettime = .error e → 0 < e

/-- `libc_select` without a descriptor leaves empty sets as they are. -/
def LeavesEmpty (o : Outside) : Prop :=
  ∀ s tv, (∀ k, fdSetIszero s k = true) → (o.libcSelect s tv).2.1 = s

variable {c : Call} {o : Outside} {res : Result}

theorem failsBefore_pos (he : Errnos o) {e : Int} (h : FailsBefore c o e (stageOf c o)) :
    0 < e := by
  cases hst : stageOf c o with
  | noStart errno =>
      rw [hst] at h
      have h' : e = errno := h
      exact he.start e (h' ▸ noStart_of_stageOf hst)
  | sleep start tv =>
      rw [hst] at h
      exact h.2 ▸ he.sleep
  | loop start =>
      rw [hst] at h
      obtain ⟨front, p, vcom, libc, hp, -, hf⟩ := h
      have hm : p ∈ o.polls := hp ▸ List.mem_append_right _ List.mem_cons_self
      rw [roundFailure] at hf
      split at hf
      · next hv =>
          have := hv.2
          obtain rfl := Option.some.inj hf
          omega
      split at hf
      · exact Option.some.inj hf ▸ he.select p hm
      split at hf
      · exact absurd hf.symm (Option.some_ne_none e)
      split at hf
      · next hc => exact he.clock p hm e (Option.some.inj hf ▸ hc)
      · exact absurd hf.symm (Option.some_ne_none e)
  | _ =>
      rw [hst] at h
      exact h.elim

theorem done_of {endTime : Timespec} {timeout : Option Timeval} {timedout failed : Bool} {rv : Int}
    {sets : SelectSets} (hres : res = selectDone o.finish endTime timeout timedout failed rv sets)
    (hreads : ReadsClock c o (stageOf c o) ↔ ReadsAt timeout timedout failed)
    (hfailed : ∀ e, FailsBefore c o e (stageOf c o) → sets = c.sets ∧
      (rv = -e ∨ FailsInLibc c o e (stageOf c o)))
    (hlibc : ∀ e, FailsInLibc c o e (stageOf c o) → FailsBefore c o e (stageOf c o) ∧ rv = e)
    (hchanged : sets ≠ c.sets ↔ ChangesSets c o (stageOf c o)) : Done c o res rv sets where
  atEnd e h := by
    rw [hres, h.2]
    exact selectDone_error _ _ _ (hreads.mp h.1)
  kept h := by
    rw [hres]
    cases hf : o.finish with
    | ok now => exact selectDone_ok _ _ _ now
    | error e => exact selectDone_unread _ _ _ _ (fun hr => h e ⟨hreads.mpr hr, hf⟩)
  resSets := hres ▸ selectDone_sets _ _ _ _ _ _ _
  failed := hfailed
  libc := hlibc
  changed := hchanged

theorem readsAt_iff (hb : stageOf c o ≠ .bogusTime) (timedout : Bool) :
    ReadsAt c.timeout timedout false ↔ c.timeout ≠ none ∧ timedout = false := by
  rw [ReadsAt, Option.ne_none_iff_exists']
  constructor
  · rintro ⟨⟨tv, ht, -⟩, h, -⟩
    exact ⟨⟨tv, ht⟩, h⟩
  · rintro ⟨⟨tv, ht⟩, h⟩
    exact ⟨⟨tv, ht, timeout_valid hb ht⟩, h, rfl⟩

theorem done_loop {start : Timespec} {rv : Int} {sets : SelectSets} {timedout : Bool}
    (hst : stageOf c o = .loop start)
    (hr : loopRun c start o.polls = some (.exited rv sets timedout))
    (hres : res = selectDone o.finish (deadline c start) c.timeout timedout false rv sets) :
    Done c o res rv sets := by
  obtain ⟨front, p, vcom, libc, hp, hl, hround⟩ := loopRun_exited hr
  apply done_of hres
  · rw [hst, readsAt_iff (by rw [hst]; exact Stage.noConfusion) timedout]
    apply and_congr_right
    intro _
    cases timedout with
    | true => exact iff_of_false (fun h => h _ _ hr) (fun h => absurd h (by decide))
    | false =>
        apply iff_of_true _ rfl
        intro rv' sets' hr'
        cases hr.symm.trans hr'
  · intro e he
    rw [hst] at he ⊢
    have hf := (lastRound_iff hp hl).mp he
    obtain ⟨e', hf', hs, -, -, hrv⟩ | ⟨hf', -⟩ | ⟨hf', -⟩ := pollRound_exited hround
    · obtain rfl := Option.some.inj (hf'.symm.trans hf)
      refine ⟨hs, ?_⟩
      by_cases hlf : LibcFails (watchOf c start).1 vcom libc p
      · right
        exact (lastRound_iff hp hl).mpr
          ⟨hlf, Option.some.inj (hf.symm.trans (roundFailure_of_libc hlf))⟩
      · left
        rwa [if_neg hlf] at hrv
    · exact absurd (hf.symm.trans hf') (Option.some_ne_none e)
    · exact absurd (hf.symm.trans hf') (Option.some_ne_none e)
  · intro e he
    rw [hst] at he ⊢
    obtain ⟨hlf, rfl⟩ := (lastRound_iff hp hl).mp he
    have hf := roundFailure_of_libc hlf
    refine ⟨(lastRound_iff hp hl).mpr hf, ?_⟩
    obtain ⟨e', hf', -, -, -, hrv⟩ | ⟨hf', -⟩ | ⟨hf', -⟩ := pollRound_exited hround
    · rw [hrv, if_pos hlf]
      exact Option.some.inj (hf'.symm.trans hf)
    · exact absurd (hf.symm.trans hf') (Option.some_ne_none _)
    · exact absurd (hf.symm.trans hf') (Option.some_ne_none _)
  · rw [hst]
    refine Iff.trans ?_ (lastRound_iff hp hl).symm
    obtain ⟨-, -, hs, -, hr, -⟩ | ⟨-, hr, hs, -⟩ | ⟨-, hr, hs, -⟩ := pollRound_exited hround
    · exact iff_of_false (fun h => h hs) (fun h => hr h.1)
    · rw [hs]
      exact ⟨fun h => ⟨hr, h⟩, fun h => h.2⟩
    · exact iff_of_false (fun h => h hs) (fun h => hr h.1)

theorem done_sleep {start : Timespec} {tv : Timeval} (hleaves : LeavesEmpty o)
    (hst : stageOf c o = .sleep start tv)
    (hres : res = selectDone o.finish (deadline c start) (some (o.libcSelect c.sets tv).2.2) false
      false (if (o.libcSelect c.sets tv).1 = -1 then -o.errno else (o.libcSelect c.sets tv).1)
      (o.libcSelect c.sets tv).2.1) :
    Done c o res (if (o.libcSelect c.sets tv).1 = -1 then -o.errno else (o.libcSelect c.sets tv).1)
      (o.libcSelect c.sets tv).2.1 := by
  obtain ⟨⟨-, hread, hwrite, hexcept⟩, -⟩ := sleep_of_stageOf hst
  have hsets : (o.libcSelect c.sets tv).2.1 = c.sets := by
    apply hleaves
    intro k
    cases k with
    | read => exact hread
    | write => exact hwrite
    | except => exact hexcept
  apply done_of hres
  · rw [hst]
    constructor
    · exact fun h => ⟨⟨_, rfl, h⟩, rfl, rfl⟩
    · rintro ⟨⟨tv', ht, h⟩, -, -⟩
      rw [← Option.some.inj ht] at h
      exact h
  · intro e he
    rw [hst] at he
    refine ⟨hsets, .inl ?_⟩
    rw [if_pos he.1, he.2]
  · intro e he
    rw [hst] at he
    exact he.elim
  · rw [hst]
    exact iff_of_false (fun h => h hsets) (fun h => h.elim)

theorem done_early {endTime : Timespec} {timeout : Option Timeval} {failed : Bool} {rv : Int}
    (hres : res = selectDone o.finish endTime timeout false failed rv c.sets)
    (hreads : ReadsClock c o (stageOf c o) ↔ ReadsAt timeout false failed)
    (hfailed : ∀ e, FailsBefore c o e (stageOf c o) → rv = -e)
    (hlibc : ∀ e, ¬ FailsInLibc c o e (stageOf c o)) (hchanged : ¬ ChangesSets c o (stageOf c o)) :
    Done c o res rv c.sets := by
  apply done_of hres hreads
  · exact fun e h => ⟨rfl, .inl (hfailed e h)⟩
  · exact fun e h => absurd h (hlibc e)
  · exact iff_of_false (fun h => h rfl) hchanged

theorem done_of_returns (hleaves : LeavesEmpty o) (h : Returns c o res (stageOf c o)) :
    ∃ rv sets, Done c o res rv sets := by
  cases hst : stageOf c o with
  | loop start =>
      rw [hst] at h
      obtain ⟨rv, sets, timedout, hr, hres⟩ := h
      exact ⟨rv, sets, done_loop hst hr hres⟩
  | sleep start tv =>
      rw [hst] at h
      exact ⟨_, _, done_sleep hleaves hst h⟩
  | noStart e =>
      rw [hst] at h
      refine ⟨_, _, done_early h ?_ ?_ ?_ ?_⟩ <;> rw [hst]
      · exact iff_of_false (fun h => h) (fun h => absurd h.2.2 (by decide))
      · rintro e' rfl
        rfl
      · exact fun _ h => h
      · exact fun h => h
  | bogusTime =>
      obtain ⟨tv, ht, hv⟩ := bogusTime_of_stageOf hst
      rw [hst] at h
      refine ⟨_, _, done_early h ?_ ?_ ?_ ?_⟩ <;> rw [hst]
      · apply iff_of_false (fun h => h)
        rintro ⟨⟨tv', ht', hv'⟩, -⟩
        obtain rfl := Option.some.inj (ht.symm.trans ht')
        exact Bool.false_ne_true (hv.symm.trans hv')
      · exact fun _ h => h.elim
      · exact fun _ h => h
      · exact fun h => h
  | forever start =>
      rw [hst] at h
      refine ⟨_, _, done_early h ?_ ?_ ?_ ?_⟩ <;> rw [hst]
      · apply iff_of_false (fun h => h)
        rintro ⟨⟨tv, ht, -⟩, -⟩
        exact Option.some_ne_none tv ht.symm
      · exact fun _ h => h.elim
      · exact fun _ h => h
      · exact fun h => h
  | noInit start | badNfds start =>
      rw [hst] at h
      have hb : stageOf c o ≠ .bogusTime := by
        rw [hst]
        exact Stage.noConfusion
      refine ⟨_, _, done_early h ?_ ?_ ?_ ?_⟩ <;> rw [hst]
      · exact (((readsAt_iff hb false).trans (and_iff_left rfl))).symm
      · exact fun _ h => h.elim
      · exact fun _ h => h
      · exact fun h => h

/-- Where `libc_select` fails in a round, the reading at the end fails with the same `errno`.
And where that reading fails, no other call has failed with another one, and no ready round
has put other sets in the place of those of the caller. -/
structure Agree (c : Call) (o : Outside) : Prop where
  libc : ∀ e, FailsInLibc c o e (stageOf c o) → FailsAtEnd c o e
  atEnd : ∀ e, FailsAtEnd c o e →
    (∀ e', FailsBefore c o e' (stageOf c o) → e' = e) ∧ ¬ ChangesSets c o (stageOf c o)

theorem reported_of_rv {e : Int} (h0 : 0 < e) (hrv : res.rv = -e) (hs : res.sets = c.sets) :
    Reported c res e := by
  refine ⟨hrv, ?_, hs⟩
  rw [select, hrv, if_pos (by omega), Int.neg_neg]

theorem failures_reported_iff (he : Errnos o) (hleaves : LeavesEmpty o)
    (hr : vcomSelect c o = some res) :
    (∀ e, Fails c o e → Reported c res e) ↔ Agree c o := by
  obtain ⟨rv, sets, d⟩ := done_of_returns hleaves (returns_of_vcomSelect hr)
  have same : ∀ e e', FailsAtEnd c o e → FailsAtEnd c o e' → e = e' :=
    fun e e' h h' => Except.error.inj (h.2.symm.trans h'.2)
  by_cases hend : ∃ e, FailsAtEnd c o e
  · obtain ⟨e, hend⟩ := hend
    have hrv := d.atEnd e hend
    constructor
    · intro h
      have before : ∀ e', FailsBefore c o e' (stageOf c o) → e' = e := by
        intro e' hb
        have := (h e' (.inl hb)).rv
        omega
      constructor
      · intro e' hl
        rwa [before e' (d.libc e' hl).1]
      · intro e' hend'
        rw [same e' e hend' hend]
        refine ⟨before, fun hc => d.changed.mpr hc ?_⟩
        rw [← d.resSets]
        exact (h e (.inr hend)).sets
    · intro h e' hf
      obtain ⟨hbefore, hsets⟩ := h.atEnd e hend
      have hee : e' = e := by
        obtain hf | hf := hf
        · exact hbefore e' hf
        · exact same e' e hf hend
      rw [hee]
      apply reported_of_rv (he.finish e hend.2) hrv
      rw [d.resSets]
      by_contra hne
      exact hsets (d.changed.mp hne)
  · rw [not_exists] at hend
    have hrv := d.kept hend
    constructor
    · intro h
      refine ⟨fun e hl => ?_, fun e h => absurd h (hend e)⟩
      obtain ⟨hb, hre⟩ := d.libc e hl
      have hpos := failsBefore_pos he hb
      have := (h e (.inl hb)).rv
      omega
    · intro h e hf
      obtain hb | hf := hf
      · obtain ⟨hs, hv | hl⟩ := d.failed e hb
        · exact reported_of_rv (failsBefore_pos he hb) (hrv.trans hv) (d.resSets.trans hs)
        · exact absurd (h.libc e hl) (hend e)
      · exact absurd hf (hend e)

def waitOnZero : Call :=
  ⟨fun _ => none, 1, fun k => if k = .read then some (fun fd => fd == 0) else none, none⟩

def interrupted : Poll := ⟨fun _ s => (0, s), fun _ s => (-1, s), 4, .ok ⟨0, 0⟩⟩

def interruptedOutside : Outside :=
  { start := .ok ⟨0, 0⟩
    vcomInit := 0
    libcSelect := fun s tv => (0, s, tv)
    errno := 4
    polls := [interrupted]
    finish := .ok ⟨0, 0⟩ }

theorem interrupted_errnos : Errnos interruptedOutside where
  sleep := by decide
  start _ h := by cases h
  finish _ h := by cases h
  select p hp := by rw [List.mem_singleton.mp hp]; decide
  clock p hp _ h := by rw [List.mem_singleton.mp hp] at h; cases h

theorem failures_reported_iff_sample :
    (∀ e, Fails waitOnZero interruptedOutside e → Reported waitOnZero ⟨4, waitOnZero.sets, none⟩ e) ↔
      Agree waitOnZero interruptedOutside :=
  failures_reported_iff interrupted_errnos (fun _ _ _ => rfl) rfl

/-- The interrupted call returns 4. -/
theorem interrupted_as_success : ∃ res, vcomSelect waitOnZero interruptedOutside = some res ∧
    ¬ ∀ e, Fails waitOnZero interruptedOutside e → Reported waitOnZero res e := by
  refine ⟨⟨4, waitOnZero.sets, none⟩, rfl, fun h => ?_⟩
  have hf : Fails waitOnZero interruptedOutside 4 :=
    .inl ⟨[], interrupted, _, _, rfl, rfl, rfl⟩
  exact absurd (h 4 hf).rv (by decide)

end Vppsb.VcomFailures
