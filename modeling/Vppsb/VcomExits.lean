import Vppsb.VcomSelect

namespace Vppsb.VcomExits

open Vppsb.StepRun Vppsb.FdSets Vppsb.VcomSelect

def OnlySleeps (c : Call) : Prop :=
  c.nfds = 0 ∧ fdSetIszero c.sets .read = true ∧ fdSetIszero c.sets .write = true ∧
    fdSetIszero c.sets .except = true

instance (c : Call) : Decidable (OnlySleeps c) := inferInstanceAs (Decidable (_ ∧ _))

/-- How far a call gets: to one of the checks before the polling loop, or to the loop. -/
inductive Stage where
  | bogusTime
  | noStart (errno : Int)
  | noInit (start : Timespec)
  | badNfds (start : Timespec)
  | forever (start : Timespec)
  | sleep (start : Timespec) (tv : Timeval)
  | loop (start : Timespec)

def Stage.start : Stage → Option Timespec
  | .noInit start | .badNfds start | .forever start | .sleep start _ | .loop start => some start
  | _ => none

def stageOf (c : Call) (o : Outside) : Stage :=
  if c.timeout.any (fun tv => !vcomTimerisvalid tv) then .bogusTime
  else match o.start with
  | .error errno => .noStart errno
  | .ok start =>
    if o.vcomInit ≠ 0 then .noInit start
    else if c.nfds < 0 ∨ fdSetSize < c.nfds then .badNfds start
    else if OnlySleeps c then
      match c.timeout with
      | none => .forever start
      | some tv => .sleep start tv
    else .loop start

def loopRun (c : Call) (start : Timespec) (polls : List Poll) : Option LoopState :=
  run (pollRound (watchOf c start).1) (.polling (watchOf c start).2.1 (watchOf c start).2.2) polls

def deadline (c : Call) (start : Timespec) : Timespec :=
  (c.timeout.map (endTimeOf start)).getD ⟨0, 0⟩

def Returns (c : Call) (o : Outside) (res : Result) : Stage → Prop
  | .bogusTime => res = selectDone o.finish ⟨0, 0⟩ c.timeout false false (-einval) c.sets
  | .noStart e => res = selectDone o.finish ⟨0, 0⟩ c.timeout false true (-e) c.sets
  | .noInit start => res = selectDone o.finish (deadline c start) c.timeout false false (-1) c.sets
  | .badNfds start =>
      res = selectDone o.finish (deadline c start) c.timeout false false (-einval) c.sets
  | .forever start => res = selectDone o.finish (deadline c start) none false false (-einval) c.sets
  | .sleep start tv =>
      let r := o.libcSelect c.sets tv
      res = selectDone o.finish (deadline c start) (some r.2.2) false false
        (if r.1 = -1 then -o.errno else r.1) r.2.1
  | .loop start => ∃ rv sets timedout, loopRun c start o.polls = some (.exited rv sets timedout) ∧
      res = selectDone o.finish (deadline c start) c.timeout timedout false rv sets

theorem returns_of_vcomSelect {c : Call} {o : Outside} {res : Result}
    (h : vcomSelect c o = some res) : Returns c o res (stageOf c o) := by
  have early : ∀ {r : Result}, (if o.polls.isEmpty then some r else none) = some res → res = r := by
    intro r hr
    split at hr
    · exact (Option.some.inj hr).symm
    · exact absurd hr.symm (Option.some_ne_none res)
  rw [vcomSelect] at h
  rw [stageOf]
  by_cases hv : c.timeout.any (fun tv => !vcomTimerisvalid tv) = true
  · rw [if_pos hv] at h ⊢
    exact early h
  rw [if_neg hv] at h ⊢
  cases hs : o.start with
  | error e =>
      rw [hs] at h
      exact early h
  | ok start =>
      rw [hs] at h
      simp only at h ⊢
      by_cases hi : o.vcomInit ≠ 0
      · rw [if_pos hi] at h ⊢
        exact early h
      rw [if_neg hi] at h ⊢
      by_cases hn : c.nfds < 0 ∨ fdSetSize < c.nfds
      · rw [if_pos hn] at h ⊢
        exact early h
      rw [if_neg hn] at h ⊢
      by_cases hz : OnlySleeps c
      · rw [if_pos hz]
        rw [OnlySleeps] at hz
        rw [if_pos hz] at h
        cases ht : c.timeout with
        | none =>
            rw [ht] at h
            exact early (by rw [deadline, ht]; exact h)
        | some tv =>
            rw [ht] at h
            exact early (by rw [deadline, ht]; exact h)
      · rw [if_neg hz]
        rw [OnlySleeps] at hz
        rw [if_neg hz] at h
        split at h
        · next rv sets timedout hr =>
            exact ⟨rv, sets, timedout, hr, (Option.some.inj h).symm⟩
        · exact absurd h.symm (Option.some_ne_none res)

def Reaches (c : Call) (o : Outside) : Stage → Prop
  | .bogusTime => ∃ tv, c.timeout = some tv ∧ vcomTimerisvalid tv = false
  | .noStart e => o.start = .error e
  | .noInit start | .badNfds start | .loop start => o.start = .ok start
  | .forever start => o.start = .ok start ∧ c.timeout = none
  | .sleep start tv => o.start = .ok start ∧ OnlySleeps c ∧ c.timeout = some tv

theorem reaches_stageOf (c : Call) (o : Outside) : Reaches c o (stageOf c o) := by
  rw [stageOf]
  by_cases hv : c.timeout.any (fun tv => !vcomTimerisvalid tv) = true
  · rw [if_pos hv]
    obtain ⟨tv, ht, hv⟩ := (Option.any_eq_true _ _).mp hv
    exact ⟨tv, ht, by simpa using hv⟩
  rw [if_neg hv]
  cases hs : o.start with
  | error e => exact hs
  | ok start =>
      dsimp only
      by_cases hi : o.vcomInit ≠ 0
      · rw [if_pos hi]
        exact hs
      rw [if_neg hi]
      by_cases hn : c.nfds < 0 ∨ fdSetSize < c.nfds
      · rw [if_pos hn]
        exact hs
      rw [if_neg hn]
      by_cases hz : OnlySleeps c
      · rw [if_pos hz]
        cases ht : c.timeout with
        | none => exact ⟨hs, ht⟩
        | some tv => exact ⟨hs, hz, ht⟩
      · rw [if_neg hz]
        exact hs

theorem start_of_stageOf {c : Call} {o : Outside} {start : Timespec}
    (h : (stageOf c o).start = some start) : o.start = .ok start := by
  have hr := reaches_stageOf c o
  cases hst : stageOf c o with
  | bogusTime | noStart e =>
      rw [hst] at h
      exact absurd h.symm (Option.some_ne_none start)
  | noInit t | badNfds t | loop t =>
      rw [hst] at h hr
      exact Option.some.inj h ▸ hr
  | forever t | sleep t tv =>
      rw [hst] at h hr
      exact Option.some.inj h ▸ hr.1

theorem bogusTime_of_stageOf {c : Call} {o : Outside} (h : stageOf c o = .bogusTime) :
    ∃ tv, c.timeout = some tv ∧ vcomTimerisvalid tv = false := by
  have hr := reaches_stageOf c o
  rwa [h] at hr

theorem noStart_of_stageOf {c : Call} {o : Outside} {e : Int} (h : stageOf c o = .noStart e) :
    o.start = .error e := by
  have hr := reaches_stageOf c o
  rwa [h] at hr

theorem forever_of_stageOf {c : Call} {o : Outside} {start : Timespec}
    (h : stageOf c o = .forever start) : c.timeout = none := by
  have hr := reaches_stageOf c o
  rw [h] at hr
  exact hr.2

theorem sleep_of_stageOf {c : Call} {o : Outside} {start : Timespec} {tv : Timeval}
    (h : stageOf c o = .sleep start tv) : OnlySleeps c ∧ c.timeout = some tv := by
  have hr := reaches_stageOf c o
  rw [h] at hr
  exact hr.2

def LastRound (c : Call) (o : Outside) (start : Timespec)
    (P : SelectSets → SelectSets → Poll → Prop) : Prop :=
  ∃ front p vcom libc, o.polls = front ++ [p] ∧
    loopRun c start front = some (.polling vcom libc) ∧ P vcom libc p

theorem lastRound_iff {c : Call} {o : Outside} {start : Timespec}
    {P : SelectSets → SelectSets → Poll → Prop} {front : List Poll} {p : Poll}
    {vcom libc : SelectSets} (hp : o.polls = front ++ [p])
    (hl : loopRun c start front = some (.polling vcom libc)) :
    LastRound c o start P ↔ P vcom libc p := by
  constructor
  · rintro ⟨front', p', vcom', libc', hp', hl', h⟩
    obtain ⟨rfl, hpp⟩ := List.append_inj' (hp.symm.trans hp') rfl
    obtain rfl := (List.cons.inj hpp).1
    obtain ⟨rfl, rfl⟩ := LoopState.polling.inj (Option.some.inj (hl.symm.trans hl'))
    exact h
  · exact fun h => ⟨front, p, vcom, libc, hp, hl, h⟩

theorem loopRun_exited {c : Call} {start : Timespec} {polls : List Poll} {rv : Int}
    {sets : SelectSets} {timedout : Bool}
    (h : loopRun c start polls = some (.exited rv sets timedout)) :
    ∃ front p vcom libc, polls = front ++ [p] ∧
      loopRun c start front = some (.polling vcom libc) ∧
      pollRound (watchOf c start).1 (.polling vcom libc) p = some (.exited rv sets timedout) := by
  obtain rfl | ⟨front, p, rfl⟩ := List.eq_nil_or_concat polls
  · cases h
  rw [List.concat_eq_append] at h ⊢
  obtain ⟨t, ht, hlast⟩ := run_append_eq_some.mp h
  obtain ⟨u, hu, hnil⟩ := run_cons_eq_some.mp hlast
  cases hnil
  cases t with
  | polling vcom libc => exact ⟨front, p, vcom, libc, rfl, ht, hu⟩
  | exited => cases hu

theorem timeout_valid {c : Call} {o : Outside} (h : stageOf c o ≠ .bogusTime) {tv : Timeval}
    (ht : c.timeout = some tv) : vcomTimerisvalid tv = true := by
  by_contra hv
  apply h
  rw [stageOf, if_pos]
  rw [ht]
  simpa using hv

section Done

variable (finish : Except Int Timespec) (endTime : Timespec) (timeout : Option Timeval)
  (timedout failed : Bool) (rv : Int) (sets : SelectSets)

theorem selectDone_sets :
    (selectDone finish endTime timeout timedout failed rv sets).sets = sets := by
  cases timeout with
  | none => rfl
  | some tv =>
      simp only [selectDone]
      split
      · split
        · rfl
        · split
          · rfl
          · cases finish <;> rfl
      · rfl

def ReadsAt : Prop :=
  (∃ tv, timeout = some tv ∧ vcomTimerisvalid tv = true) ∧ timedout = false ∧ failed = false

variable {timeout timedout failed}

theorem selectDone_error {e : Int} (h : ReadsAt timeout timedout failed) :
    (selectDone (.error e) endTime timeout timedout failed rv sets).rv = -e := by
  obtain ⟨⟨tv, rfl, hv⟩, rfl, rfl⟩ := h
  simp only [selectDone, if_pos hv]
  rfl

theorem selectDone_ok (now : Timespec) :
    (selectDone (.ok now) endTime timeout timedout failed rv sets).rv = rv := by
  cases timeout with
  | none => rfl
  | some tv =>
      simp only [selectDone]
      split
      · split
        · rfl
        · split <;> rfl
      · rfl

theorem selectDone_unread (h : ¬ ReadsAt timeout timedout failed) :
    (selectDone finish endTime timeout timedout failed rv sets).rv = rv := by
  cases timeout with
  | none => rfl
  | some tv =>
      by_cases hv : vcomTimerisvalid tv = true
      · cases timedout with
        | true => simp only [selectDone, if_pos hv, if_true]
        | false =>
            cases failed with
            | true => simp only [selectDone, if_pos hv, if_true, Bool.false_eq_true, if_false]
            | false => exact absurd ⟨⟨tv, rfl, hv⟩, rfl, rfl⟩ h
      · simp only [selectDone, if_neg hv]

end Done

end Vppsb.VcomExits
