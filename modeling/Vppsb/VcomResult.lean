import Vppsb.VcomExits
import Vppsb.VcomPolling

namespace Vppsb.VcomResult

open Vppsb.StepRun Vppsb.FdSets Vppsb.VcomSelect Vppsb.VcomExits Vppsb.VcomRounds
  Vppsb.VcomPolling

structure Succeeds (c : Call) (o : Outside) (xs : List (Poll × Ready)) : Prop where
  size : Below fdSetSize c.sets
  sids : HasSids c
  start : ∃ now, o.start = .ok now
  init : o.vcomInit = 0
  sleep : ∀ s tv, ¬ AnySet s → (o.libcSelect s tv).1 = 0 ∧ (o.libcSelect s tv).2.1 = s
  polls : o.polls = roundsOf xs
  answers : AllAnswer xs
  finish : ∃ now, o.finish = .ok now

def readyLast (c : Call) (xs : List (Poll × Ready)) (k : FdKind) (fd : Nat) : Bool :=
  xs.getLast?.any (fun x => readyIn c x.2 k fd)

/-- The sets hold what the last round has found ready of the watched
descriptors, and the result counts their bits: none after a timeout, where it
is 0. -/
def ReportsReady (c : Call) (xs : List (Poll × Ready)) (rv : Int) (sets : SelectSets) : Prop :=
  (∀ k fd, isSet sets k fd = true ↔ Watched c k fd ∧ readyLast c xs k fd = true) ∧
    rv = bitCount fdSetSize sets

def VcomReady (c : Call) (r : Ready) : Prop := AnySet (readySids c.sockets (vcomPart c) r.sid)

def KernelReady (c : Call) (r : Ready) : Prop := AnySet (restrict (kernelPart c) r.fd)

/-- The last round is one of those that end well. With something ready for vcom
it is the first one or has nothing ready for the kernel. With something ready
for the kernel alone it is the first one and no socket of vcom is watched. All
others end with a timeout, and no descriptor is in the sets. -/
def EndsWell (c : Call) (xs : List (Poll × Ready)) : Prop :=
  ∀ x, xs.getLast? = some x →
    (VcomReady c x.2 → xs.length = 1 ∨ ¬ KernelReady c x.2) ∧
    (¬ VcomReady c x.2 → xs.length = 1 → KernelReady c x.2 → ¬ AnySet (vcomPart c)) ∧
    (¬ VcomReady c x.2 → ¬ (xs.length = 1 ∧ KernelReady c x.2) → ¬ AnySet c.sets)

theorem run_exited {w : Watch} {vcom libc : SelectSets} {xs : List (Poll × Ready)} {rv : Int}
    {sets : SelectSets} {timedout : Bool}
    (hr : run (pollRound w) (.polling vcom libc) (roundsOf xs) = some (.exited rv sets timedout)) :
    ∃ ys x v l, xs = ys ++ [x] ∧
      run (pollRound w) (.polling vcom libc) (roundsOf ys) = some (.polling v l) ∧
      pollRound w (.polling v l) x.1 = some (.exited rv sets timedout) := by
  obtain rfl | ⟨ys, x, rfl⟩ := List.eq_nil_or_concat xs
  · cases hr
  · rw [List.concat_eq_append, roundsOf, List.map_append] at hr
    obtain ⟨t, ht, hlast⟩ := run_append_eq_some.mp hr
    obtain ⟨u, hu, hnil⟩ := run_cons_eq_some.mp hlast
    cases hnil
    cases t with
    | polling v l => exact ⟨ys, x, v, l, List.concat_eq_append, ht, hu⟩
    | exited => cases hu

section Last

variable {c : Call} {start : Timespec} {ys : List (Poll × Ready)} {x : Poll × Ready}

theorem watched_ready_iff (c : Call) (r : Ready) (k : FdKind) (fd : Nat) :
    Watched c k fd ∧ readyIn c r k fd = true ↔
      isSet (readySids c.sockets (vcomPart c) r.sid) k fd = true ∨
      isSet (restrict (kernelPart c) r.fd) k fd = true := by
  simp only [Watched, readyIn, readySids, vcomPart, kernelPart, isSet_restrict, Bool.and_eq_true,
    decide_eq_true_eq, Bool.not_eq_true']
  cases isVcomSocketFd c.sockets fd <;> simp

theorem readyLast_append (k : FdKind) (fd : Nat) :
    readyLast c (ys ++ [x]) k fd = readyIn c x.2 k fd := by
  simp [readyLast]

theorem merged_reports (hs : HasSids c) (hn : c.nfds.toNat ≤ fdSetSize) {v l : SelectSets}
    (hv : ∀ k fd, isSet v k fd = true → isSet (vcomPart c) k fd = true)
    (hvp : ∀ k, present v k = present c.sets k)
    (hl : ∀ k fd, isSet l k fd = true → isSet (kernelPart c) k fd = true)
    (hlp : ∀ k, present l k = present c.sets k) :
    ReportsReady c (ys ++ [x]) (merged (watchOf c start).1 v l).nfd
        (merged (watchOf c start).1 v l).sets ↔
      ∀ k fd, isSet v k fd = true ∨ isSet l k fd = true ↔
        isSet (readySids c.sockets (vcomPart c) x.2.sid) k fd = true ∨
        isSet (restrict (kernelPart c) x.2.fd) k fd = true := by
  have hf := watchOf_fits hs start
  have hbv : Below (watchOf c start).1.vcomNfds v := fun k fd h => hf.bound.below k fd (hv k fd h)
  have hbl : Below (watchOf c start).1.libcNfds l := fun k fd h => hf.below k fd (hl k fd h)
  have hbit : ∀ k fd, isSet (merged (watchOf c start).1 v l).sets k fd = true ↔
      isSet v k fd = true ∨ isSet l k fd = true := isSet_merge hvp hlp hbv hbl
  have hcount : ((merged (watchOf c start).1 v l).nfd : Int) =
      bitCount fdSetSize (merged (watchOf c start).1 v l).sets := by
    refine congrArg Int.ofNat (nfd_merge hvp hlp hbv hbl
      ((watchOf_vcomNfds_le c start).trans hn) ((watchOf_libcNfds_le c start).trans hn) ?_)
    intro k fd h
    have hk := vcomPart_kernelPart c k fd (hv k fd h)
    cases hlk : isSet l k fd with
    | false => rfl
    | true => rw [hl k fd hlk] at hk; cases hk
  simp only [ReportsReady, hbit, readyLast_append, watched_ready_iff]
  exact ⟨fun h => h.1, fun h => ⟨h, hcount⟩⟩

theorem endsWell_append : EndsWell c (ys ++ [x]) ↔
    (VcomReady c x.2 → ys = [] ∨ ¬ KernelReady c x.2) ∧
    (¬ VcomReady c x.2 → ys = [] → KernelReady c x.2 → ¬ AnySet (vcomPart c)) ∧
    (¬ VcomReady c x.2 → ¬ (ys = [] ∧ KernelReady c x.2) → ¬ AnySet c.sets) := by
  simp [EndsWell]

theorem handed_kernel {l : SelectSets}
    (hl : l = if ys = [] then kernelPart c else zeroSets (kernelPart c)) (r : Ready) :
    (∀ k fd, isSet (restrict l r.fd) k fd = true ↔
      ys = [] ∧ isSet (restrict (kernelPart c) r.fd) k fd = true) ∧
    (∀ k, present (restrict l r.fd) k = present c.sets k) := by
  subst hl
  by_cases hnil : ys = []
  · simp [hnil, kernelPart]
  · simp [hnil, kernelPart]

theorem last_vcom (hs : HasSids c) (hn : c.nfds.toNat ≤ fdSetSize) {l : SelectSets}
    (hl : l = if ys = [] then kernelPart c else zeroSets (kernelPart c))
    (hv : VcomReady c x.2) :
    ReportsReady c (ys ++ [x])
      (merged (watchOf c start).1 (readySids c.sockets (vcomPart c) x.2.sid) (restrict l x.2.fd)).nfd
      (merged (watchOf c start).1 (readySids c.sockets (vcomPart c) x.2.sid) (restrict l x.2.fd)).sets
      ↔ EndsWell c (ys ++ [x]) := by
  obtain ⟨hlb, hlp⟩ := handed_kernel hl x.2
  rw [merged_reports hs hn (fun k fd h => by
      rw [readySids, isSet_restrict, Bool.and_eq_true] at h; exact h.1)
    (present_readySids c x.2) (fun k fd h => by
      have := ((hlb k fd).mp h).2
      rw [isSet_restrict, Bool.and_eq_true] at this
      exact this.1) hlp, endsWell_append]
  constructor
  · intro h
    refine ⟨fun _ => ?_, fun hnv => absurd hv hnv, fun hnv => absurd hv hnv⟩
    by_cases hnil : ys = []
    · exact Or.inl hnil
    · refine Or.inr fun hk => ?_
      obtain ⟨k, fd, hk⟩ := hk
      obtain h1 | h1 := (h k fd).mpr (Or.inr hk)
      · have hvp : isSet (vcomPart c) k fd = true := by
          rw [readySids, isSet_restrict, Bool.and_eq_true] at h1
          exact h1.1
        rw [isSet_restrict, vcomPart_kernelPart c k fd hvp] at hk
        cases hk
      · exact hnil ((hlb k fd).mp h1).1
  · intro h k fd
    refine or_congr_right ((hlb k fd).trans ⟨fun h => h.2, fun hk => ⟨?_, hk⟩⟩)
    exact (h.1 hv).resolve_right fun hnk => hnk ⟨k, fd, hk⟩

theorem last_kernel (hs : HasSids c) (hn : c.nfds.toNat ≤ fdSetSize) {l : SelectSets}
    (hl : l = if ys = [] then kernelPart c else zeroSets (kernelPart c))
    (hv : ¬ VcomReady c x.2) (hk : AnySet (restrict l x.2.fd)) :
    ReportsReady c (ys ++ [x]) (merged (watchOf c start).1 (vcomPart c) (restrict l x.2.fd)).nfd
      (merged (watchOf c start).1 (vcomPart c) (restrict l x.2.fd)).sets
      ↔ EndsWell c (ys ++ [x]) := by
  obtain ⟨hlb, hlp⟩ := handed_kernel hl x.2
  obtain ⟨k₀, fd₀, hk₀⟩ := hk
  obtain ⟨hnil, hk₀⟩ := (hlb k₀ fd₀).mp hk₀
  have hkr : KernelReady c x.2 := ⟨k₀, fd₀, hk₀⟩
  rw [merged_reports hs hn (fun _ _ h => h) (fun k => by simp [vcomPart]) (fun k fd h => by
      have := ((hlb k fd).mp h).2
      rw [isSet_restrict, Bool.and_eq_true] at this
      exact this.1) hlp, endsWell_append]
  have hnone : ∀ k fd, ¬ isSet (readySids c.sockets (vcomPart c) x.2.sid) k fd = true :=
    fun k fd h => hv ⟨k, fd, h⟩
  constructor
  · intro h
    refine ⟨fun h' => absurd h' hv, fun _ _ _ hvp => ?_, fun _ hn' => absurd ⟨hnil, hkr⟩ hn'⟩
    obtain ⟨k, fd, hvp⟩ := hvp
    have hkp := ((h k fd).mp (Or.inl hvp)).resolve_left (hnone k fd)
    rw [isSet_restrict, vcomPart_kernelPart c k fd hvp] at hkp
    cases hkp
  · intro h k fd
    have hempty := h.2.1 hv hnil hkr
    constructor
    · rintro (hvp | hlk)
      · exact absurd ⟨k, fd, hvp⟩ hempty
      · exact Or.inr ((hlb k fd).mp hlk).2
    · rintro (hvr | hkk)
      · exact absurd hvr (hnone k fd)
      · exact Or.inr ((hlb k fd).mpr ⟨hnil, hkk⟩)

theorem last_timeout (hsize : Below fdSetSize c.sets) {l : SelectSets}
    (hl : l = if ys = [] then kernelPart c else zeroSets (kernelPart c))
    (hv : ¬ VcomReady c x.2) (hk : ¬ AnySet (restrict l x.2.fd)) :
    ReportsReady c (ys ++ [x]) 0 c.sets ↔ EndsWell c (ys ++ [x]) := by
  obtain ⟨hlb, _⟩ := handed_kernel hl x.2
  have hnk : ¬ (ys = [] ∧ KernelReady c x.2) := by
    rintro ⟨hnil, k, fd, h⟩
    exact hk ⟨k, fd, (hlb k fd).mpr ⟨hnil, h⟩⟩
  rw [endsWell_append]
  constructor
  · rintro ⟨_, hc⟩
    refine ⟨fun h' => absurd h' hv, fun _ hnil hkr => absurd ⟨hnil, hkr⟩ hnk, fun _ _ hany => ?_⟩
    have := (bitCount_pos hsize).mpr hany
    omega
  · intro h
    have hempty := h.2.2 hv hnk
    refine ⟨fun k fd => ⟨fun hb => absurd ⟨k, fd, hb⟩ hempty, fun hb => hb.1.1⟩, ?_⟩
    have := mt (bitCount_pos hsize).mp hempty
    omega

theorem last_round_iff (hs : HasSids c) (hn : c.nfds.toNat ≤ fdSetSize)
    (hsize : Below fdSetSize c.sets) {l : SelectSets}
    (hl : l = if ys = [] then kernelPart c else zeroSets (kernelPart c)) (ha : Answers x.1 x.2)
    {rv : Int} {sets : SelectSets} {timedout : Bool}
    (hr : pollRound (watchOf c start).1 (.polling (vcomPart c) l) x.1 =
      some (.exited rv sets timedout)) :
    ReportsReady c (ys ++ [x]) rv sets ↔ EndsWell c (ys ++ [x]) := by
  have hf : Fits (watchOf c start).1 (vcomPart c) l := by
    subst hl
    split
    · exact watchOf_fits hs start
    · exact Fits.zero (watchOf_fits hs start)
  by_cases hv : VcomReady c x.2
  · rw [pollRound_vcom hf ha hv] at hr
    cases hr
    exact last_vcom hs hn hl hv
  · by_cases hk : AnySet (restrict l x.2.fd)
    · rw [pollRound_libc hf ha hv hk] at hr
      cases hr
      exact last_kernel hs hn hl hv hk
    · obtain hi | hi := pollRound_idle hf ha hv hk
      · rw [hi] at hr
        cases hr
      · rw [hi] at hr
        cases hr
        exact last_timeout hsize hl hv hk

end Last

theorem early_eq {o : Outside} {now : Timespec} (h : o.finish = .ok now) {endTime : Timespec}
    {timeout : Option Timeval} {failed : Bool} {rv : Int} {sets : SelectSets} {res : Result}
    (hr : (if o.polls.isEmpty then some (selectDone o.finish endTime timeout false failed rv sets)
      else none) = some res) : o.polls = [] ∧ res.rv = rv ∧ res.sets = sets := by
  split at hr
  · next hp =>
      obtain rfl := Option.some.inj hr
      rw [h]
      exact ⟨List.isEmpty_iff.mp hp, selectDone_ok _ _ _ now, selectDone_sets _ _ _ _ _ _ _⟩
  · cases hr

theorem fdSetIszero_iff {s : SelectSets} (hsize : Below fdSetSize s) (k : FdKind) :
    fdSetIszero s k = true ↔ ∀ fd, isSet s k fd = false := by
  simp only [fdSetIszero, List.all_eq_true, List.mem_range, Bool.not_eq_true']
  constructor
  · intro h fd
    cases hb : isSet s k fd with
    | false => rfl
    | true => rw [h fd (hsize k fd hb)] at hb; cases hb
  · exact fun h fd _ => h fd

theorem not_anySet_of_iszero {s : SelectSets} (hsize : Below fdSetSize s)
    (h : fdSetIszero s .read ∧ fdSetIszero s .write ∧ fdSetIszero s .except) : ¬ AnySet s := by
  obtain ⟨hread, hwrite, hexcept⟩ := h
  rintro ⟨k, fd, hb⟩
  have hz : isSet s k fd = false := by
    cases k with
    | read => exact (fdSetIszero_iff hsize _).mp hread fd
    | write => exact (fdSetIszero_iff hsize _).mp hwrite fd
    | except => exact (fdSetIszero_iff hsize _).mp hexcept fd
  rw [hz] at hb
  cases hb

theorem reports_nothing {c : Call} (hsize : Below fdSetSize c.sets) (hempty : ¬ AnySet c.sets) :
    ReportsReady c [] 0 c.sets := by
  refine ⟨fun k fd => ⟨fun hb => absurd ⟨k, fd, hb⟩ hempty, fun hb => hb.1.1⟩, ?_⟩
  have hzero := mt (bitCount_pos hsize).mp hempty
  omega

/-- The polling loop of a call. -/
theorem loop_reports_iff {c : Call} {start : Timespec} {xs : List (Poll × Ready)} (hs : HasSids c)
    (hn : c.nfds.toNat ≤ fdSetSize) (hsize : Below fdSetSize c.sets) (hx : AllAnswer xs) {rv : Int}
    {sets : SelectSets} {timedout : Bool}
    (hr : run (pollRound (watchOf c start).1) (.polling (vcomPart c) (kernelPart c)) (roundsOf xs) =
      some (.exited rv sets timedout)) : ReportsReady c xs rv sets ↔ EndsWell c xs := by
  obtain ⟨ys, x, v, l, rfl, hys, hlast⟩ := run_exited hr
  have hans : AllAnswer ys := fun y hy => hx y (List.mem_append_left _ hy)
  obtain ⟨rfl, hl⟩ := run_polling (watchOf_fits hs start) hans hys
  exact last_round_iff hs hn hsize hl (hx x (by simp)) hlast

/-- A call in which nothing fails reports just what is ready in its last round
if and only if that round is one of those that end well. -/
theorem select_reports_iff (c : Call) (o : Outside) (xs : List (Poll × Ready))
    (hs : Succeeds c o xs) (res : Result) (hr : vcomSelect c o = some res) (hrv : 0 ≤ res.rv) :
    ReportsReady c xs res.rv res.sets ↔ EndsWell c xs := by
  obtain ⟨hsize, hsids, ⟨start, hstart⟩, hinit, hsleep, hpolls, hx, ⟨fin, hfin⟩⟩ := hs
  simp only [vcomSelect, hstart, hinit, ne_eq, not_true_eq_false, if_false] at hr
  split at hr
  · obtain ⟨_, h, _⟩ := early_eq hfin hr
    rw [h] at hrv
    exact absurd hrv (by decide)
  split at hr
  · obtain ⟨_, h, _⟩ := early_eq hfin hr
    rw [h] at hrv
    exact absurd hrv (by decide)
  rename_i _ hnfds
  rw [not_or] at hnfds
  have hn : c.nfds.toNat ≤ fdSetSize := by
    have := hnfds.2
    omega
  split at hr
  · rename_i hidle
    have hempty := not_anySet_of_iszero hsize hidle.2
    cases htime : c.timeout with
    | none =>
      simp only [htime] at hr
      obtain ⟨_, h, _⟩ := early_eq hfin hr
      rw [h] at hrv
      exact absurd hrv (by decide)
    | some tv =>
      simp only [htime] at hr
      obtain ⟨hp, h, hsets⟩ := early_eq hfin hr
      obtain ⟨hz, hsame⟩ := hsleep c.sets tv hempty
      rw [hz, if_neg (by decide)] at h
      rw [hsame] at hsets
      have hnil : xs = [] := List.map_eq_nil_iff.mp (hpolls.symm.trans hp)
      rw [hnil, h, hsets]
      exact iff_of_true (reports_nothing hsize hempty) fun x hx =>
        absurd hx.symm (Option.some_ne_none x)
  · have hw : watchOf c start = ((watchOf c start).1, vcomPart c, kernelPart c) :=
      Prod.ext rfl (watchOf_sets c start)
    rw [hpolls, hw] at hr
    split at hr
    · rename_i rv sets timedout hrun
      obtain rfl := Option.some.inj hr
      rw [hfin, selectDone_ok, selectDone_sets]
      exact loop_reports_iff hsids hn hsize hx hrun
    · cases hr

def mixedCall : Call :=
  ⟨oneSocket, 4, fun k => if k = .read then some (fun fd => fd == 1 || fd == 3) else none, none⟩

def calmOutside (xs : List (Poll × Ready)) : Outside :=
  { start := .ok ⟨0, 0⟩
    vcomInit := 0
    libcSelect := fun s _ => (0, s, ⟨0, 0⟩)
    errno := 0
    polls := roundsOf xs
    finish := .ok ⟨0, 0⟩ }

def kernelReady : Ready := ⟨fun _ _ => false, fun _ _ => true⟩

def oneRound (r : Ready) : List (Poll × Ready) := [(exactPoll r, r)]

theorem mixedCall_succeeds (r : Ready) :
    Succeeds mixedCall (calmOutside (oneRound r)) (oneRound r) := by
  refine ⟨fun k fd h => ?_, oneSocket_hasSids rfl, ⟨_, rfl⟩, rfl, fun s _ _ => ⟨rfl, rfl⟩, rfl,
    fun x hx => List.mem_singleton.mp hx ▸ exactPoll_answers r, ⟨_, rfl⟩⟩
  cases k <;> simp [isSet, mixedCall] at h
  obtain rfl | rfl := h <;> decide

theorem select_reports_iff_sample :
    ∃ res, vcomSelect mixedCall (calmOutside (oneRound allReady)) = some res ∧
      (ReportsReady mixedCall (oneRound allReady) res.rv res.sets ↔
        EndsWell mixedCall (oneRound allReady)) :=
  ⟨_, rfl, select_reports_iff mixedCall _ _ (mixedCall_succeeds allReady) _ rfl (by decide)⟩

/-- Only the kernel descriptor is ready, and both are reported. -/
theorem idle_socket_reported :
    Succeeds mixedCall (calmOutside (oneRound kernelReady)) (oneRound kernelReady) ∧
    ∃ res, vcomSelect mixedCall (calmOutside (oneRound kernelReady)) = some res ∧ 0 ≤ res.rv ∧
      ¬ ReportsReady mixedCall (oneRound kernelReady) res.rv res.sets := by
  refine ⟨mixedCall_succeeds kernelReady, _, rfl, by decide, fun h => ?_⟩
  have hready := ((h.1 .read 3).mp (by decide)).2
  exact absurd hready (by decide)

end Vppsb.VcomResult
