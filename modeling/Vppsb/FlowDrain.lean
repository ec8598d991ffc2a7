import Vppsb.FlowTimers

namespace Vppsb.FlowDrain

open Vppsb.StepRun Vppsb.PoolStore Vppsb.LinkedRing Vppsb.FlowSignature Vppsb.FlowTable
  Vppsb.FlowProcess Vppsb.FlowInvariant Vppsb.FlowExpire Vppsb.FlowWheel Vppsb.FlowLookup
  Vppsb.FlowRun Vppsb.FlowTimers

def NotIp (cmp : AddressCompare) (arrivals : List Arrival) : Prop :=
  ∀ a ∈ arrivals, parsePacket cmp (ethernetType a.buffer)
    (vlibBufferAdvance a.buffer sizeofEthernetHeader) = none

/-- No flow gets a packet, and the clock does not skip a second. -/
def Quiet (cmp : AddressCompare) (s : Timed) : Event → Prop
  | .frame passes now arrivals =>
    arrivals.length ≤ passes ∧ NotIp cmp arrivals ∧ (now = s.clock ∨ now = s.clock + 1)
  | .update _ => True

def frames : List Event → Nat
  | [] => 0
  | .frame _ _ _ :: es => frames es + 1
  | .update _ :: es => frames es

/-- There is no flow, and the lists have no element but the heads of the slots. -/
structure Emptied (fm : FlowtableMain) : Prop where
  flows : ∀ f, ¬ Live fm.flows f
  keys : ∀ k, fm.flowsHt k = none
  lines : ∀ e, ¬ Live fm.htLines e
  timers : ∀ e, Live fm.timers e → e < timerMaxLifetime

variable {fm : FlowtableMain} {lines : BitVec 64 → List Nat} {slots : Nat → List Nat}

theorem liveCount_eq_zero {α : Type} {p : Pool α} : liveCount p = 0 ↔ ∀ i, ¬ Live p i := by
  rw [liveCount, List.length_eq_zero_iff, List.eq_nil_iff_forall_not_mem]
  simp only [mem_liveIndices]

theorem emptied_of_cpt (hi : Inv fm lines slots) (ht : Tidy fm lines) (hc : fm.flowsCpt = 0) :
    Emptied fm := by
  have hdead : ∀ f, ¬ Live fm.flows f := liveCount_eq_zero.mp (hi.cpt.symm.trans hc)
  have hline : ∀ k, lines k = [] := by
    intro k
    apply List.eq_nil_iff_forall_not_mem.mpr
    intro e he
    obtain ⟨-, f, -, hf, -⟩ := hi.lineFlow k e he
    exact hdead f hf
  have hkeys : ∀ k, fm.flowsHt k = none := by
    intro k
    cases hk : fm.flowsHt k with
    | none => rfl
    | some h => exact absurd (hline k) (ht k h hk)
  refine ⟨hdead, hkeys, fun e he => ?_, fun e he => ?_⟩
  · obtain ⟨k, h, hk, -⟩ := hi.lineElts e he
    exact absurd ((hkeys k).symm.trans hk) (Option.some_ne_none h).symm
  · obtain ⟨i, hlt, hm⟩ := hi.slotElts e he
    obtain rfl | hm := List.mem_cons.mp hm
    · exact hlt
    · obtain ⟨-, f, -, hf, -⟩ := hi.slotFlow i e hm
      exact absurd hf (hdead f)

section Count

theorem timerExpireLoop_count (n : Nat) {fm : FlowtableMain} {lines : BitVec 64 → List Nat}
    {slots : Nat → List Nat} (hi : Inv fm lines slots) {i : Nat} (hlt : i < timerMaxLifetime)
    {r : FlowtableMain × Nat} (hr : timerExpireLoop n fm ((slots i).headD i) = some r) :
    r.1.flowsCpt + r.2 = fm.flowsCpt ∧ r.2 ≤ n := by
  induction n generalizing fm lines slots r with
  | zero =>
    obtain rfl := Option.some.inj hr
    exact ⟨rfl, le_rfl⟩
  | succ n ih =>
    cases hs : slots i with
    | nil =>
      have hv := (hi.slotRings.ring i i (if_pos hlt)).head
      rw [hs] at hr
      simp only [timerExpireLoop, List.headD_nil, hv] at hr
      obtain rfl := Option.some.inj hr
      exact ⟨rfl, Nat.zero_le _⟩
    | cons e rest =>
      obtain ⟨f, fm₁, tm, lines', hv, -, hrem, hnext, htm, -, hinv, hfr, -⟩ := expire_first hi hs
      rw [hs] at hr
      simp only [timerExpireLoop, List.headD_cons, hv, hrem, hfr.timers, hnext, htm,
        Option.bind_eq_bind, Option.bind_some] at hr
      obtain ⟨r', hr', hr⟩ := Option.bind_eq_some_iff.mp hr
      obtain rfl := Option.some.inj hr
      rw [hfr.timers] at hinv
      have hhead : (Function.update slots i rest i).headD i = rest.headD i := by
        rw [Function.update_self]
      obtain ⟨hcpt, hle⟩ := ih hinv (hhead ▸ hr')
      have hpos : 0 < fm.flowsCpt := by
        obtain ⟨-, g, -, hg, -⟩ := hi.slotFlow i e (hs ▸ List.mem_cons_self)
        rw [hi.cpt, liveCount_put hg]
        exact Nat.succ_pos _
      have hdec : fm₁.flowsCpt = fm.flowsCpt - 1 := hfr.cpt
      dsimp only at hcpt ⊢
      omega

theorem flowtableTimerExpire_count (hi : Inv fm lines slots) (ht : fm.timeIndex < timerMaxLifetime)
    {r : FlowtableMain × Nat} (hr : flowtableTimerExpire fm = some r) :
    r.1.flowsCpt + r.2 = fm.flowsCpt ∧ r.2 ≤ timerMaxExpire := by
  have hring := hi.slotRings.ring _ _ (if_pos ht)
  have hw : fm.timerWheel[fm.timeIndex]? = some fm.timeIndex := by
    rw [hi.wheel, List.getElem?_range ht]
  by_cases hempty : dlistIsEmpty fm.timers.elt fm.timeIndex = true
  · simp only [flowtableTimerExpire, hw, hempty, Option.bind_eq_bind, Option.bind_some,
      if_true] at hr
    obtain rfl := Option.some.inj hr
    exact ⟨rfl, Nat.zero_le _⟩
  · have hne := mt (dlistIsEmpty_iff hring).mpr hempty
    simp only [flowtableTimerExpire, hw, hempty, Option.bind_eq_bind, Option.bind_some,
      (hring.seg_of_ne_nil hne).next_eq] at hr
    exact timerExpireLoop_count timerMaxExpire hi ht hr

end Count

theorem loop_notIp {cmp : AddressCompare} {arrivals : List Arrival} (h : NotIp cmp arrivals)
    {n : Nat} (hn : arrivals.length ≤ n) (now : Nat) (s : Timed) :
    timedLoop cmp now n 0 s arrivals = some s := by
  induction arrivals generalizing n with
  | nil => cases n <;> rfl
  | cons a arrivals ih =>
    obtain ⟨n, rfl⟩ := Nat.exists_eq_succ_of_ne_zero (Nat.ne_of_gt (Nat.zero_lt_of_lt hn))
    obtain ⟨sent, hp, hlook⟩ := processPacket_other cmp now s.table a.buffer (a.stack 0)
      (h a List.mem_cons_self)
    have hsame : s.served now s.table sent = s := by
      rw [Timed.served, hlook]
    simp only [timedLoop, hp, Option.bind_eq_bind, Option.bind_some, hsame]
    exact ih (fun b hb => h b (List.mem_cons_of_mem a hb)) (Nat.le_of_succ_le_succ hn)

theorem timedStep_notIp {cmp : AddressCompare} {arrivals : List Arrival} {passes now : Nat}
    (hlen : arrivals.length ≤ passes) (hip : NotIp cmp arrivals) {s : Timed}
    (hw : timerWheelIndexUpdate s.table now = some fm) {r : FlowtableMain × Nat}
    (hr : flowtableTimerExpire fm = some r) :
    timedStep cmp s (.frame passes now arrivals) = some { s with
      table := r.1
      clock := now
      removed := removals { s with table := fm, clock := now } r.1 ++ s.removed } := by
  simp only [timedStep, hw, Option.bind_eq_bind, Option.bind_some, loop_notIp hip hlen, hr]

/-- The slot is the one of the clock, or the wheel has not come to it since the time `start`. -/
def Left (start clock j : Nat) : Prop :=
  ∃ d, (d = 0 ∨ clock + d < start + timerMaxLifetime) ∧ j = (clock + d) % timerMaxLifetime

structure Sweep (start : Nat) (s : Timed) : Prop where
  tables : ∃ lines slots, Inv s.table lines slots ∧ Tidy s.table lines ∧
    ∀ j e, e ∈ slots j → Left start s.clock j
  index : s.table.timeIndex = s.clock % timerMaxLifetime ∨
    s.table.timeIndex = noIndex ∧ ∀ f, ¬ Live s.table.flows f
  start : start ≤ s.clock

variable {cmp : AddressCompare} {start : Nat} {s t : Timed}

theorem left_start {j : Nat} (hj : j < timerMaxLifetime) : Left start start j := by
  rw [timerMaxLifetime] at hj
  refine ⟨(j + timerMaxLifetime - start % timerMaxLifetime) % timerMaxLifetime, Or.inr ?_, ?_⟩
  · rw [timerMaxLifetime]
    omega
  · rw [timerMaxLifetime]
    omega

theorem left_moved {slots' : Nat → List Nat} {clock now : Nat}
    (hl : ∀ j e, e ∈ slots j → Left start clock j) (hnow : now = clock ∨ now = clock + 1)
    (hm : Moved slots slots' (clock % timerMaxLifetime) (now % timerMaxLifetime)) :
    ∀ j e, e ∈ slots' j → Left start now j := by
  intro j e he
  by_cases hj : j = now % timerMaxLifetime
  · exact ⟨0, Or.inl rfl, hj⟩
  · have hin := (hm j e).mp he
    rw [if_neg hj] at hin
    obtain ⟨d, hd, rfl⟩ := hl j e hin.2
    have hpos : d ≠ 0 := by
      rintro rfl
      exact hin.1 rfl
    obtain rfl | rfl := hnow
    · exact ⟨d, hd, rfl⟩
    · refine ⟨d - 1, Or.inr ?_, ?_⟩
      · omega
      · congr 1
        omega

theorem Sweep.frame (hs : Sweep start s) {passes now : Nat} {arrivals : List Arrival}
    (hlen : arrivals.length ≤ passes) (hip : NotIp cmp arrivals)
    (hnow : now = s.clock ∨ now = s.clock + 1) :
    ∃ t, timedStep cmp s (.frame passes now arrivals) = some t ∧ Sweep start t ∧ t.clock = now ∧
      t.table.flowsCpt ≤ s.table.flowsCpt ∧ (start + timerMaxLifetime ≤ now + 1 →
        t.table.flowsCpt = s.table.flowsCpt - timerMaxExpire) := by
  obtain ⟨lines, slots, hi, ht, hl⟩ := hs.tables
  obtain ⟨tm, slots', hw, hi', hm⟩ := timerWheelIndexUpdate_moved hi now
  have hl' : ∀ j e, e ∈ slots' j → Left start now j := by
    obtain hx | ⟨-, hdead⟩ := hs.index
    · exact left_moved hl hnow (hx ▸ hm)
    · intro j e he
      obtain ⟨-, f, -, hf, -⟩ := hi'.slotFlow j e he
      exact absurd hf (hdead f)
  have hlt : now % timerMaxLifetime < timerMaxLifetime := Nat.mod_lt _ (by decide)
  obtain ⟨r, lines'', slots'', hr, hi'', hdr, htidy, hall⟩ := flowtableTimerExpire_drained hi' hlt
  obtain ⟨hcpt, hle⟩ := flowtableTimerExpire_count hi' hlt hr
  have hstart := hs.start
  refine ⟨_, timedStep_notIp hlen hip hw hr, ⟨⟨lines'', slots'', hi'', htidy ht, fun j e he => ?_⟩, Or.inl hdr.index, ?_⟩,
    rfl, Nat.le.intro hcpt, fun hround => ?_⟩
  · exact hl' j e (hdr.kept j e he)
  · show start ≤ now
    omega
  · show r.1.flowsCpt = s.table.flowsCpt - timerMaxExpire
    dsimp only at hcpt
    by_cases hfull : r.2 < timerMaxExpire
    · -- All of the slots but the current one are behind the wheel.
      have hnone : ∀ f, ¬ Live r.1.flows f := by
        intro f hf
        obtain ⟨⟨j, hmem⟩, -⟩ := hi''.flowSlot f hf
        obtain ⟨d, hd, rfl⟩ := hl' j _ (hdr.kept j _ hmem)
        obtain rfl : d = 0 := by
          omega
        rw [Nat.add_zero] at hmem
        rw [hall hfull] at hmem
        exact absurd hmem List.not_mem_nil
      have hzero : r.1.flowsCpt = 0 := hi''.cpt.trans (liveCount_eq_zero.mpr hnone)
      omega
    · omega

theorem Sweep.update (hs : Sweep start s) (cmp : AddressCompare) (a : UpdateArgs) :
    ∃ t, timedStep cmp s (.update a) = some t ∧ Sweep start t ∧ t.clock = s.clock ∧
      t.table.flowsCpt = s.table.flowsCpt := by
  obtain ⟨lines, slots, hi, ht, hl⟩ := hs.tables
  have heq := flowtableUpdate_eq hi a
  cases hend : updateEnd s.table a (lineFlows s.table (lines (hashSignature (updateSignature a)))) with
  | none =>
    rw [hend] at heq
    exact ⟨s, by rw [timedStep, heq]; rfl, hs, rfl, rfl⟩
  | some f =>
    rw [hend] at heq
    have hi' : Inv (setFlow s.table f (applyUpdate (s.table.flows.elt f) a)) lines slots :=
      hi.setFlow ⟨rfl, rfl, rfl, rfl⟩
    refine ⟨{ s with table := setFlow s.table f (applyUpdate (s.table.flows.elt f) a) }, ?_,
      ⟨⟨lines, slots, hi', ht, hl⟩, hs.index, hs.start⟩, rfl, rfl⟩
    rw [timedStep, heq]
    rfl

theorem Sweep.step (hs : Sweep start s) {e : Event} (hq : Quiet cmp s e) :
    ∃ t, timedStep cmp s e = some t ∧ Sweep start t ∧
      s.clock ≤ t.clock ∧ t.table.flowsCpt ≤ s.table.flowsCpt ∧
      (start + timerMaxLifetime ≤ t.clock + 1 →
        t.table.flowsCpt = s.table.flowsCpt - timerMaxExpire * frames [e]) := by
  cases e with
  | frame passes now arrivals =>
    obtain ⟨hlen, hip, hnow⟩ := hq
    obtain ⟨t, ht, hst, rfl, hle, hcpt⟩ := hs.frame hlen hip hnow
    exact ⟨t, ht, hst, by omega, hle, hcpt⟩
  | update a =>
    obtain ⟨t, ht, hst, hclock, hcpt⟩ := hs.update cmp a
    exact ⟨t, ht, hst, hclock.ge, hcpt.le, fun _ => hcpt⟩

theorem frames_cons (e : Event) (es : List Event) : frames (e :: es) = frames [e] + frames es := by
  cases e with
  | frame passes now arrivals => exact Nat.add_comm _ _
  | update a => exact (Nat.zero_add _).symm

/-- Once the wheel has gone around, every frame frees as many flows as an expiry may. -/
theorem Sweep.run {es : List Event} (hs : Sweep start s) (hq : Meets (timedStep cmp) (Quiet cmp) s es) :
    ∃ t, StepRun.run (timedStep cmp) s es = some t ∧ Sweep start t ∧
      t.table.flowsCpt ≤ s.table.flowsCpt ∧ (start + timerMaxLifetime ≤ s.clock + 1 →
        t.table.flowsCpt = s.table.flowsCpt - timerMaxExpire * frames es) := by
  induction es generalizing s with
  | nil => exact ⟨s, rfl, hs, le_rfl, fun _ => rfl⟩
  | cons e es ih =>
    obtain ⟨u, hu, hsu, hclock, hle, hcpt⟩ := hs.step hq.1
    obtain ⟨t, ht, hst, hle', hcpt'⟩ := ih hsu (hq.2 u hu)
    refine ⟨t, run_cons_eq_some.mpr ⟨u, hu, ht⟩, hst, hle'.trans hle, fun hround => ?_⟩
    rw [hcpt' (by omega), hcpt (by omega), frames_cons e es, Nat.mul_add, Nat.sub_sub]

theorem timedLoop_clock {now : Nat} (n : Nat) {k : Nat} {arrivals : List Arrival}
    (hr : timedLoop cmp now n k s arrivals = some t) : t.clock = s.clock := by
  induction n generalizing k s arrivals with
  | zero =>
    cases arrivals with
    | nil =>
      obtain rfl := Option.some.inj hr
      rfl
    | cons a rest => cases hr
  | succ n ih =>
    cases arrivals with
    | nil =>
      obtain rfl := Option.some.inj hr
      rfl
    | cons a rest =>
      simp only [timedLoop, Option.bind_eq_bind] at hr
      obtain ⟨⟨fm, b, os⟩, -, hr⟩ := Option.bind_eq_some_iff.mp hr
      cases os with
      | none =>
        have hrest := ih hr
        exact hrest
      | some sent =>
        have hrest := ih hr
        exact hrest

theorem timedStep_clock {passes now : Nat} {arrivals : List Arrival}
    (hr : timedStep cmp s (.frame passes now arrivals) = some t) : t.clock = now := by
  obtain ⟨fm, -, hr⟩ := Option.bind_eq_some_iff.mp hr
  obtain ⟨u, hu, hr⟩ := Option.bind_eq_some_iff.mp hr
  obtain ⟨r, -, hr⟩ := Option.bind_eq_some_iff.mp hr
  obtain rfl := Option.some.inj hr
  exact timedLoop_clock passes hu

structure Settled (s : Timed) : Prop where
  tables : ∃ lines slots, Inv s.table lines slots ∧ Tidy s.table lines
  index : s.table.timeIndex = s.clock % timerMaxLifetime ∨
    s.table.timeIndex = noIndex ∧ ∀ f, ¬ Live s.table.flows f

theorem Settled.sweep (hs : Settled s) : Sweep s.clock s := by
  obtain ⟨lines, slots, hi, ht⟩ := hs.tables
  exact ⟨⟨lines, slots, hi, ht, fun j e he => left_start (hi.slot_lt he)⟩, hs.index, le_rfl⟩

theorem Sweep.settled (hs : Sweep start s) : Settled s := by
  obtain ⟨lines, slots, hi, ht, -⟩ := hs.tables
  exact ⟨⟨lines, slots, hi, ht⟩, hs.index⟩

theorem settled_start (next : Nat) : Settled (startTimed next) := by
  refine ⟨⟨_, _, flowtableInit_inv next, tidy_flowtableInit next⟩, Or.inr ⟨?_, ?_⟩⟩
  · rw [startTimed, flowtableInit_eq]
  · exact not_live_flowtableInit next

theorem Settled.step (hs : Settled s) {e : Event} (hw : WithinLimit cmp s.table e) :
    ∃ t, timedStep cmp s e = some t ∧ Settled t := by
  cases e with
  | frame passes now arrivals =>
    obtain ⟨hlen, hlim⟩ := hw
    obtain ⟨lines, slots, hi, ht⟩ := hs.tables
    obtain ⟨tm, slots', hwheel, hi', -⟩ := timerWheelIndexUpdate_moved hi now
    obtain ⟨r, lines'', slots'', hr, hi'', ht'', hidx⟩ :=
      processLoop_spec cmp now arrivals hlen hi' ht (hlim _ hwheel)
    have htab := timedLoop_table cmp now passes 0 { s with
      table := { s.table with timers := withElt s.table.timers tm, timeIndex := now % timerMaxLifetime }
      clock := now } arrivals
    rw [hr, Option.map_some, Option.map_eq_some_iff] at htab
    obtain ⟨u, hu, htab⟩ := htab
    have hclock : u.clock = now := timedLoop_clock passes hu
    have hlt : r.1.timeIndex < timerMaxLifetime := by
      rw [hidx]
      exact Nat.mod_lt _ (by decide)
    obtain ⟨r', lines₃, slots₃, hexp, hi₃, hdr, ht₃, -⟩ := flowtableTimerExpire_drained hi'' hlt
    refine ⟨{ u with table := r'.1, removed := removals u r'.1 ++ u.removed }, ?_,
      ⟨⟨lines₃, slots₃, hi₃, ht₃ ht''⟩, Or.inl ?_⟩⟩
    · simp only [timedStep, hwheel, Option.bind_eq_bind, Option.bind_some, hu, htab, hexp]
    · exact (hdr.index.trans hidx).trans (congrArg (· % timerMaxLifetime) hclock.symm)
  | update a =>
    obtain ⟨t, ht, hst, -, -⟩ := hs.sweep.update cmp a
    exact ⟨t, ht, hst.settled⟩

theorem settled_run {es : List Event} (hs : Settled s)
    (hw : Meets (timedStep cmp) (fun s e => WithinLimit cmp s.table e) s es) :
    ∃ t, run (timedStep cmp) s es = some t ∧ Settled t :=
  progress_of_meets (fun _ _ hs hw => hs.step hw) hs hw

/-- When no flow gets packets any more, the table is empty after one round of the wheel and
a frame for each of the 256 flows that an expiry removes. -/
theorem run_drains (cmp : AddressCompare) (next : Nat) {before round rest : List Event}
    {s m : Timed}
    (hw : Meets (timedStep cmp) (fun s e => WithinLimit cmp s.table e) (startTimed next) before)
    (hs : run (timedStep cmp) (startTimed next) before = some s)
    (hq : Meets (timedStep cmp) (Quiet cmp) s (round ++ rest))
    (hm : run (timedStep cmp) s round = some m) (hround : s.clock + timerMaxLifetime ≤ m.clock + 1) :
    ∃ t, run (timedStep cmp) m rest = some t ∧
      t.table.flowsCpt = m.table.flowsCpt - timerMaxExpire * frames rest ∧
      (s.table.flowsCpt ≤ timerMaxExpire * frames rest → Emptied t.table) := by
  obtain ⟨s', hs', hset⟩ := settled_run (settled_start next) hw
  obtain rfl := Option.some.inj (hs'.symm.trans hs)
  obtain ⟨hq, hq'⟩ := meets_append.mp hq
  obtain ⟨m', hm', hsw, hless, -⟩ := hset.sweep.run hq
  obtain rfl := Option.some.inj (hm'.symm.trans hm)
  obtain ⟨t, ht, hst, -, hcpt⟩ := hsw.run (hq' m' hm)
  refine ⟨t, ht, hcpt hround, fun hle => ?_⟩
  obtain ⟨lines, slots, hi, htidy, -⟩ := hst.tables
  apply emptied_of_cpt hi htidy
  rw [hcpt hround]
  exact Nat.sub_eq_zero_of_le (hless.trans hle)

def ticks : Nat → Nat → List Event
  | _, 0 => []
  | clock, n + 1 => .frame 0 (clock + 1) [] :: ticks (clock + 1) n

theorem ticks_add (clock n k : Nat) : ticks clock (n + k) = ticks clock n ++ ticks (clock + n) k := by
  induction n generalizing clock with
  | zero => rw [Nat.zero_add, Nat.add_zero, ticks, List.nil_append]
  | succ n ih =>
    rw [Nat.add_right_comm, ticks, ticks, ih, List.cons_append, Nat.add_assoc clock 1 n,
      Nat.add_comm 1 n]

theorem quiet_ticks (n : Nat) {s : Timed} :
    Meets (timedStep cmp) (Quiet cmp) s (ticks s.clock n) := by
  induction n generalizing s with
  | zero => exact trivial
  | succ n ih =>
    refine ⟨⟨le_rfl, nofun, Or.inr rfl⟩, fun t ht => ?_⟩
    rw [← timedStep_clock ht]
    exact ih

theorem clock_ticks (n : Nat) {s : Timed} (hr : run (timedStep cmp) s (ticks s.clock n) = some t) :
    t.clock = s.clock + n := by
  induction n generalizing s with
  | zero =>
    obtain rfl := Option.some.inj hr
    rfl
  | succ n ih =>
    obtain ⟨u, hu, hr⟩ := run_cons_eq_some.mp hr
    have hclock := timedStep_clock hu
    rw [← hclock] at hr
    rw [ih hr, hclock]
    omega

/-- A packet at second 7, then frames without packets up to second 307. -/
theorem run_drains_sample : ∃ s m t,
    run (timedStep sampleCompare) (startTimed 0) [.frame 1 7 [⟨udpBuffer 1 2, fun _ => []⟩]] =
      some s ∧ s.table.flowsCpt = 1 ∧ run (timedStep sampleCompare) s (ticks 7 299) = some m ∧
    run (timedStep sampleCompare) m (ticks 306 1) = some t ∧ Emptied t.table := by
  have heval : (run (timedStep sampleCompare) (startTimed 0)
      [.frame 1 7 [⟨udpBuffer 1 2, fun _ => []⟩]]).map (fun s => (s.clock, s.table.flowsCpt)) =
        some (7, 1) := by
    rw [startTimed, flowtableInit_eq]
    decide +kernel
  have hw : Meets (timedStep sampleCompare) (fun s e => WithinLimit sampleCompare s.table e)
      (startTimed 0) [.frame 1 7 [⟨udpBuffer 1 2, fun _ => []⟩]] := by
    refine ⟨⟨by decide, fun fm' h => ⟨?_, fun _ _ => trivial⟩⟩, fun _ _ => trivial⟩
    obtain ⟨tm, n, _, hwheel, _, _⟩ := timerWheelIndexUpdate_spec (flowtableInit_inv 0) 7
    obtain rfl := Option.some.inj (hwheel.symm.trans h)
    simp only [BelowLimit, flowtableInit_eq]
    exact Nat.zero_le _
  obtain ⟨s, hs, hpair⟩ := Option.map_eq_some_iff.mp heval
  obtain ⟨hclock, hcpt⟩ := Prod.ext_iff.mp hpair
  dsimp only at hclock hcpt
  obtain ⟨s', hs', hset⟩ := settled_run (settled_start 0) hw
  obtain rfl := Option.some.inj (hs'.symm.trans hs)
  have hq : Meets (timedStep sampleCompare) (Quiet sampleCompare) s' (ticks s'.clock 300) :=
    quiet_ticks 300
  rw [hclock] at hq
  have hsplit : ticks 7 300 = ticks 7 299 ++ ticks 306 1 := ticks_add 7 299 1
  rw [hsplit] at hq
  obtain ⟨m, hm, -, -, -⟩ := hset.sweep.run (meets_append.mp hq).1
  have hmclock := @clock_ticks sampleCompare m 299 s' (hclock ▸ hm)
  have hround : s'.clock + timerMaxLifetime ≤ m.clock + 1 := by
    rw [hmclock, timerMaxLifetime]
  obtain ⟨t, ht, -, hempty⟩ := run_drains sampleCompare 0 hw hs hq hm hround
  refine ⟨s', m, t, hs, hcpt, hm, ht, hempty ?_⟩
  rw [hcpt]
  decide

end Vppsb.FlowDrain
