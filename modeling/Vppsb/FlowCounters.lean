import Vppsb.FlowDrain

namespace Vppsb.FlowCounters

open Vppsb.StepRun Vppsb.PoolStore Vppsb.KeyedPool Vppsb.FlowSignature Vppsb.FlowTable
  Vppsb.FlowProcess Vppsb.FlowInvariant Vppsb.FlowCreate Vppsb.FlowExpire Vppsb.FlowWheel
  Vppsb.FlowLookup Vppsb.FlowRun Vppsb.FlowDrain
open Vppsb.LinkedRing (Mem)

/-- The variables `CPT_*` of a call, or the counters of the node. -/
structure Counters where
  hit : Nat
  thru : Nat
  created : Nat
  offloaded : Nat
  allocError : Nat
  timerExpire : Nat
  collision : Nat

def noCounters : Counters := ⟨0, 0, 0, 0, 0, 0, 0⟩

def incrementCounters (node cpt : Counters) : Counters :=
  ⟨node.hit + cpt.hit, node.thru + cpt.thru, node.created + cpt.created,
    node.offloaded + cpt.offloaded, node.allocError + cpt.allocError,
    node.timerExpire + cpt.timerExpire, node.collision + cpt.collision⟩

abbrev Pass := FlowtableMain × Buffer × Option Sent

/-- The lookup counts a line in which it finds no match. -/
def countCollision (cpt : Counters) (line : Option Nat) : Option Nat × Bool → Counters
  | (some _, false) => cpt
  | _ => if line.isSome then { cpt with collision := cpt.collision + 1 } else cpt

/-- The pass of `processPacket` with what it counts. -/
def countedPacket (cmp : AddressCompare) (now : Nat) (fm : FlowtableMain) (b : Buffer)
    (stack : Bytes) (cpt : Counters) : Option (Pass × Counters) :=
  let swIfIndex0 := b.vnet.swIfIndexCurrent
  let type := ethernetType b
  let b' := vlibBufferAdvance b sizeofEthernetHeader
  match parsePacket cmp type b' with
  | none =>
    some ((fm, b, some ⟨vlibBufferReset b, ftNextEthernetInput, none⟩),
      { cpt with thru := cpt.thru + 1 })
  | some (sigLen, p) => do
    let r ← flowtableEntryLookupCreate fm p.hash stack sigLen now
    let cpt := countCollision cpt (fm.flowsHt p.hash) r.2
    match r with
    | (fm, none, _) => some ((fm, b', none), { cpt with allocError := cpt.allocError + 1 })
    | (fm, some f, created) => do
      let fm ← refreshFlow fm f now created
      let cpt := if created then { cpt with created := cpt.created + 1 }
        else { cpt with hit := cpt.hit + 1 }
      let e := offloadPacket (countPacket (fm.flows.elt f) p.isReverse) swIfIndex0
      let cpt := if e.infos.offloaded ≠ 0 then { cpt with offloaded := cpt.offloaded + 1 } else cpt
      let next0 := if e.infos.offloaded ≠ 0 then ftNextEthernetInput else fm.nextNodeIndex
      some ((setFlow fm f e, b',
        some ⟨vlibBufferReset { b' with vnet := e.infos }, next0, some (p.sig, f)⟩),
        { cpt with thru := cpt.thru + 1 })

/-- The table with the counters of the node, those of the call that runs, and for each flow
how many packets it got in each direction since it was made. -/
structure Books where
  table : FlowtableMain
  node : Counters
  cpt : Counters
  given : Nat → Nat × Nat

def startBooks (nextNodeIndex : Nat) : Books :=
  ⟨flowtableInit nextNodeIndex, noCounters, noCounters, fun _ => (0, 0)⟩

def direction (cmp : AddressCompare) (b : Buffer) : Option Bool :=
  (parsePacket cmp (ethernetType b) (vlibBufferAdvance b sizeofEthernetHeader)).map
    (fun q => decide (q.2.isReverse ≠ some 0))

def giveOne (rev : Bool) (n : Nat × Nat) : Nat × Nat :=
  if rev then (n.1, n.2 + 1) else (n.1 + 1, n.2)

def Books.give (s : Books) (f : Nat) (rev : Bool) : Nat → Nat × Nat :=
  Function.update s.given f (giveOne rev (if Live s.table.flows f then s.given f else (0, 0)))

def Books.passed (cmp : AddressCompare) (s : Books) (b : Buffer) (r : Pass × Counters) : Books :=
  { s with
    table := r.1.1
    cpt := r.2
    given := match r.1.2.2.bind Sent.lookup with
      | none => s.given
      | some q => s.give q.2 ((direction cmp b).getD false) }

def countedLoop (cmp : AddressCompare) (now : Nat) : Nat → Nat → Books → List Arrival → Option Books
  | _, _, s, [] => some s
  | 0, _, _, _ :: _ => none
  | n + 1, k, s, a :: rest => do
    let r ← countedPacket cmp now s.table a.buffer (a.stack k) s.cpt
    match r.1 with
    | (_, b, none) =>
      countedLoop cmp now n (k + 1) (s.passed cmp a.buffer r) (⟨b, a.stack⟩ :: rest)
    | (_, _, some _) => countedLoop cmp now n 0 (s.passed cmp a.buffer r) rest

def countedStep (cmp : AddressCompare) (s : Books) : Event → Option Books
  | .frame passes now arrivals => do
    let fm ← timerWheelIndexUpdate s.table now
    let s ← countedLoop cmp now passes 0 { s with table := fm, cpt := noCounters } arrivals
    let r ← flowtableTimerExpire s.table
    let cpt := { s.cpt with timerExpire := s.cpt.timerExpire + r.2 }
    some { s with table := r.1, node := incrementCounters s.node cpt, cpt := noCounters }
  | .update args => (flowtableUpdate s.table args).map (fun r => { s with table := r.1 })

section Forget

variable (cmp : AddressCompare)

theorem countedPacket_pass (now : Nat) (fm : FlowtableMain) (b : Buffer) (stack : Bytes)
    (cpt : Counters) : (countedPacket cmp now fm b stack cpt).map (fun r => r.1) =
      processPacket cmp now fm b stack := by
  cases hp : parsePacket cmp (ethernetType b) (vlibBufferAdvance b sizeofEthernetHeader) with
  | none => simp only [countedPacket, processPacket, hp, Option.map_some]
  | some q =>
    obtain ⟨sigLen, p⟩ := q
    simp only [countedPacket, processPacket, hp, Option.bind_eq_bind]
    cases flowtableEntryLookupCreate fm p.hash stack sigLen now with
    | none => rfl
    | some r =>
      obtain ⟨fm₁, of, created⟩ := r
      cases of with
      | none => rfl
      | some f =>
        cases hf : refreshFlow fm₁ f now created <;>
          simp only [Option.bind_some, hf, Option.bind_none, Option.map_none, Option.map_some]

theorem countedLoop_table (now n k : Nat) (s : Books) (arrivals : List Arrival) :
    (countedLoop cmp now n k s arrivals).map (fun t => t.table) =
      (processLoop cmp now n k s.table arrivals).map (fun r => r.1) := by
  induction n generalizing k s arrivals with
  | zero => cases arrivals <;> rfl
  | succ n ih =>
    cases arrivals with
    | nil => rfl
    | cons a rest =>
      have hpass := countedPacket_pass cmp now s.table a.buffer (a.stack k) s.cpt
      simp only [countedLoop, processLoop, Option.bind_eq_bind]
      cases hc : countedPacket cmp now s.table a.buffer (a.stack k) s.cpt with
      | none =>
        rw [hc, Option.map_none] at hpass
        rw [← hpass]
        rfl
      | some r =>
        obtain ⟨⟨fm, b, os⟩, cpt⟩ := r
        rw [hc, Option.map_some] at hpass
        rw [← hpass]
        cases os with
        | none =>
          simp only [Option.bind_some]
          exact ih _ _ _
        | some sent =>
          simp only [Option.bind_some, ih, Option.map_bind]
          change _ = (processLoop cmp now n 0 fm rest).bind _
          cases hl : processLoop cmp now n 0 fm rest with
          | none => simp [Books.passed, hl]
          | some q => simp [Books.passed, hl]

theorem countedStep_table (s : Books) (e : Event) :
    (countedStep cmp s e).map (fun t => t.table) = step cmp s.table e := by
  cases e with
  | update args => simp only [countedStep, step, Option.map_map, Function.comp_def]
  | frame passes now arrivals =>
    simp only [countedStep, step, flowtableProcess, Option.bind_eq_bind]
    cases timerWheelIndexUpdate s.table now with
    | none => rfl
    | some fm =>
      have hl := countedLoop_table cmp now passes 0 { s with table := fm, cpt := noCounters } arrivals
      simp only [Option.bind_some]
      cases ht : countedLoop cmp now passes 0 { s with table := fm, cpt := noCounters } arrivals with
      | none =>
        rw [ht, Option.map_none, eq_comm, Option.map_eq_none_iff] at hl
        simp only [hl, Option.bind_none, Option.map_none]
      | some t =>
        rw [ht, Option.map_some, eq_comm, Option.map_eq_some_iff] at hl
        obtain ⟨r, hr, hrt⟩ := hl
        simp only [hr, Option.bind_some, hrt]
        cases flowtableTimerExpire t.table <;> rfl

theorem run_counted_table (s : Books) (events : List Event) :
    (run (countedStep cmp) s events).map (fun t => t.table) = run (step cmp) s.table events :=
  run_map (countedStep_table cmp) s events

end Forget

def countIn (rev : Bool) (s : FlowStats) : FlowStats :=
  if rev then { s with reverse := s.reverse + 1 } else { s with straight := s.straight + 1 }

def statsOf (n : Nat × Nat) : FlowStats := ⟨UInt32.ofNat n.1, UInt32.ofNat n.2⟩

theorem statsOf_giveOne (rev : Bool) (n : Nat × Nat) :
    statsOf (giveOne rev n) = countIn rev (statsOf n) := by
  cases rev with
  | false => simp [statsOf, giveOne, countIn, UInt32.ofNat_add]
  | true => simp [statsOf, giveOne, countIn, UInt32.ofNat_add]

theorem offload_stats (e : FlowEntry) (rev : Option (BitVec 64)) (rx : UInt32) :
    (offloadPacket (countPacket e rev) rx).stats = countIn (decide (rev ≠ some 0)) e.stats ∧
      (offloadPacket (countPacket e rev) rx).infos.offloaded = e.infos.offloaded := by
  unfold offloadPacket countPacket countIn
  by_cases hrev : rev = some 0
  · simp only [hrev, if_true, ne_eq, not_true_eq_false, decide_false, Bool.false_eq_true, if_false]
    split <;> exact ⟨rfl, rfl⟩
  · simp only [hrev, if_false, ne_eq, not_false_eq_true, decide_true, if_true]
    split <;> exact ⟨rfl, rfl⟩

inductive CountedEnd (cmp : AddressCompare) (fm : FlowtableMain) (b : Buffer) (c : Counters) :
    Pass × Counters → Prop
  | other {b' : Buffer} {sent : Sent} (hd : direction cmp b = none) (hs : sent.lookup = none) :
      CountedEnd cmp fm b c ((fm, b', some sent), { c with thru := c.thru + 1 })
  | full {fm₁ : FlowtableMain} {b' : Buffer} {k : Nat} (hi : ∃ lines slots, Inv fm₁ lines slots)
      (hfl : fm₁.flows = fm.flows) (hc : fm₁.flowsCpt = fm.flowsCpt) (hk : k ≤ 1) :
      CountedEnd cmp fm b c ((fm₁, b', none), { c with
        allocError := c.allocError + 1
        collision := c.collision + k })
  | found {fm₁ : FlowtableMain} {b' : Buffer} {sent : Sent} {e : FlowEntry} {sig : Signature}
      {f : Nat} {rev : Bool} (hd : direction cmp b = some rev) (hs : sent.lookup = some (sig, f))
      (hi : ∃ lines slots, Inv fm₁ lines slots) (hf : Live fm.flows f)
      (hfl : fm₁.flows = set fm.flows f e) (hc : fm₁.flowsCpt = fm.flowsCpt)
      (he : e.stats = countIn rev (fm.flows.elt f).stats) :
      CountedEnd cmp fm b c ((fm₁, b', some sent), { c with
        hit := c.hit + 1
        thru := c.thru + 1
        offloaded := if e.infos.offloaded ≠ 0 then c.offloaded + 1 else c.offloaded })
  | made {fm₁ : FlowtableMain} {b' : Buffer} {sent : Sent} {e : FlowEntry} {sig : Signature}
      {rev : Bool} {k : Nat} (hd : direction cmp b = some rev)
      (hs : sent.lookup = some (sig, fresh fm.flows)) (hi : ∃ lines slots, Inv fm₁ lines slots)
      (hfl : fm₁.flows = insert fm.flows e) (hc : fm₁.flowsCpt = fm.flowsCpt + 1)
      (he : e.stats = countIn rev ⟨0, 0⟩) (hk : k ≤ 1) :
      CountedEnd cmp fm b c ((fm₁, b', some sent), { c with
        thru := c.thru + 1
        created := c.created + 1
        collision := c.collision + k })

variable {cmp : AddressCompare} {fm fm' : FlowtableMain} {lines : BitVec 64 → List Nat}
  {slots : Nat → List Nat} {s t : Books}

theorem countCollision_cases (c : Counters) (line : Option Nat) : ∃ k ≤ 1,
    countCollision c line (none, false) = { c with collision := c.collision + k } ∧
      ∀ f, countCollision c line (some f, true) = { c with collision := c.collision + k } := by
  cases line with
  | none => exact ⟨0, Nat.zero_le 1, rfl, fun _ => rfl⟩
  | some head => exact ⟨1, le_rfl, rfl, fun _ => rfl⟩

theorem found_written {f now : Nat} {tm : Mem Nat Nat} {fm₂ : FlowtableMain}
    {rev : Option (BitVec 64)} {rx : UInt32} {e : FlowEntry}
    (hfm₂ : setFlow { fm with timers := withElt fm.timers tm } f
      { fm.flows.elt f with expire := u32 (now + (fm.flows.elt f).lifetime) } = fm₂)
    (he : offloadPacket (countPacket (fm₂.flows.elt f) rev) rx = e) :
    SameLinks e (fm₂.flows.elt f) ∧ (setFlow fm₂ f e).flows = set fm.flows f e ∧
      (setFlow fm₂ f e).flowsCpt = fm.flowsCpt ∧
      e.stats = countIn (decide (rev ≠ some 0)) (fm.flows.elt f).stats := by
  refine ⟨he ▸ (offload_links _ _ _).1, ?_, ?_, ?_⟩
  · rw [← hfm₂]
    exact set_set fm.flows f _ e
  · rw [← hfm₂]
    rfl
  · rw [← he, (offload_stats _ _ _).1, ← hfm₂]
    simp [setFlow]

theorem made_written {key : BitVec 64} {stack : Bytes} {sigLen now head : Nat}
    {lm tm : Mem Nat Nat} {rev : Option (BitVec 64)} {rx : UInt32} {e : FlowEntry}
    (he : offloadPacket (countPacket (linkedFlow fm key stack sigLen now head) rev) rx = e) :
    SameLinks e ((created fm key stack sigLen now head lm tm).flows.elt (fresh fm.flows)) ∧
      (setFlow (created fm key stack sigLen now head lm tm) (fresh fm.flows) e).flows =
        insert fm.flows e ∧
      e.stats = countIn (decide (rev ≠ some 0)) ⟨0, 0⟩ ∧ e.infos.offloaded = 0 := by
  obtain ⟨hst, hoff⟩ := offload_stats (linkedFlow fm key stack sigLen now head) rev rx
  rw [he] at hst hoff
  refine ⟨?_, set_set (get fm.flows) (fresh fm.flows) _ e, hst, hoff⟩
  rw [created_new]
  exact he ▸ (offload_links _ _ _).1

theorem countedEnd (hi : Inv fm lines slots) {now : Nat} {b : Buffer} {stack : Bytes}
    {c : Counters} {r : Pass × Counters} (hr : countedPacket cmp now fm b stack c = some r) :
    CountedEnd cmp fm b c r := by
  cases hp : parsePacket cmp (ethernetType b) (vlibBufferAdvance b sizeofEthernetHeader) with
  | none =>
    simp only [countedPacket, hp] at hr
    obtain rfl := Option.some.inj hr
    exact .other (by rw [direction, hp]; rfl) rfl
  | some q =>
    obtain ⟨sigLen, p⟩ := q
    have hd : direction cmp b = some (decide (p.isReverse ≠ some 0)) := by
      rw [direction, hp]
      rfl
    simp only [countedPacket, hp, Option.bind_eq_bind] at hr
    obtain ⟨⟨fm₁, of, made⟩, hq, hr⟩ := Option.bind_eq_some_iff.mp hr
    obtain ⟨f, hfound, hf⟩ | ⟨fm₁', head, hfm, hi₁, hk, hc⟩ := lookupCreate_cases hi hq
    · cases hfound
      obtain ⟨tm, slots', hput, hi', -⟩ := timerWheelReschedFlow_slots hi hf now
      simp only [refreshFlow, Bool.false_eq_true, if_false, hput, Option.bind_some] at hr
      generalize hfm₂ : setFlow { fm with timers := withElt fm.timers tm } f
        { fm.flows.elt f with expire := u32 (now + (fm.flows.elt f).lifetime) } = fm₂ at hi' hr
      generalize he : offloadPacket (countPacket (fm₂.flows.elt f) p.isReverse)
        b.vnet.swIfIndexCurrent = e at hr
      obtain ⟨hlinks, hfl, hc, hstats⟩ := found_written hfm₂ he
      obtain rfl := Option.some.inj hr
      have hend := fun sent hs => @CountedEnd.found cmp fm b c _
        (vlibBufferAdvance b sizeofEthernetHeader) sent e p.sig f _ hd hs
        ⟨_, _, hi'.setFlow hlinks⟩ hf hfl hc hstats
      by_cases hoff : e.infos.offloaded ≠ 0
      · simp only [if_pos hoff] at hend ⊢
        exact hend _ rfl
      · simp only [if_neg hoff] at hend ⊢
        exact hend _ rfl
    · obtain ⟨n, hn, hfull, hmade⟩ := countCollision_cases c (fm.flowsHt p.hash)
      obtain hnone | ⟨lm, tm, hnew, hi'⟩ := createFlow_cases hi₁ hk hc
      · cases hnone
        rw [hfull] at hr
        obtain rfl := Option.some.inj hr
        refine .full ⟨_, _, hi₁⟩ ?_ ?_ hn
        · obtain rfl | rfl := hfm <;> rfl
        · obtain rfl | rfl := hfm <;> rfl
      · cases hnew
        have hflows : fm₁'.flows = fm.flows := by
          obtain rfl | rfl := hfm <;> rfl
        have hcpt : fm₁'.flowsCpt = fm.flowsCpt := by
          obtain rfl | rfl := hfm <;> rfl
        simp only [refreshFlow, if_true, Option.bind_some, created_new, hmade] at hr
        generalize he : offloadPacket (countPacket (linkedFlow fm₁' p.hash stack sigLen now head)
          p.isReverse) b.vnet.swIfIndexCurrent = e at hr
        obtain ⟨hlinks, hset, hst, hoff⟩ := @made_written fm₁' p.hash stack sigLen now head lm tm _ _ _ he
        have hnot : ¬ e.infos.offloaded ≠ 0 := fun h => h hoff
        simp only [if_neg hnot] at hr
        obtain rfl := Option.some.inj hr
        have hlook : some (p.sig, fresh fm₁'.flows) = some (p.sig, fresh fm.flows) := by
          rw [hflows]
        exact .made hd hlook ⟨_, _, hi'.setFlow hlinks⟩ (hset.trans (congrArg (insert · e) hflows))
          (congrArg (· + 1) hcpt) hst hn

structure Balanced (s : Books) : Prop where
  linked : ∃ lines slots, Inv s.table lines slots
  expire : s.cpt.timerExpire = 0
  flows : s.table.flowsCpt + s.node.timerExpire = s.node.created + s.cpt.created
  offloaded : s.node.offloaded + s.cpt.offloaded ≤ s.node.hit + s.cpt.hit
  collision : s.node.collision + s.cpt.collision ≤
    s.node.created + s.cpt.created + (s.node.allocError + s.cpt.allocError)
  stats : ∀ f, Live s.table.flows f → (s.table.flows.elt f).stats = statsOf (s.given f)

theorem Balanced.passed (hs : Balanced s) {b : Buffer} {r : Pass × Counters}
    (hr : CountedEnd cmp s.table b s.cpt r) : Balanced (s.passed cmp b r) := by
  obtain ⟨lines, slots, hi⟩ := hs.linked
  have hflows := hs.flows
  have hoff := hs.offloaded
  have hcoll := hs.collision
  cases hr with
  | other hd hl =>
    refine ⟨hs.linked, hs.expire, hs.flows, hs.offloaded, hs.collision, ?_⟩
    simp only [Books.passed, Option.bind_some, hl]
    exact hs.stats
  | full hi₁ hfl hc hk =>
    refine ⟨hi₁, hs.expire, ?_, hs.offloaded, ?_, ?_⟩
    · exact (congrArg (· + s.node.timerExpire) hc).trans hflows
    · simp only [Books.passed]
      omega
    · simp only [Books.passed, Option.bind_none, hfl]
      exact hs.stats
  | @found fm₁ b' sent e sig f rev hd hl hi₁ hf hfl hc he =>
    refine ⟨hi₁, hs.expire, ?_, ?_, hs.collision, fun g hg => ?_⟩
    · exact (congrArg (· + s.node.timerExpire) hc).trans hflows
    · simp only [Books.passed]
      split <;> omega
    · simp only [Books.passed, Option.bind_some, hl, hd, Option.getD_some, Books.give, if_pos hf,
        hfl, elt_set] at hg ⊢
      by_cases hgf : g = f
      · subst hgf
        rw [Function.update_self, Function.update_self, he, hs.stats g hf, statsOf_giveOne]
      · rw [Function.update_of_ne hgf, Function.update_of_ne hgf]
        exact hs.stats g hg
  | @made fm₁ b' sent e sig rev k hd hl hi₁ hfl hc he hk =>
    refine ⟨hi₁, hs.expire, ?_, hs.offloaded, ?_, fun g hg => ?_⟩
    · simp only [Books.passed, hc]
      omega
    · simp only [Books.passed]
      omega
    · simp only [Books.passed, Option.bind_some, hl, hd, Option.getD_some, Books.give,
        if_neg not_live_fresh, hfl] at hg ⊢
      obtain hg | rfl := (live_insert hi.flowsWF g).mp hg
      · rw [elt_insert_old hg, Function.update_of_ne (ne_fresh hg)]
        exact hs.stats g hg
      · rw [elt_insert_fresh, Function.update_self, he, statsOf_giveOne]
        rfl

def ipCount (cmp : AddressCompare) (arrivals : List Arrival) : Nat :=
  (arrivals.filter (fun a => (direction cmp a.buffer).isSome)).length

structure Counts (cmp : AddressCompare) (c c' : Counters) (arrivals : List Arrival) : Prop where
  thru : c'.thru = c.thru + arrivals.length
  alloc : c.allocError ≤ c'.allocError
  ip : c'.allocError = c.allocError →
    c'.created + c'.hit = c.created + c.hit + ipCount cmp arrivals

theorem Counts.refl (cmp : AddressCompare) (c : Counters) : Counts cmp c c [] :=
  ⟨rfl, le_rfl, fun _ => rfl⟩

theorem Counts.trans {c c' c'' : Counters} {as bs : List Arrival} (h : Counts cmp c c' as)
    (h' : Counts cmp c' c'' bs) : Counts cmp c c'' (as ++ bs) := by
  obtain ⟨h1, h2, h3⟩ := h
  obtain ⟨h1', h2', h3'⟩ := h'
  refine ⟨?_, h2.trans h2', fun he => ?_⟩
  · rw [h1', h1, List.length_append, Nat.add_assoc]
  · rw [h3' (by omega), h3 (by omega), ipCount, ipCount, ipCount, List.filter_append,
      List.length_append, Nat.add_assoc]

theorem counts_sent {a : Arrival} {c : Counters} {p : Buffer} {sent : Sent} {c' : Counters}
    (hr : CountedEnd cmp fm a.buffer c ((fm', p, some sent), c')) : Counts cmp c c' [a] := by
  have hip : ipCount cmp [a] = if (direction cmp a.buffer).isSome then 1 else 0 := by
    rw [ipCount, List.filter_singleton]
    cases (direction cmp a.buffer).isSome <;> rfl
  cases hr with
  | other hd hl =>
    rw [hd] at hip
    exact ⟨rfl, le_rfl, fun _ => by rw [hip]; rfl⟩
  | found hd =>
    rw [hd] at hip
    exact ⟨rfl, le_rfl, fun _ => by rw [hip]; rfl⟩
  | made hd =>
    rw [hd] at hip
    exact ⟨rfl, le_rfl, fun _ => by rw [hip]; exact Nat.add_right_comm _ _ _⟩

theorem Balanced.loop (n : Nat) {now k : Nat} {arrivals : List Arrival} (hs : Balanced s)
    (hr : countedLoop cmp now n k s arrivals = some t) :
    Balanced t ∧ t.node = s.node ∧ Counts cmp s.cpt t.cpt arrivals := by
  induction n generalizing k s arrivals with
  | zero =>
    cases arrivals with
    | nil =>
      obtain rfl := Option.some.inj hr
      exact ⟨hs, rfl, Counts.refl cmp _⟩
    | cons a rest => cases hr
  | succ n ih =>
    cases arrivals with
    | nil =>
      obtain rfl := Option.some.inj hr
      exact ⟨hs, rfl, Counts.refl cmp _⟩
    | cons a rest =>
      simp only [countedLoop, Option.bind_eq_bind] at hr
      obtain ⟨⟨⟨fm, b, os⟩, cpt⟩, hp, hr⟩ := Option.bind_eq_some_iff.mp hr
      obtain ⟨lines, slots, hi⟩ := hs.linked
      have hend := countedEnd hi hp
      have hs' := hs.passed hend
      cases os with
      | none =>
        obtain ⟨ht, hnode, hcounts⟩ := ih hs' hr
        cases hend with
        | full _ _ _ _ =>
          -- The buffer is processed again, and the failure has been counted.
          have hthru := hcounts.thru
          have halloc := hcounts.alloc
          refine ⟨ht, hnode, hthru, ?_, fun he => ?_⟩
          · exact (Nat.le_succ _).trans halloc
          · exact absurd (halloc.trans he.le) (Nat.not_succ_le_self _)
      | some sent =>
        obtain ⟨ht, hnode, hcounts⟩ := ih hs' hr
        exact ⟨ht, hnode, (counts_sent hend).trans hcounts⟩

def arrived : List Event → List Arrival
  | [] => []
  | .frame _ _ arrivals :: es => arrivals ++ arrived es
  | .update _ :: es => arrived es

structure Idle (s : Books) : Prop where
  balanced : Balanced s
  cpt : s.cpt = noCounters

theorem idle_start (next : Nat) : Idle (startBooks next) := by
  refine ⟨⟨⟨_, _, flowtableInit_inv next⟩, rfl, ?_, le_rfl, le_rfl, fun f hf => ?_⟩, rfl⟩
  · rw [startBooks, flowtableInit_eq]
    rfl
  · exact absurd hf (not_live_flowtableInit next f)

theorem Balanced.finish (hs : Balanced s) {r : FlowtableMain × Nat}
    (hr : flowtableTimerExpire s.table = some r) :
    Idle { s with
      table := r.1
      node := incrementCounters s.node { s.cpt with timerExpire := s.cpt.timerExpire + r.2 }
      cpt := noCounters } := by
  obtain ⟨lines, slots, hi⟩ := hs.linked
  have hlt : s.table.timeIndex < timerMaxLifetime := by
    obtain hno | hlt := hi.timeIndex
    · have hnone : s.table.timerWheel[s.table.timeIndex]? = none := by
        rw [hi.wheel, hno, List.getElem?_eq_none]
        simp [noIndex, timerMaxLifetime]
      simp [flowtableTimerExpire, hnone] at hr
    · exact hlt
  obtain ⟨r', lines', slots', hr', hi', hdr, -⟩ := flowtableTimerExpire_drained hi hlt
  obtain rfl := Option.some.inj (hr'.symm.trans hr)
  obtain ⟨hcpt, -⟩ := flowtableTimerExpire_count hi hlt hr
  have hflows := hs.flows
  have hoff := hs.offloaded
  have hcoll := hs.collision
  have hexp := hs.expire
  refine ⟨⟨⟨lines', slots', hi'⟩, rfl, ?_, ?_, ?_, fun f hf => ?_⟩, rfl⟩
  · simp only [incrementCounters, noCounters]
    omega
  · simp only [incrementCounters, noCounters]
    omega
  · simp only [incrementCounters, noCounters]
    omega
  · rw [hdr.shrinks.1]
    exact hs.stats f (hdr.shrinks.2 f hf)

theorem Idle.frame (hs : Idle s) {passes now : Nat} {arrivals : List Arrival}
    (hr : countedStep cmp s (.frame passes now arrivals) = some t) :
    Idle t ∧ Counts cmp s.node t.node arrivals := by
  obtain ⟨lines, slots, hi⟩ := hs.balanced.linked
  obtain ⟨tm, slots', hw, hi', -⟩ := timerWheelIndexUpdate_moved hi now
  simp only [countedStep, hw, Option.bind_eq_bind, Option.bind_some] at hr
  obtain ⟨u, hu, hr⟩ := Option.bind_eq_some_iff.mp hr
  obtain ⟨r, hexp, hr⟩ := Option.bind_eq_some_iff.mp hr
  obtain rfl := Option.some.inj hr
  have hflows := hs.balanced.flows
  have hoff := hs.balanced.offloaded
  have hcoll := hs.balanced.collision
  rw [hs.cpt] at hflows hoff hcoll
  have hstart : Balanced { s with
      table := { s.table with timers := withElt s.table.timers tm, timeIndex := now % timerMaxLifetime }
      cpt := noCounters } := ⟨⟨lines, slots', hi'⟩, rfl, hflows, hoff, hcoll,
        hs.balanced.stats⟩
  obtain ⟨hbal, hnode, hthru, -, hip⟩ := hstart.loop passes hu
  refine ⟨hbal.finish hexp, ?_, ?_, fun he => ?_⟩
  · simp only [incrementCounters, hnode, hthru, noCounters, Nat.zero_add]
  · simp only [incrementCounters, hnode]
    exact Nat.le_add_right _ _
  · simp only [incrementCounters, hnode, noCounters] at he hip ⊢
    have hcounts := hip (by omega)
    omega

theorem Idle.update (hs : Idle s) {a : UpdateArgs} (hr : countedStep cmp s (.update a) = some t) :
    Idle t ∧ t.node = s.node := by
  obtain ⟨r, hu, rfl⟩ := Option.map_eq_some_iff.mp hr
  obtain ⟨lines, slots, hi⟩ := hs.balanced.linked
  have heq := flowtableUpdate_eq hi a
  rw [heq] at hu
  cases hend : updateEnd s.table a (lineFlows s.table (lines (hashSignature (updateSignature a)))) with
  | none =>
    rw [hend] at hu
    obtain rfl := Option.some.inj hu
    exact ⟨hs, rfl⟩
  | some f =>
    rw [hend] at hu
    obtain rfl := Option.some.inj hu
    have hi' : Inv (setFlow s.table f (applyUpdate (s.table.flows.elt f) a)) lines slots :=
      hi.setFlow ⟨rfl, rfl, rfl, rfl⟩
    refine ⟨⟨⟨⟨lines, slots, hi'⟩, hs.balanced.expire, hs.balanced.flows, hs.balanced.offloaded,
      hs.balanced.collision, fun g hg => ?_⟩, hs.cpt⟩, rfl⟩
    by_cases hgf : g = f
    · subst hgf
      simp only [setFlow, elt_set, Function.update_self]
      exact hs.balanced.stats g hg
    · simp only [setFlow, elt_set, Function.update_of_ne hgf]
      exact hs.balanced.stats g hg

theorem Idle.run (events : List Event) (hs : Idle s)
    (hr : StepRun.run (countedStep cmp) s events = some t) :
    Idle t ∧ Counts cmp s.node t.node (arrived events) := by
  induction events generalizing s with
  | nil =>
    obtain rfl := Option.some.inj hr
    exact ⟨hs, Counts.refl cmp _⟩
  | cons e events ih =>
    obtain ⟨u, hu, htail⟩ := run_cons_eq_some.mp hr
    cases e with
    | frame passes now arrivals =>
      obtain ⟨hsu, hcounts⟩ := hs.frame hu
      obtain ⟨ht, hrest⟩ := ih hsu htail
      exact ⟨ht, hcounts.trans hrest⟩
    | update a =>
      obtain ⟨hsu, hnode⟩ := hs.update hu
      obtain ⟨ht, hrest⟩ := ih hsu htail
      exact ⟨ht, hnode ▸ hrest⟩

/-- What the counters of the node and of the flows say about the packets that came in. -/
structure Accounts (cmp : AddressCompare) (events : List Event) (s : Books) : Prop where
  live : s.table.flowsCpt = liveCount s.table.flows
  flows : s.node.created = liveCount s.table.flows + s.node.timerExpire
  thru : s.node.thru = (arrived events).length
  ip : s.node.allocError = 0 → s.node.created + s.node.hit = ipCount cmp (arrived events)
  offloaded : s.node.offloaded ≤ s.node.hit
  collision : s.node.collision ≤ s.node.created + s.node.allocError
  stats : ∀ f, Live s.table.flows f → (s.table.flows.elt f).stats = statsOf (s.given f)

/-- In every run the counters of the node balance, and each flow has counted just the packets
that it got in each direction since it was made. -/
theorem run_accounts (cmp : AddressCompare) (next : Nat) (events : List Event)
    (hr : run (countedStep cmp) (startBooks next) events = some s) : Accounts cmp events s := by
  obtain ⟨⟨hbal, hcpt⟩, hthru, -, hip⟩ := (idle_start next).run events hr
  obtain ⟨lines, slots, hi⟩ := hbal.linked
  have hflows := hbal.flows
  have hoff := hbal.offloaded
  have hcoll := hbal.collision
  rw [hcpt] at hflows hoff hcoll
  simp only [startBooks, noCounters, Nat.zero_add, Nat.add_zero] at hthru hip hflows hoff hcoll
  exact ⟨hi.cpt, hi.cpt ▸ hflows.symm, hthru, hip, hoff, hcoll, hbal.stats⟩

def twoPackets : List Event :=
  [.frame 2 7 [⟨udpBuffer 1 2, fun _ => List.replicate 37 0xaa⟩,
    ⟨udpBuffer 1 2, fun _ => List.replicate 37 0xaa⟩], .frame 0 67 []]

theorem run_accounts_sample :
    ∃ s, run (countedStep sampleCompare) (startBooks 0) twoPackets = some s ∧
      Accounts sampleCompare twoPackets s ∧
      (s.node.created, s.node.hit, s.node.timerExpire) = (1, 1, 1) := by
  have heval : (run (countedStep sampleCompare) (startBooks 0) twoPackets).map
      (fun s => (s.node.created, s.node.hit, s.node.timerExpire)) = some (1, 1, 1) := by
    rw [startBooks, flowtableInit_eq]
    decide +kernel
  obtain ⟨s, hs, hnode⟩ := Option.map_eq_some_iff.mp heval
  exact ⟨s, hs, run_accounts sampleCompare 0 twoPackets hs, hnode⟩

end Vppsb.FlowCounters
