import Vppsb.FlowRun

namespace Vppsb.FlowIdentity

open Vppsb.StepRun Vppsb.PoolStore Vppsb.KeyedPool Vppsb.LinkedRing Vppsb.FlowSignature
  Vppsb.FlowTable Vppsb.FlowProcess Vppsb.FlowInvariant Vppsb.FlowCreate Vppsb.FlowExpire Vppsb.FlowWheel
  Vppsb.FlowLookup Vppsb.FlowRun

inductive Action where
  | wheel (now : Nat)
  | packet (now : Nat) (buffer : Buffer) (stack : Bytes)
  | expire
  | update (args : UpdateArgs)

/-- The table with the lookups of the past whose flow is still alive: for each
the signature of the packet and the flow entry it got. -/
structure Traced where
  table : FlowtableMain
  alive : List (Signature × Nat)

def stillAlive (fm : FlowtableMain) (alive : List (Signature × Nat)) : List (Signature × Nat) :=
  alive.filter (fun q => decide (Live fm.flows q.2))

def tracedStep (cmp : AddressCompare) (s : Traced) : Action → Option Traced
  | .wheel now => (timerWheelIndexUpdate s.table now).map (fun fm => ⟨fm, s.alive⟩)
  | .packet now b stack => (processPacket cmp now s.table b stack).map
      (fun r => ⟨r.1, (r.2.2.bind Sent.lookup).toList ++ s.alive⟩)
  | .expire => (flowtableTimerExpire s.table).map (fun r => ⟨r.1, stillAlive r.1 s.alive⟩)
  | .update args => (flowtableUpdate s.table args).map (fun r => ⟨r.1, s.alive⟩)

def start (nextNodeIndex : Nat) : Traced := ⟨flowtableInit nextNodeIndex, []⟩

/-- Two packets have the same flow entry just when they have the same address
family and the same signature. -/
def Distinct (s : Traced) : Prop :=
  ∀ p ∈ s.alive, ∀ q ∈ s.alive, p.2 = q.2 ↔ p.1 = q.1

/-- The bytes that a lookup compares tell the packet's signature apart from
those of the flows in its line. They are the bytes of the pointer parameter and
of the stack behind it, not those of the signature. -/
def Told (cmp : AddressCompare) (s : Traced) : Action → Prop
  | .packet _ b stack => ∀ sigLen p,
      parsePacket cmp (ethernetType b) (vlibBufferAdvance b sizeofEthernetHeader) =
        some (sigLen, p) →
      ∀ q ∈ s.alive, (s.table.flows.elt q.2).sigHash = p.hash →
        (sameBytes (s.table.flows.elt q.2).sig stack sigLen = true ↔ q.1 = p.sig)
  | _ => True

/-- The lookups of the past and the table describe the same flows. -/
structure TracedInv (s : Traced) : Prop where
  inv : ∃ lines slots, Inv s.table lines slots
  live : ∀ q ∈ s.alive, Live s.table.flows q.2 ∧
    (s.table.flows.elt q.2).sigHash = hashSignature q.1
  covered : ∀ f, Live s.table.flows f → ∃ q ∈ s.alive, q.2 = f
  distinct : Distinct s

theorem parse_hash {cmp : AddressCompare} {type : BitVec 16} {b : Buffer} {sigLen : Nat}
    {p : Parsed} (h : parsePacket cmp type b = some (sigLen, p)) : p.hash = hashSignature p.sig := by
  unfold parsePacket at h
  split at h
  · cases h
    rfl
  · split at h
    · cases h
      rfl
    · cases h

theorem start_inv (next : Nat) : TracedInv (start next) := by
  have hdead := not_live_flowtableInit next
  have hinv := flowtableInit_inv next
  unfold start
  generalize flowtableInit next = fm at hdead hinv
  exact ⟨⟨_, _, hinv⟩, by simp, fun f hf => absurd hf (hdead f), by simp [Distinct]⟩

theorem TracedInv.extend {s : Traced} (hs : TracedInv s) {fm' : FlowtableMain} {sig : Signature}
    {f : Nat} (hinv : ∃ lines slots, Inv fm' lines slots)
    (hkeep : ∀ g, Live s.table.flows g → Live fm'.flows g ∧
      (fm'.flows.elt g).sigHash = (s.table.flows.elt g).sigHash)
    (hnew : ∀ g, Live fm'.flows g → Live s.table.flows g ∨ g = f)
    (hf : Live fm'.flows f ∧ (fm'.flows.elt f).sigHash = hashSignature sig)
    (hsame : ∀ q ∈ s.alive, q.2 = f ↔ q.1 = sig) :
    TracedInv ⟨fm', (sig, f) :: s.alive⟩ := by
  refine ⟨hinv, fun q hq => ?_, fun g hg => ?_, fun p hp q hq => ?_⟩
  · obtain rfl | hq := List.mem_cons.mp hq
    · exact hf
    · obtain ⟨hl, hh⟩ := hs.live q hq
      obtain ⟨hl', hh'⟩ := hkeep q.2 hl
      exact ⟨hl', hh'.trans hh⟩
  · obtain hg | rfl := hnew g hg
    · obtain ⟨q, hq, rfl⟩ := hs.covered g hg
      exact ⟨q, List.mem_cons_of_mem _ hq, rfl⟩
    · exact ⟨_, List.mem_cons_self, rfl⟩
  · obtain rfl | hp := List.mem_cons.mp hp <;> obtain rfl | hq := List.mem_cons.mp hq
    · exact ⟨fun _ => rfl, fun _ => rfl⟩
    · rw [eq_comm, hsame q hq, eq_comm]
    · exact hsame p hp
    · exact hs.distinct p hp q hq

theorem TracedInv.hit {s : Traced} (hs : TracedInv s) {fm' : FlowtableMain} {q : Signature × Nat}
    (hinv : ∃ lines slots, Inv fm' lines slots) (hk : SameKeys s.table fm') (hq : q ∈ s.alive) :
    TracedInv ⟨fm', q :: s.alive⟩ := by
  obtain ⟨hl, hh⟩ := hs.live q hq
  refine hs.extend hinv (fun g hg => ⟨(hk.1 g).mpr hg, (hk.2 g).2⟩)
    (fun g hg => Or.inl ((hk.1 g).mp hg)) ⟨(hk.1 _).mpr hl, ?_⟩ fun q' hq' => ?_
  · rw [(hk.2 _).2, hh]
  · exact hs.distinct q' hq' q hq

theorem TracedInv.made {s : Traced} (hs : TracedInv s) {fm₁ fm' : FlowtableMain} {sig : Signature}
    {e : FlowEntry} (hinv : ∃ lines slots, Inv fm' lines slots)
    (hfl : fm₁.flows = insert s.table.flows e) (hk : SameKeys fm₁ fm')
    (he : e.sigHash = hashSignature sig) (hno : ∀ q ∈ s.alive, q.1 ≠ sig) :
    TracedInv ⟨fm', (sig, fresh s.table.flows) :: s.alive⟩ := by
  obtain ⟨lines, slots, hi⟩ := hs.inv
  have hlive : ∀ g, Live fm'.flows g ↔ Live s.table.flows g ∨ g = fresh s.table.flows := by
    intro g
    rw [hk.1 g, hfl]
    exact live_insert hi.flowsWF g
  refine hs.extend hinv (fun g hg => ⟨(hlive g).mpr (Or.inl hg), ?_⟩)
    (fun g hg => (hlive g).mp hg) ⟨(hlive _).mpr (Or.inr rfl), ?_⟩ fun q hq => ?_
  · rw [(hk.2 g).2, hfl, elt_insert_old hg]
  · rw [(hk.2 _).2, hfl, elt_insert_fresh, he]
  · exact iff_of_false (ne_fresh (hs.live q hq).1) (hno q hq)

theorem TracedInv.restrict {s : Traced} (hs : TracedInv s) {fm' : FlowtableMain}
    {alive' : List (Signature × Nat)} (hinv : ∃ lines slots, Inv fm' lines slots)
    (hold : ∀ g, Live fm'.flows g → Live s.table.flows g ∧
      (fm'.flows.elt g).sigHash = (s.table.flows.elt g).sigHash)
    (halive : ∀ q, q ∈ alive' ↔ q ∈ s.alive ∧ Live fm'.flows q.2) : TracedInv ⟨fm', alive'⟩ := by
  refine ⟨hinv, fun q hq => ?_, fun g hg => ?_, fun p hp q hq => ?_⟩
  · obtain ⟨hq, hl⟩ := (halive q).mp hq
    exact ⟨hl, (hold q.2 hl).2.trans (hs.live q hq).2⟩
  · obtain ⟨q, hq, rfl⟩ := hs.covered g (hold g hg).1
    exact ⟨q, (halive q).mpr ⟨hq, hg⟩, rfl⟩
  · exact hs.distinct p ((halive p).mp hp).1 q ((halive q).mp hq).1

theorem TracedInv.sameKeys {s : Traced} (hs : TracedInv s) {fm' : FlowtableMain}
    (hinv : ∃ lines slots, Inv fm' lines slots) (hk : SameKeys s.table fm') :
    TracedInv ⟨fm', s.alive⟩ := by
  refine hs.restrict hinv (fun g hg => ⟨(hk.1 g).mp hg, (hk.2 g).2⟩) fun q => ?_
  exact ⟨fun hq => ⟨hq, (hk.1 _).mpr (hs.live q hq).1⟩, fun hq => hq.1⟩

inductive Outcome (cmp : AddressCompare) (s : Traced) : Action → Traced → Prop
  | kept (a : Action) (fm' : FlowtableMain) (keys : SameKeys s.table fm') :
      Outcome cmp s a ⟨fm', s.alive⟩
  | hit (now : Nat) (b : Buffer) (stack : Bytes) (sigLen : Nat) (p : Parsed) (f : Nat)
      (fm' : FlowtableMain)
      (parse : parsePacket cmp (ethernetType b) (vlibBufferAdvance b sizeofEthernetHeader) =
        some (sigLen, p))
      (live : Live s.table.flows f) (hash : (s.table.flows.elt f).sigHash = p.hash)
      (same : matchesSig s.table stack sigLen f = true) (keys : SameKeys s.table fm') :
      Outcome cmp s (.packet now b stack) ⟨fm', (p.sig, f) :: s.alive⟩
  | made (now : Nat) (b : Buffer) (stack : Bytes) (sigLen : Nat) (p : Parsed) (e : FlowEntry)
      (fm₁ fm' : FlowtableMain)
      (parse : parsePacket cmp (ethernetType b) (vlibBufferAdvance b sizeofEthernetHeader) =
        some (sigLen, p))
      (flows : fm₁.flows = insert s.table.flows e) (hash : e.sigHash = p.hash)
      (other : ∀ g, Live s.table.flows g → (s.table.flows.elt g).sigHash = p.hash →
        matchesSig s.table stack sigLen g ≠ true)
      (keys : SameKeys fm₁ fm') :
      Outcome cmp s (.packet now b stack) ⟨fm', (p.sig, fresh s.table.flows) :: s.alive⟩
  | expired (fm' : FlowtableMain) (shrinks : Shrinks s.table fm') :
      Outcome cmp s .expire ⟨fm', stillAlive fm' s.alive⟩

theorem packet_outcome (cmp : AddressCompare) {s s' : Traced} {lines : BitVec 64 → List Nat}
    {slots : Nat → List Nat} (hi : Inv s.table lines slots) {now : Nat} {b : Buffer} {stack : Bytes}
    (hr : tracedStep cmp s (.packet now b stack) = some s') :
    Outcome cmp s (.packet now b stack) s' ∧ ∃ lines slots, Inv s'.table lines slots := by
  obtain ⟨r, hp, rfl⟩ := Option.map_eq_some_iff.mp hr
  cases hparse : parsePacket cmp (ethernetType b) (vlibBufferAdvance b sizeofEthernetHeader) with
  | none =>
    obtain ⟨x, hx, hl⟩ := processPacket_other cmp now s.table b stack hparse
    rw [hx] at hp
    obtain rfl := Option.some.inj hp
    simp only [Option.bind_some, hl, Option.toList_none, List.nil_append]
    exact ⟨.kept _ _ (SameKeys.refl _), lines, slots, hi⟩
  | some sp =>
    obtain ⟨sigLen, p⟩ := sp
    obtain ⟨r', q, hr', _, hl, hpass, _, lines', slots', hinv, _⟩ | ⟨_, hn⟩ :=
      processPacket_ip cmp now b stack hparse hi
    · rw [hr'] at hp
      obtain rfl := Option.some.inj hp
      refine ⟨?_, lines', slots', hinv⟩
      cases hl with
      | hit f hf hk hm =>
        obtain ⟨x, hx, hxl⟩ := hpass.found f rfl
        rw [hx, Option.bind_some, hxl]
        exact .hit now b stack sigLen p f _ hparse hf hk hm hpass.keys
      | made fm' t e h hfl _ ho =>
        obtain ⟨x, hx, hxl⟩ := hpass.found _ rfl
        rw [hx, Option.bind_some, hxl]
        exact .made now b stack sigLen p _ fm' _ hparse hfl rfl ho hpass.keys
      | full fm' _ hfl _ =>
        obtain ⟨hx, _⟩ := hpass.full rfl
        rw [hx, Option.bind_none, Option.toList_none, List.nil_append]
        have hk : SameKeys s.table fm' := by
          refine ⟨fun g => by rw [hfl], fun g => ?_⟩
          rw [hfl]
          exact ⟨rfl, rfl⟩
        exact .kept _ _ (hk.trans hpass.keys)
    · rw [hn] at hp
      cases hp

theorem step_outcome (cmp : AddressCompare) {s s' : Traced} {a : Action}
    (hi : ∃ lines slots, Inv s.table lines slots) (hr : tracedStep cmp s a = some s') :
    Outcome cmp s a s' ∧ ∃ lines slots, Inv s'.table lines slots := by
  obtain ⟨lines, slots, hi⟩ := hi
  cases a with
  | wheel now =>
    obtain ⟨tm, n, slots', hw, hi', _⟩ := timerWheelIndexUpdate_spec hi now
    rw [tracedStep, hw] at hr
    obtain rfl := Option.some.inj hr
    exact ⟨.kept _ _ (SameKeys.refl _), _, _, hi'⟩
  | packet now b stack => exact packet_outcome cmp hi hr
  | expire =>
    obtain hno | hlt := hi.timeIndex
    · have hnone : s.table.timerWheel[s.table.timeIndex]? = none := by
        rw [hi.wheel, hno, List.getElem?_eq_none]
        simp [noIndex, timerMaxLifetime]
      simp [tracedStep, flowtableTimerExpire, hnone] at hr
    · obtain ⟨r, lines', slots', he, hi', hsh, _⟩ := flowtableTimerExpire_spec hi hlt
      rw [tracedStep, he] at hr
      obtain rfl := Option.some.inj hr
      exact ⟨.expired _ hsh, _, _, hi'⟩
  | update args =>
    obtain ⟨r, hu, hi', hk, _⟩ := flowtableUpdate_spec hi args
    rw [tracedStep, hu] at hr
    obtain rfl := Option.some.inj hr
    exact ⟨.kept _ _ hk, _, _, hi'⟩

theorem step_inv (cmp : AddressCompare) {s s' : Traced} {a : Action} (hs : TracedInv s)
    (ht : Told cmp s a) (hr : tracedStep cmp s a = some s') : TracedInv s' := by
  obtain ⟨ho, hinv⟩ := step_outcome cmp hs.inv hr
  cases ho with
  | kept a fm' hk => exact hs.sameKeys hinv hk
  | hit now b stack sigLen p f fm' hparse hf hk hm hkeys =>
    obtain ⟨q, hq, rfl⟩ := hs.covered f hf
    have hqs := (ht sigLen p hparse q hq hk).mp hm
    rw [← hqs]
    exact hs.hit hinv hkeys hq
  | made now b stack sigLen p e fm₁ fm' hparse hfl he hother hkeys =>
    have hhash := parse_hash hparse
    refine hs.made hinv hfl hkeys (he.trans hhash) fun q hq hsig => ?_
    obtain ⟨hql, hqh⟩ := hs.live q hq
    have hk : (s.table.flows.elt q.2).sigHash = p.hash := by rw [hqh, hsig, hhash]
    exact hother q.2 hql hk ((ht sigLen p hparse q hq hk).mpr hsig)
  | expired fm' hsh =>
    refine hs.restrict hinv (fun g hg => ⟨hsh.2 g hg, by rw [hsh.1]⟩) fun q => ?_
    rw [stillAlive, List.mem_filter, decide_eq_true_eq]

/-- The loop over a frame is a run of packet actions, one for each pass, that
traces the lookups of the buffers sent. -/
theorem processLoop_actions (cmp : AddressCompare) (now n : Nat) {k : Nat} {fm : FlowtableMain}
    {arrivals : List Arrival} {r : FlowtableMain × List Sent}
    (hr : processLoop cmp now n k fm arrivals = some r) (alive : List (Signature × Nat)) :
    ∃ acts, run (tracedStep cmp) ⟨fm, alive⟩ acts =
      some ⟨r.1, (r.2.filterMap Sent.lookup).reverse ++ alive⟩ := by
  induction n generalizing k fm arrivals r alive with
  | zero =>
    cases arrivals with
    | nil =>
      obtain rfl := Option.some.inj hr
      exact ⟨[], rfl⟩
    | cons a rest => cases hr
  | succ n ih =>
    cases arrivals with
    | nil =>
      obtain rfl := Option.some.inj hr
      exact ⟨[], rfl⟩
    | cons a rest =>
      simp only [processLoop, Option.bind_eq_bind] at hr
      obtain ⟨⟨fm', b, os⟩, hp, hr⟩ := Option.bind_eq_some_iff.mp hr
      have hstep : tracedStep cmp ⟨fm, alive⟩ (.packet now a.buffer (a.stack k)) =
          some ⟨fm', (os.bind Sent.lookup).toList ++ alive⟩ := by
        simp only [tracedStep, hp, Option.map_some]
      cases os with
      | none =>
        obtain ⟨acts, hacts⟩ := ih hr alive
        exact ⟨_ :: acts, run_cons_eq_some.mpr ⟨_, hstep, hacts⟩⟩
      | some sent =>
        obtain ⟨⟨fm'', sents⟩, hl, hr⟩ := Option.bind_eq_some_iff.mp hr
        obtain rfl := Option.some.inj hr
        obtain ⟨acts, hacts⟩ := ih hl ((Option.bind (some sent) Sent.lookup).toList ++ alive)
        refine ⟨_ :: acts, run_cons_eq_some.mpr ⟨_, hstep, ?_⟩⟩
        rw [hacts]
        cases hs : sent.lookup <;> simp [hs]

theorem flowtableProcess_actions (cmp : AddressCompare) {passes now : Nat} {fm : FlowtableMain}
    {arrivals : List Arrival} {r : FlowtableMain × List Sent × Nat}
    (hr : flowtableProcess cmp passes now fm arrivals = some r) (alive : List (Signature × Nat)) :
    ∃ acts, run (tracedStep cmp) ⟨fm, alive⟩ (.wheel now :: acts ++ [.expire]) =
      some ⟨r.1, stillAlive r.1 ((r.2.1.filterMap Sent.lookup).reverse ++ alive)⟩ := by
  simp only [flowtableProcess, Option.bind_eq_bind] at hr
  obtain ⟨fm₁, hw, hr⟩ := Option.bind_eq_some_iff.mp hr
  obtain ⟨⟨fm₂, sents⟩, hl, hr⟩ := Option.bind_eq_some_iff.mp hr
  obtain ⟨⟨fm₃, n⟩, he, hr⟩ := Option.bind_eq_some_iff.mp hr
  obtain rfl := Option.some.inj hr
  obtain ⟨acts, hacts⟩ := processLoop_actions cmp now passes hl alive
  refine ⟨acts, run_append_eq_some.mpr ⟨_, run_cons_eq_some.mpr ⟨_, ?_, hacts⟩, ?_⟩⟩
  · simp only [tracedStep, hw, Option.map_some]
  · simp only [run_cons, tracedStep, he, Option.map_some, Option.bind_some, run_nil]

theorem run_actions (cmp : AddressCompare) (events : List Event) {fm fm' : FlowtableMain}
    (hr : run (step cmp) fm events = some fm') (alive : List (Signature × Nat)) :
    ∃ acts alive', run (tracedStep cmp) ⟨fm, alive⟩ acts = some ⟨fm', alive'⟩ := by
  induction events generalizing fm alive with
  | nil =>
    obtain rfl := Option.some.inj hr
    exact ⟨[], alive, rfl⟩
  | cons e events ih =>
    obtain ⟨fm₁, hs, hr⟩ := run_cons_eq_some.mp hr
    obtain ⟨acts₁, alive₁, h₁⟩ : ∃ acts alive',
        run (tracedStep cmp) ⟨fm, alive⟩ acts = some ⟨fm₁, alive'⟩ := by
      cases e with
      | frame passes now arrivals =>
        obtain ⟨r, hp, rfl⟩ := Option.map_eq_some_iff.mp hs
        obtain ⟨acts, hacts⟩ := flowtableProcess_actions cmp hp alive
        exact ⟨_, _, hacts⟩
      | update args =>
        obtain ⟨r, hu, rfl⟩ := Option.map_eq_some_iff.mp hs
        refine ⟨[.update args], alive, ?_⟩
        simp only [run_cons, tracedStep, hu, Option.map_some, Option.bind_some, run_nil]
    obtain ⟨acts, alive', h⟩ := ih hr alive₁
    exact ⟨acts₁ ++ acts, alive', run_append_eq_some.mpr ⟨_, h₁, h⟩⟩

def Linked (fm : FlowtableMain) : Prop := ∃ lines slots, Inv fm lines slots

theorem step_linked (cmp : AddressCompare) (fm : FlowtableMain) (e : Event) (fm' : FlowtableMain)
    (hs : Linked fm) (hr : step cmp fm e = some fm') : Linked fm' := by
  obtain ⟨acts, alive, hacts⟩ := run_actions cmp [e] (run_cons_eq_some.mpr ⟨fm', hr, run_nil fm'⟩) []
  have hstep : ∀ s a t, Linked s.table → tracedStep cmp s a = some t → Linked t.table :=
    fun s a t hs ht => (step_outcome cmp hs ht).2
  exact invariant (P := fun s : Traced => Linked s.table) hstep hs hacts

theorem reachable_linked (cmp : AddressCompare) (next : Nat) {events : List Event}
    {fm : FlowtableMain} (hr : run (step cmp) (flowtableInit next) events = some fm) : Linked fm :=
  invariant (step_linked cmp) ⟨_, _, flowtableInit_inv next⟩ hr

/-- In a run in which the compared bytes tell the signatures apart, flows and
signatures of the packets correspond one to one. -/
theorem run_distinct (cmp : AddressCompare) (next : Nat) (actions : List Action)
    (ht : Meets (tracedStep cmp) (Told cmp) (start next) actions) (s : Traced)
    (hr : run (tracedStep cmp) (start next) actions = some s) : Distinct s :=
  (invariant_of_meets (P := TracedInv) (fun _ _ _ hs ht hr => step_inv cmp hs ht hr)
    (start_inv next) ht hr).distinct

def sameStack : Bytes := List.replicate 37 0xaa

def firstSig : Signature := .ip4 ⟨0x0100000a, 0x0200000a, 17, 0x0200, 0x0100⟩
def secondSig : Signature := .ip4 ⟨0x0100000a, 0x0200000a, 17, 0x0700, 0x0400⟩

def firstPacket : List Action := [.wheel 7, .packet 7 (udpBuffer 1 2) sameStack]

theorem firstPacket_run :
    ∃ s lines slots, run (tracedStep sampleCompare) (start 0) firstPacket = some s ∧
      Inv s.table lines slots ∧ Tidy s.table lines ∧ s.alive = [(firstSig, 0)] ∧
      s.table.flowsCpt = 1 ∧ sameBytes (s.table.flows.elt 0).sig sameStack sizeofIp4Sig = true := by
  obtain ⟨tm, n, _, hw, hi, _⟩ := timerWheelIndexUpdate_spec (flowtableInit_inv 0) 7
  have hcpt : (flowtableInit 0).flowsCpt ≤ fmPoolCount := by
    rw [flowtableInit_eq]
    exact Nat.zero_le _
  obtain ⟨fm, b, sent, lines, slots, hp, hi', ht, _⟩ :=
    packet_spec sampleCompare 7 (udpBuffer 1 2) sameStack hi
      (fun k h hk => tidy_flowtableInit 0 k h hk) hcpt
  have heval : (run (tracedStep sampleCompare) (start 0) firstPacket).map (fun s => (s.alive,
      s.table.flowsCpt, sameBytes (s.table.flows.elt 0).sig sameStack sizeofIp4Sig)) =
      some ([(firstSig, 0)], 1, true) := by
    rw [start, flowtableInit_eq]
    decide +kernel
  have hrun : run (tracedStep sampleCompare) (start 0) firstPacket =
      some ⟨fm, sent.lookup.toList ++ []⟩ := by
    simp only [firstPacket, run_cons, tracedStep, start, hw, hp, Option.map_some, Option.bind_some,
      run_nil]
  rw [hrun, Option.map_some] at heval
  obtain ⟨ha, hrest⟩ := Prod.mk.inj (Option.some.inj heval)
  obtain ⟨hc, hs⟩ := Prod.mk.inj hrest
  exact ⟨_, lines, slots, hrun, hi', ht, ha, hc, hs⟩

/-- A second packet of the first connection. -/
theorem run_distinct_sample :
    ∃ s, run (tracedStep sampleCompare) (start 0)
      (firstPacket ++ [.packet 8 (udpBuffer 1 2) sameStack]) = some s ∧ Distinct s := by
  obtain ⟨s, lines, slots, hrun, hi, ht, ha, hc, hs⟩ := firstPacket_run
  obtain ⟨fm', b, sent, _, _, hp, _⟩ := packet_spec sampleCompare 8 (udpBuffer 1 2) sameStack hi ht
    (by rw [hc]; decide)
  have hstep : tracedStep sampleCompare s (.packet 8 (udpBuffer 1 2) sameStack) =
      some ⟨fm', sent.lookup.toList ++ s.alive⟩ := by
    simp only [tracedStep, hp, Option.map_some, Option.bind_some]
  have hrun' : run (tracedStep sampleCompare) (start 0)
      (firstPacket ++ [.packet 8 (udpBuffer 1 2) sameStack]) =
      some ⟨fm', sent.lookup.toList ++ s.alive⟩ :=
    run_append_eq_some.mpr ⟨s, hrun, run_cons_eq_some.mpr ⟨_, hstep, rfl⟩⟩
  refine ⟨_, hrun', run_distinct sampleCompare 0 _ (meets_append.mpr ⟨?_, fun t htr => ?_⟩) _ hrun'⟩
  · refine ⟨trivial, fun t htr => ⟨fun _ _ _ q hq => ?_, fun _ _ => trivial⟩⟩
    obtain ⟨fm, _, rfl⟩ := Option.map_eq_some_iff.mp htr
    simp [start] at hq
  · rw [hrun] at htr
    obtain rfl := Option.some.inj htr
    refine ⟨fun sigLen p hparse q hq _ => ?_, fun _ _ => trivial⟩
    have hsig : parsePacket sampleCompare (ethernetType (udpBuffer 1 2))
        (vlibBufferAdvance (udpBuffer 1 2) sizeofEthernetHeader) =
        some (sizeofIp4Sig, ⟨some 1, firstSig, hashSignature firstSig⟩) := by decide +kernel
    rw [hsig] at hparse
    obtain ⟨rfl, rfl⟩ := Prod.mk.inj (Option.some.inj hparse)
    rw [ha, List.mem_singleton] at hq
    subst hq
    exact ⟨fun _ => rfl, fun _ => hs⟩

/-- Two connections between the same hosts whose ports collide in the hash: the
second one gets the flow entry of the first. -/
theorem collision_shares_flow :
    ∃ s, run (tracedStep sampleCompare) (start 0)
      (firstPacket ++ [.packet 7 (udpBuffer 4 7) sameStack]) = some s ∧ ¬ Distinct s := by
  obtain ⟨s, lines, slots, hrun, hi, ht, ha, _, _⟩ := firstPacket_run
  have hparse : parsePacket sampleCompare (ethernetType (udpBuffer 4 7))
      (vlibBufferAdvance (udpBuffer 4 7) sizeofEthernetHeader) =
      some (sizeofIp4Sig, ⟨some 1, secondSig, hashSignature secondSig⟩) := by decide +kernel
  have hlook : (run (tracedStep sampleCompare) (start 0) firstPacket).bind (fun s =>
      (flowtableEntryLookupCreate s.table (hashSignature secondSig) sameStack sizeofIp4Sig 7).map
        (fun q => q.2.1)) = some (some 0) := by
    rw [start, flowtableInit_eq]
    decide +kernel
  obtain ⟨r, q, hr, hq, _, hpass, _⟩ |
      ⟨hn, _⟩ :=
    processPacket_ip sampleCompare 7 (udpBuffer 4 7) sameStack hparse hi
  · rw [hrun, Option.bind_some, hq, Option.map_some] at hlook
    obtain ⟨sent, hsent, hlookup⟩ := hpass.found 0 (Option.some.inj hlook)
    have hstep : tracedStep sampleCompare s (.packet 7 (udpBuffer 4 7) sameStack) =
        some ⟨r.1, [(secondSig, 0), (firstSig, 0)]⟩ := by
      simp only [tracedStep, hr, hsent, hlookup, ha, Option.map_some, Option.bind_some,
        Option.toList_some]
      rfl
    refine ⟨_, run_append_eq_some.mpr ⟨s, hrun, run_cons_eq_some.mpr ⟨_, hstep, rfl⟩⟩, fun hd => ?_⟩
    have := (hd (secondSig, 0) (by simp) (firstSig, 0) (by simp)).mp rfl
    exact absurd this (by decide)
  · exact absurd ht hn

end Vppsb.FlowIdentity
