import Vppsb.FlowOverdue

namespace Vppsb.FlowAsserts

open Vppsb.StepRun Vppsb.PoolStore Vppsb.KeyedPool Vppsb.LinkedRing Vppsb.RingFamily
  Vppsb.FlowSignature Vppsb.FlowTable Vppsb.FlowProcess Vppsb.FlowInvariant Vppsb.FlowCreate
  Vppsb.FlowExpire Vppsb.FlowWheel Vppsb.FlowRun Vppsb.FlowTimers Vppsb.FlowOverdue

inductive Assertion where
  /-- `fm->flows_cpt > 1` -/
  | flowsCpt
  /-- `f->timer_index == (e - fm->timers)` -/
  | timerIndex
  /-- `f->expire >= now` -/
  | expire
  /-- `fm->flows_cpt <= FM_POOL_COUNT` -/
  | poolCount
deriving DecidableEq

def check (a : Assertion) (holds : Bool) : List Assertion := if holds then [] else [a]

/-- The assertions that fail in the loop of `flowtable_timer_expire`, in order. -/
def expireLoopFailures (now : Nat) : Nat → FlowtableMain → Nat → List Assertion
  | 0, _, _ => []
  | n + 1, fm, e =>
    match (fm.timers.elt e).value with
    | none => []
    | some f =>
      check .timerIndex ((fm.flows.elt f).timerIndex == e) ++
        check .expire (decide (now ≤ (fm.flows.elt f).expire)) ++
        check .flowsCpt (decide (1 < fm.flowsCpt)) ++
        match timerExpireLoop 1 fm e, (fm.timers.elt e).next with
        | some r, some next => expireLoopFailures now n r.1 next
        | _, _ => []

def timerExpireFailures (fm : FlowtableMain) (now : Nat) : List Assertion :=
  match fm.timerWheel[fm.timeIndex]? with
  | none => []
  | some slot =>
    if dlistIsEmpty fm.timers.elt slot then []
    else
      match (fm.timers.elt slot).next with
      | none => []
      | some e => expireLoopFailures now timerMaxExpire fm e

/-- The assertion of `flowtable_entry_lookup_create` stands behind the search. -/
def lookupFailures (fm : FlowtableMain) (key : BitVec 64) (sig : Bytes) (sigLen : Nat) :
    List Assertion :=
  match fm.flowsHt key with
  | none => check .poolCount (decide (fm.flowsCpt ≤ fmPoolCount))
  | some head =>
    match lookupLine fm sig sigLen (fm.htLines.len + 1) (fm.htLines.elt head).next with
    | some none => check .poolCount (decide (fm.flowsCpt ≤ fmPoolCount))
    | _ => []

def packetFailures (cmp : AddressCompare) (fm : FlowtableMain) (b : Buffer) (stack : Bytes) :
    List Assertion :=
  match parsePacket cmp (ethernetType b) (vlibBufferAdvance b sizeofEthernetHeader) with
  | none => []
  | some (sigLen, p) => lookupFailures fm p.hash stack sigLen

def processLoopFailures (cmp : AddressCompare) (now : Nat) :
    Nat → Nat → FlowtableMain → List Arrival → List Assertion
  | _, _, _, [] => []
  | 0, _, _, _ :: _ => []
  | n + 1, k, fm, a :: rest =>
    packetFailures cmp fm a.buffer (a.stack k) ++
      match processPacket cmp now fm a.buffer (a.stack k) with
      | none => []
      | some (fm, b, none) => processLoopFailures cmp now n (k + 1) fm (⟨b, a.stack⟩ :: rest)
      | some (fm, _, some _) => processLoopFailures cmp now n 0 fm rest

/-- The table when `flowtable_process` calls `flowtable_timer_expire`. -/
def beforeExpire (cmp : AddressCompare) (passes now : Nat) (fm : FlowtableMain)
    (arrivals : List Arrival) : Option FlowtableMain := do
  let fm ← timerWheelIndexUpdate fm now
  let r ← processLoop cmp now passes 0 fm arrivals
  some r.1

def failures (cmp : AddressCompare) (fm : FlowtableMain) : Event → List Assertion
  | .frame passes now arrivals =>
    (match timerWheelIndexUpdate fm now with
      | none => []
      | some fm => processLoopFailures cmp now passes 0 fm arrivals) ++
    match beforeExpire cmp passes now fm arrivals with
    | none => []
    | some fm => timerExpireFailures fm now
  | .update _ => []

/-- Flows of at most `n` elements of a slot list, from element `e` on. -/
def frontFlows (m : Mem Nat Nat) : Nat → Nat → List Nat
  | 0, _ => []
  | n + 1, e =>
    match (m e).value with
    | none => []
    | some f => f :: ((m e).next.elim [] (frontFlows m n))

/-- The flows at the front of the current slot, as many as one call may remove. -/
def slotFlows (fm : FlowtableMain) : List Nat :=
  match fm.timerWheel[fm.timeIndex]? with
  | none => []
  | some slot => (fm.timers.elt slot).next.elim [] (frontFlows fm.timers.elt timerMaxExpire)

/-- None of the flows to be removed is overdue, and they are not all the flows. -/
def Timely (fm : FlowtableMain) (now : Nat) : Prop :=
  (∀ f ∈ slotFlows fm, now ≤ (fm.flows.elt f).expire) ∧
    (slotFlows fm = [] ∨ (slotFlows fm).length < fm.flowsCpt)

/-- The flow stands in one of the two slots that a call looks at, the one where the wheel stands
and the one of the time. -/
def InReach (fm : FlowtableMain) (now f : Nat) : Prop :=
  InSlot fm fm.timeIndex (fm.flows.elt f).timerIndex ∨
    InSlot fm (now % timerMaxLifetime) (fm.flows.elt f).timerIndex

def isIp (cmp : AddressCompare) (a : Arrival) : Prop :=
  parsePacket cmp (ethernetType a.buffer) (vlibBufferAdvance a.buffer sizeofEthernetHeader) ≠ none

/-- No flow in the two slots is overdue, so that the wheel has come in time for each of them. The
flow of a packet goes to another slot, as no lifetime is zero or a whole turn of the wheel. If there
are flows in the two slots, then there are more flows than a call removes, or one of them stands in
another slot, or a packet comes whose flow does. -/
structure InTime (cmp : AddressCompare) (fm : FlowtableMain) (now : Nat) (arrivals : List Arrival) :
    Prop where
  due : ∀ f, Live fm.flows f → InReach fm now f → now ≤ (fm.flows.elt f).expire
  lifetime : (∃ a ∈ arrivals, isIp cmp a) → ∀ f, Live fm.flows f →
    0 < (fm.flows.elt f).lifetime ∧ (fm.flows.elt f).lifetime < timerMaxLifetime
  stays : (∃ f, Live fm.flows f ∧ InReach fm now f) → timerMaxExpire < fm.flowsCpt ∨
    (∃ f, Live fm.flows f ∧ ¬ InReach fm now f) ∨ ∃ a ∈ arrivals, isIp cmp a

def ExpiresInTime (cmp : AddressCompare) (fm : FlowtableMain) : Event → Prop
  | .frame _ now arrivals => InTime cmp fm now arrivals
  | .update _ => True

theorem mem_check {a b : Assertion} {holds : Bool} :
    b ∈ check a holds ↔ b = a ∧ holds = false := by
  cases holds <;> simp [check]

variable {fm : FlowtableMain} {lines : BitVec 64 → List Nat} {slots : Nat → List Nat}

theorem frontFlows_eq {m : Mem Nat Nat} {a h : Nat} {xs : List Nat} (hs : Seg m a xs h)
    (hh : (m h).value = none) (he : ∀ x ∈ xs, (m x).value ≠ none) (n : Nat) :
    frontFlows m n (xs.headD h) = (xs.take n).filterMap (fun e => (m e).value) := by
  induction xs generalizing a n with
  | nil => cases n <;> simp [frontFlows, hh]
  | cons x xs ih =>
    cases n with
    | zero => rfl
    | succ n =>
      obtain ⟨f, hf⟩ := Option.ne_none_iff_exists'.mp (he x (by simp))
      have ih' := ih hs.2 (fun y hy => he y (by simp [hy])) n
      rw [List.headD_cons, List.take_succ_cons, List.filterMap_cons, hf]
      simp only [frontFlows, hf, hs.2.next_eq, Option.elim_some, ih']

def front (fm : FlowtableMain) (slots : Nat → List Nat) (i n : Nat) : List Nat :=
  ((slots i).take n).filterMap (fun e => (fm.timers.elt e).value)

theorem slotFlows_eq (hi : Inv fm lines slots) (ht : fm.timeIndex < timerMaxLifetime) :
    slotFlows fm = front fm slots fm.timeIndex timerMaxExpire := by
  have hr := hi.slotRings.ring _ _ (if_pos ht)
  simp only [slotFlows, hi.wheel, List.getElem?_range ht]
  obtain hs | ⟨hn, hnone⟩ := hr.links
  · rw [hs.next_eq, Option.elim_some, frontFlows_eq hs hr.head hr.elems, front]
  · rw [hnone, Option.elim_none, front, hn, List.take_nil, List.filterMap_nil]

theorem expire_pass (hi : Inv fm lines slots) {i e : Nat} {rest : List Nat}
    (hs : slots i = e :: rest) (n : Nat) :
    ∃ f fm₁ lines', (fm.timers.elt e).value = some f ∧ (fm.flows.elt f).timerIndex = e ∧
      (fm.timers.elt e).next = some (rest.headD i) ∧ timerExpireLoop 1 fm e = some (fm₁, 1) ∧
      Inv fm₁ lines' (Function.update slots i rest) ∧ fm₁.flowsCpt = fm.flowsCpt - 1 ∧
      fm₁.flows.elt = fm.flows.elt ∧
      front fm slots i (n + 1) = f :: front fm₁ (Function.update slots i rest) i n := by
  obtain ⟨f, fm₁, tm, lines', hv, hidx, hrem, hnext, htm, htv, hinv, hfr, _⟩ := expire_first hi hs
  refine ⟨f, _, lines', hv, hidx, hnext, ?_, hinv, hfr.cpt, hfr.shrinks.1, ?_⟩
  · simp only [timerExpireLoop, hv, hrem, hfr.timers, hnext, htm, Option.bind_eq_bind,
      Option.bind_some]
  · rw [front, hs, List.take_succ_cons, List.filterMap_cons, hv, front, Function.update_self]
    simp [htv]

/-- Just two of the assertions can fail in the loop: that on the expire value at
an overdue flow, and that on the counter when the last flow goes. -/
theorem mem_expireLoopFailures (now n : Nat) {fm : FlowtableMain} {lines : BitVec 64 → List Nat}
    {slots : Nat → List Nat} (hi : Inv fm lines slots) {i : Nat} (hlt : i < timerMaxLifetime)
    (a : Assertion) :
    a ∈ expireLoopFailures now n fm ((slots i).headD i) ↔
      a = .expire ∧ (∃ f ∈ front fm slots i n, (fm.flows.elt f).expire < now) ∨
        a = .flowsCpt ∧ front fm slots i n ≠ [] ∧ fm.flowsCpt ≤ (front fm slots i n).length := by
  induction n generalizing fm lines slots with
  | zero => simp [expireLoopFailures, front]
  | succ n ih =>
    cases hs : slots i with
    | nil =>
      have hv := (hi.slotRings.ring i i (if_pos hlt)).head
      simp [expireLoopFailures, front, hs, hv]
    | cons e rest =>
      obtain ⟨f, fm₁, lines', hv, hidx, hnext, hpass, hinv, hcpt, helt, hfront⟩ :=
        expire_pass hi hs n
      have ih' := ih hinv
      rw [Function.update_self, hcpt, helt] at ih'
      rw [hfront]
      generalize front fm₁ _ i n = gs at ih'
      simp only [expireLoopFailures, List.headD_cons, hv, hidx, hpass, hnext, List.mem_append,
        mem_check, ih', beq_self_eq_true, decide_eq_false_iff_not, not_le, not_lt,
        List.length_cons, List.exists_mem_cons_iff]
      cases a with
      | timerIndex => simp
      | poolCount => simp
      | expire => simp
      | flowsCpt =>
        cases gs with
        | nil => simp
        | cons g gs =>
          have hle : fm.flowsCpt ≤ 1 ∨ fm.flowsCpt - 1 ≤ gs.length + 1 ↔
              fm.flowsCpt ≤ gs.length + 1 + 1 := by
            rw [Nat.sub_le_iff_le_add]
            exact or_iff_right_of_imp (fun h => h.trans (Nat.le_add_left 1 _))
          simpa only [reduceCtorEq, false_and, or_false, false_or, true_and, ne_eq,
            not_false_eq_true, List.length_cons] using hle

theorem mem_timerExpireFailures (hi : Inv fm lines slots) (ht : fm.timeIndex < timerMaxLifetime)
    (now : Nat) (a : Assertion) :
    a ∈ timerExpireFailures fm now ↔
      a = .expire ∧ (∃ f ∈ slotFlows fm, (fm.flows.elt f).expire < now) ∨
        a = .flowsCpt ∧ slotFlows fm ≠ [] ∧ fm.flowsCpt ≤ (slotFlows fm).length := by
  have hr := hi.slotRings.ring _ _ (if_pos ht)
  rw [slotFlows_eq hi ht, ← mem_expireLoopFailures now timerMaxExpire hi ht]
  simp only [timerExpireFailures, hi.wheel, List.getElem?_range ht]
  by_cases hempty : dlistIsEmpty fm.timers.elt fm.timeIndex = true
  · rw [if_pos hempty, (dlistIsEmpty_iff hr).mp hempty]
    simp only [List.headD_nil]
    rw [show timerMaxExpire = 255 + 1 from rfl, expireLoopFailures, hr.head]
  · have hne := mt (dlistIsEmpty_iff hr).mpr hempty
    rw [if_neg hempty, (hr.seg_of_ne_nil hne).next_eq]

theorem timerExpireFailures_nil (hi : Inv fm lines slots) (ht : fm.timeIndex < timerMaxLifetime)
    (now : Nat) : timerExpireFailures fm now = [] ↔ Timely fm now := by
  rw [List.eq_nil_iff_forall_not_mem]
  simp only [mem_timerExpireFailures hi ht, Timely]
  constructor
  · intro h
    refine ⟨fun f hf => ?_, ?_⟩
    · by_contra hlt
      exact h .expire (Or.inl ⟨rfl, f, hf, not_le.mp hlt⟩)
    · by_contra hn
      rw [not_or, not_lt] at hn
      exact h .flowsCpt (Or.inr ⟨rfl, hn⟩)
  · rintro ⟨hle, hlen⟩ a (⟨_, f, hf, hlt⟩ | ⟨_, hne, hcpt⟩)
    · exact absurd (hle f hf) (not_le.mpr hlt)
    · exact absurd (hlen.resolve_left hne) (not_lt.mpr hcpt)

theorem packetFailures_nil (cmp : AddressCompare) (hlim : fm.flowsCpt ≤ fmPoolCount) (b : Buffer)
    (stack : Bytes) : packetFailures cmp fm b stack = [] := by
  have hc : check .poolCount (decide (fm.flowsCpt ≤ fmPoolCount)) = [] := by
    rw [decide_eq_true hlim]
    rfl
  unfold packetFailures lookupFailures
  split
  · rfl
  · split
    · exact hc
    · split
      · exact hc
      · rfl

theorem processLoopFailures_nil (cmp : AddressCompare) (now : Nat) (arrivals : List Arrival)
    {passes k : Nat} (hlen : arrivals.length ≤ passes) {fm : FlowtableMain}
    {lines : BitVec 64 → List Nat} {slots : Nat → List Nat} (hi : Inv fm lines slots)
    (ht : Tidy fm lines) (hlim : Meets (packetStep cmp now) BelowLimit fm arrivals) (hk : k = 0) :
    processLoopFailures cmp now passes k fm arrivals = [] := by
  induction arrivals generalizing fm lines slots passes k with
  | nil => cases passes <;> rfl
  | cons a arrivals ih =>
    obtain ⟨passes, rfl⟩ := Nat.exists_eq_succ_of_ne_zero (Nat.ne_of_gt (Nat.zero_lt_of_lt hlen))
    obtain ⟨hle, hrest⟩ := hlim
    subst hk
    obtain ⟨fm', b', s, lines', slots', hp, hi', ht', _⟩ :=
      packet_spec cmp now a.buffer (a.stack 0) hi ht hle
    have hstep : packetStep cmp now fm a = some fm' := by rw [packetStep, hp]; rfl
    have ih' := ih (Nat.le_of_succ_le_succ hlen) hi' ht' (hrest fm' hstep) rfl
    simp only [processLoopFailures, packetFailures_nil cmp hle, hp, ih', List.append_nil]

section Loop

variable {cmp : AddressCompare} {now : Nat} {a : Arrival} {rest : List Arrival}

/-- What a call keeps up until it removes flows, with the packets that are still to come. -/
structure Awaiting (cmp : AddressCompare) (fm : FlowtableMain) (slots : Nat → List Nat) (now : Nat)
    (arrivals : List Arrival) : Prop where
  due : ∀ f, Live fm.flows f → (fm.flows.elt f).timerIndex ∈ slots fm.timeIndex →
    now ≤ (fm.flows.elt f).expire
  lifetime : (∃ a ∈ arrivals, isIp cmp a) → ∀ f, Live fm.flows f →
    0 < (fm.flows.elt f).lifetime ∧ (fm.flows.elt f).lifetime < timerMaxLifetime
  stays : slots fm.timeIndex ≠ [] → timerMaxExpire < fm.flowsCpt ∨
    (∃ f, Live fm.flows f ∧ (fm.flows.elt f).timerIndex ∉ slots fm.timeIndex) ∨
      ∃ a ∈ arrivals, isIp cmp a

theorem InTime.awaiting {arrivals : List Arrival} (h : InTime cmp fm now arrivals)
    (hi : Inv fm lines slots) {tm : Mem Nat Nat} {slots' : Nat → List Nat}
    (hi' : Inv { fm with timers := withElt fm.timers tm, timeIndex := now % timerMaxLifetime }
      lines slots')
    (hm : Moved slots slots' fm.timeIndex (now % timerMaxLifetime)) :
    Awaiting cmp { fm with timers := withElt fm.timers tm, timeIndex := now % timerMaxLifetime }
      slots' now arrivals := by
  have hreach : ∀ f, (fm.flows.elt f).timerIndex ∈ slots' (now % timerMaxLifetime) ↔
      InReach fm now f := by
    intro f
    rw [hm, if_pos rfl]
    exact or_congr ⟨InSlot.of_mem hi, fun h => h.mem hi⟩ ⟨InSlot.of_mem hi, fun h => h.mem hi⟩
  refine ⟨fun f hf he => h.due f hf ((hreach f).mp he), h.lifetime, fun hne => ?_⟩
  obtain ⟨e, he⟩ := List.exists_mem_of_ne_nil _ hne
  obtain ⟨-, f, -, hf, rfl⟩ := hi'.slotFlow _ e he
  refine (h.stays ⟨f, hf, (hreach f).mp he⟩).imp_right (Or.imp_left ?_)
  exact fun ⟨g, hg, hno⟩ => ⟨g, hg, fun hg' => hno ((hreach g).mp hg')⟩

theorem slotOf_ne (ht : fm.timeIndex < timerMaxLifetime) {lifetime : Nat}
    (hl : 0 < lifetime ∧ lifetime < timerMaxLifetime) : fm.timeIndex ≠ slotOf fm lifetime := by
  simp only [timerMaxLifetime] at ht hl
  have hu : (fm.timeIndex + lifetime) % 2 ^ 32 = fm.timeIndex + lifetime :=
    Nat.mod_eq_of_lt (by omega)
  simp only [slotOf, u32, timerMaxLifetime, hu]
  omega

theorem lookup_of_ip (hip : isIp cmp a) {fm' : FlowtableMain} {b : Buffer} {s : Sent}
    (hr : processPacket cmp now fm a.buffer (a.stack 0) = some (fm', b, some s)) :
    s.lookup ≠ none := by
  cases passEnd hr with
  | other hp => exact absurd hp hip
  | flow _ _ _ _ _ => exact Option.some_ne_none _

theorem mem_of_others (hip : ¬ isIp cmp a) (h : ∃ x ∈ a :: rest, isIp cmp x) :
    ∃ x ∈ rest, isIp cmp x := by
  obtain ⟨x, hx, hxip⟩ := h
  obtain rfl | hx := List.mem_cons.mp hx
  · exact absurd hxip hip
  · exact ⟨x, hx, hxip⟩

theorem Awaiting.other (hip : ¬ isIp cmp a) (h : Awaiting cmp fm slots now (a :: rest)) :
    Awaiting cmp fm slots now rest := by
  refine ⟨h.due, fun ⟨x, hx, hxip⟩ => h.lifetime ⟨x, List.mem_cons_of_mem a hx, hxip⟩, fun hne => ?_⟩
  exact (h.stays hne).imp_right (Or.imp_right (mem_of_others hip))

theorem Awaiting.offload (h : Awaiting cmp fm slots now rest) (f : Nat) (rev : Option (BitVec 64))
    (rx : UInt32) :
    Awaiting cmp (setFlow fm f (offloadPacket (countPacket (fm.flows.elt f) rev) rx)) slots now
      rest := by
  have hsame := setFlow_offload fm f rev rx
  refine ⟨fun g hg he => ?_, fun hr g hg => ?_, fun hne => ?_⟩
  · rw [(hsame g).2.1] at he
    rw [(hsame g).1]
    exact h.due g hg he
  · rw [(hsame g).2.2]
    exact h.lifetime hr g hg
  · refine (h.stays hne).imp_right (Or.imp_left ?_)
    rintro ⟨g, hg, hno⟩
    refine ⟨g, hg, ?_⟩
    rw [(hsame g).2.1]
    exact hno

/-- A flow that is put back stands in another slot. -/
theorem Awaiting.found (hip : isIp cmp a) (h : Awaiting cmp fm slots now (a :: rest))
    (ht : fm.timeIndex < timerMaxLifetime) {f : Nat} (hf : Live fm.flows f) {tm : Mem Nat Nat}
    {slots' : Nat → List Nat}
    (hm : ∀ k e, e ∈ slots' k →
      e = (fm.flows.elt f).timerIndex ∧ k = slotOf fm (fm.flows.elt f).lifetime ∨
        e ∈ slots k ∧ e ≠ (fm.flows.elt f).timerIndex) :
    Awaiting cmp (setFlow { fm with timers := withElt fm.timers tm } f
      { fm.flows.elt f with expire := u32 (now + (fm.flows.elt f).lifetime) }) slots' now rest := by
  have hlife := h.lifetime ⟨a, List.mem_cons_self, hip⟩
  have helse : ∀ e, e ∈ slots' fm.timeIndex →
      e ∈ slots fm.timeIndex ∧ e ≠ (fm.flows.elt f).timerIndex := by
    intro e he
    obtain ⟨-, heq⟩ | hold := hm _ e he
    · exact absurd heq (slotOf_ne ht (hlife f hf))
    · exact hold
  refine ⟨fun g hg he => ?_, fun _ g hg => ?_, fun _ => .inr (.inl ⟨f, hf, fun he => ?_⟩)⟩
  · by_cases hgf : g = f
    · subst hgf
      simp only [setFlow, elt_set, Function.update_self] at he
      exact absurd rfl (helse _ he).2
    · simp only [setFlow, elt_set, Function.update_of_ne hgf] at he ⊢
      exact h.due g hg (helse _ he).1
  · by_cases hgf : g = f
    · subst hgf
      simpa only [setFlow, elt_set, Function.update_self] using hlife g hg
    · simpa only [setFlow, elt_set, Function.update_of_ne hgf] using hlife g hg
  · simp only [setFlow, elt_set, Function.update_self] at he
    exact (helse _ he).2 rfl

theorem Awaiting.made (hip : isIp cmp a) (h : Awaiting cmp fm slots now (a :: rest))
    (ht : fm.timeIndex < timerMaxLifetime) {fm₁ : FlowtableMain}
    (hfm₁ : fm₁ = fm ∨ ∃ key, fm₁ = createLine fm key) (hi₁ : Inv fm₁ lines slots) {key : BitVec 64}
    {stack : Bytes} {sigLen head : Nat} {lm tm : Mem Nat Nat} :
    Awaiting cmp (created fm₁ key stack sigLen now head lm tm)
      (Function.update slots (slotOf fm₁ timerDefaultLifetime)
        (slots (slotOf fm₁ timerDefaultLifetime) ++ [fresh fm₁.timers])) now rest := by
  have hlife := h.lifetime ⟨a, List.mem_cons_self, hip⟩
  have hflows : fm₁.flows = fm.flows := by
    obtain rfl | ⟨key, rfl⟩ := hfm₁ <;> rfl
  have hidx : fm₁.timeIndex = fm.timeIndex := by
    obtain rfl | ⟨key, rfl⟩ := hfm₁ <;> rfl
  have helse : ∀ e, e ∈ Function.update slots (slotOf fm₁ timerDefaultLifetime)
      (slots (slotOf fm₁ timerDefaultLifetime) ++ [fresh fm₁.timers]) fm₁.timeIndex →
        e ∈ slots fm.timeIndex := by
    intro e he
    obtain ⟨-, heq⟩ | hold := (mem_insert_update mem_concat).mp he
    · exact absurd heq (slotOf_ne (hidx ▸ ht) (by decide))
    · exact hidx ▸ hold
  have hlive : ∀ g, Live (created fm₁ key stack sigLen now head lm tm).flows g ↔
      Live fm₁.flows g ∨ g = fresh fm₁.flows := live_created hi₁
  refine ⟨fun g hg he => ?_, fun _ g hg => ?_,
    fun _ => .inr (.inl ⟨fresh fm₁.flows, (hlive _).mpr (Or.inr rfl), fun he => ?_⟩)⟩
  · have he' := helse _ he
    obtain hg | rfl := (hlive g).mp hg
    · rw [created_old hg] at he' ⊢
      rw [hflows] at hg he' ⊢
      exact h.due g hg he'
    · rw [created_new] at he'
      exact absurd (hi₁.slotFlow _ _ he').1 not_live_fresh
  · obtain hg | rfl := (hlive g).mp hg
    · rw [created_old hg, hflows]
      exact hlife g (hflows ▸ hg)
    · rw [created_new]
      exact (by decide : 0 < timerDefaultLifetime ∧ timerDefaultLifetime < timerMaxLifetime)
  · rw [created_new] at he
    exact not_live_fresh (hi₁.slotFlow _ _ (helse _ he)).1

theorem Awaiting.packet (h : Awaiting cmp fm slots now (a :: rest)) (hi : Inv fm lines slots)
    (ht : fm.timeIndex < timerMaxLifetime) {fm' : FlowtableMain} {b : Buffer} {s : Sent}
    (hr : processPacket cmp now fm a.buffer (a.stack 0) = some (fm', b, some s)) :
    ∃ lines' slots', Inv fm' lines' slots' ∧ fm'.timeIndex = fm.timeIndex ∧
      Awaiting cmp fm' slots' now rest := by
  by_cases hip : isIp cmp a
  case neg =>
    obtain ⟨s', hs', -⟩ := processPacket_other cmp now fm a.buffer (a.stack 0) (not_not.mp hip)
    obtain ⟨rfl, -⟩ := Prod.mk.inj (Option.some.inj (hs'.symm.trans hr))
    exact ⟨lines, slots, hi, rfl, h.other hip⟩
  case pos =>
    cases packetEnd hi hr with
    | other => exact absurd rfl (lookup_of_ip hip hr)
    | found _ _ _ _ _ _ hf hfm hi' hm =>
      subst hfm
      exact ⟨_, _, hi'.setFlow (offload_links _ _ _).1, rfl, (h.found hip ht hf hm).offload _ _ _⟩
    | made _ _ _ _ _ _ hfm₁ hi₁ hfm hi' =>
      subst hfm
      refine ⟨_, _, hi'.setFlow (offload_links _ _ _).1, ?_, (h.made hip ht hfm₁ hi₁).offload _ _ _⟩
      obtain rfl | ⟨_, rfl⟩ := hfm₁ <;> rfl

theorem Awaiting.loop {arrivals : List Arrival} {passes : Nat} {fm : FlowtableMain}
    {lines : BitVec 64 → List Nat} {slots : Nat → List Nat}
    (h : Awaiting cmp fm slots now arrivals) (hi : Inv fm lines slots)
    (ht : ∃ lines slots, Inv fm lines slots ∧ Tidy fm lines) (hx : fm.timeIndex < timerMaxLifetime)
    (hlen : arrivals.length ≤ passes) (hlim : Meets (packetStep cmp now) BelowLimit fm arrivals) :
    ∃ r lines' slots', processLoop cmp now passes 0 fm arrivals = some r ∧
      Inv r.1 lines' slots' ∧ r.1.timeIndex = fm.timeIndex ∧ Awaiting cmp r.1 slots' now [] := by
  induction arrivals generalizing fm lines slots passes with
  | nil => exact ⟨(fm, []), lines, slots, by cases passes <;> rfl, hi, rfl, h⟩
  | cons a rest ih =>
    obtain ⟨passes, rfl⟩ := Nat.exists_eq_succ_of_ne_zero (Nat.ne_of_gt (Nat.zero_lt_of_lt hlen))
    obtain ⟨hle, hrest⟩ := hlim
    obtain ⟨lines₀, slots₀, hi₀, ht⟩ := ht
    obtain ⟨fm', b, s, lines₁, slots₁, hp, hi₁, ht₁, -⟩ :=
      packet_spec cmp now a.buffer (a.stack 0) hi₀ ht hle
    obtain ⟨lines', slots', hi', hidx, h'⟩ := h.packet hi hx hp
    have hstep : packetStep cmp now fm a = some fm' := by rw [packetStep, hp]; rfl
    obtain ⟨r, lines'', slots'', hr, hi'', hidx', h''⟩ := ih h' hi' ⟨_, _, hi₁, ht₁⟩ (hidx ▸ hx)
      (Nat.le_of_succ_le_succ hlen) (hrest fm' hstep)
    refine ⟨(r.1, s :: r.2), lines'', slots'', ?_, hi'', hidx'.trans hidx, h''⟩
    simp only [processLoop, hp, hr, Option.bind_eq_bind, Option.bind_some]

theorem slot_lt_cpt (hi : Inv fm lines slots) {i f : Nat} (hlt : i < timerMaxLifetime)
    (hf : Live fm.flows f) (hno : (fm.flows.elt f).timerIndex ∉ slots i) :
    (slots i).length < fm.flowsCpt := by
  have hnd := (List.nodup_cons.mp (hi.slotRings.ring i i (if_pos hlt)).nodup).2
  have hsub : (fm.flows.elt f).timerIndex :: slots i ⊆
      (liveIndices fm.flows).map (fun g => (fm.flows.elt g).timerIndex) := by
    intro e he
    obtain rfl | he := List.mem_cons.mp he
    · exact List.mem_map.mpr ⟨f, (mem_liveIndices _ f).mpr hf, rfl⟩
    · obtain ⟨-, g, -, hg, rfl⟩ := hi.slotFlow i e he
      exact List.mem_map.mpr ⟨g, (mem_liveIndices _ g).mpr hg, rfl⟩
  have hle := (List.subperm_of_subset (List.nodup_cons.mpr ⟨hno, hnd⟩) hsub).length_le
  rw [List.length_map, List.length_cons] at hle
  rw [hi.cpt]
  exact hle

theorem Awaiting.timely (h : Awaiting cmp fm slots now []) (hi : Inv fm lines slots)
    (ht : fm.timeIndex < timerMaxLifetime) : Timely fm now := by
  rw [Timely, slotFlows_eq hi ht]
  have hle : (front fm slots fm.timeIndex timerMaxExpire).length ≤
      ((slots fm.timeIndex).take timerMaxExpire).length := List.length_filterMap_le _ _
  rw [List.length_take] at hle
  constructor
  · intro f hf
    obtain ⟨e, he, hv⟩ := List.mem_filterMap.mp hf
    obtain ⟨-, g, hg, hlive, rfl⟩ := hi.slotFlow _ e (List.mem_of_mem_take he)
    obtain rfl := Option.some.inj (hv.symm.trans hg)
    exact h.due f hlive (List.mem_of_mem_take he)
  · by_cases hnil : slots fm.timeIndex = []
    · left
      rw [front, hnil, List.take_nil, List.filterMap_nil]
    · right
      obtain hmany | ⟨f, hf, hno⟩ | ⟨a, ha, -⟩ := h.stays hnil
      · exact hle.trans_lt ((Nat.min_le_left _ _).trans_lt hmany)
      · exact hle.trans_lt ((Nat.min_le_right _ _).trans_lt (slot_lt_cpt hi ht hf hno))
      · exact absurd ha List.not_mem_nil

end Loop

/-- No assertion fails in a frame that expires in time. -/
theorem failures_nil (cmp : AddressCompare) (hi : Inv fm lines slots) (ht : Tidy fm lines)
    {e : Event} (hw : WithinLimit cmp fm e) (he : ExpiresInTime cmp fm e) :
    failures cmp fm e = [] := by
  cases e with
  | update args => rfl
  | frame passes now arrivals =>
    obtain ⟨tm, slots', hup, hi', hm⟩ := timerWheelIndexUpdate_moved hi now
    have hx : now % timerMaxLifetime < timerMaxLifetime := Nat.mod_lt _ (by decide)
    obtain ⟨r, lines'', slots'', hr, hi'', hidx, hend⟩ := (he.awaiting hi hi' hm).loop hi'
      ⟨_, _, hi', ht⟩ hx hw.1 (hw.2 _ hup)
    have hb : beforeExpire cmp passes now fm arrivals = some r.1 := by
      simp only [beforeExpire, hup, hr, Option.bind_eq_bind, Option.bind_some]
    have hx' : r.1.timeIndex < timerMaxLifetime := hidx ▸ hx
    simp only [failures, hup, hb,
      processLoopFailures_nil cmp now arrivals hw.1 hi' ht (hw.2 _ hup) rfl, List.nil_append,
      (timerExpireFailures_nil hi'' hx' now).mpr (hend.timely hi'' hx')]

/-- In a run within the flow limit in which every frame expires in time no assertion fails. -/
theorem run_asserts (cmp : AddressCompare) (next : Nat) (events : List Event)
    (hw : Meets (step cmp) (WithinLimit cmp) (flowtableInit next) events)
    (ht : Meets (step cmp) (ExpiresInTime cmp) (flowtableInit next) events) :
    Meets (step cmp) (fun fm e => failures cmp fm e = []) (flowtableInit next) events := by
  refine meets_mono (P := fun fm => ∃ lines slots, Inv fm lines slots ∧ Tidy fm lines)
    (fun fm e fm' h hw hs => ?_) (fun fm e h hw he => ?_)
    ⟨_, _, flowtableInit_inv next, tidy_flowtableInit next⟩ hw ht
  · obtain ⟨lines, slots, hi, ht⟩ := h
    obtain ⟨fm₁, lines', slots', hs', hi', ht'⟩ := step_spec cmp hi ht hw
    obtain rfl := Option.some.inj (hs'.symm.trans hs)
    exact ⟨lines', slots', hi', ht'⟩
  · obtain ⟨lines, slots, hi, ht⟩ := h
    exact failures_nil cmp hi ht hw he

def portFrame (now : Nat) (port : UInt8) : Event := .frame 1 now [⟨udpBuffer port 2, fun _ => []⟩]

def twoFlows : List Event := [portFrame 7 1, portFrame 67 3]

theorem portFrame_ip (port : UInt8) (stack : Nat → Bytes) :
    isIp sampleCompare ⟨udpBuffer port 2, stack⟩ := by
  have htype : ethernetType (udpBuffer port 2) = ethernetTypeIp4 := by
    simp [ethernetType, udpBuffer, loadNet16, ethernetTypeIp4]
  simp only [isIp, parsePacket, htype, if_pos, ne_eq, reduceCtorEq, not_false_eq_true]

/-- The first flow expires in time, as the packet of the second one comes in the same frame. -/
theorem run_asserts_sample :
    Meets (step sampleCompare) (fun fm e => failures sampleCompare fm e = []) (flowtableInit 0)
      twoFlows := by
  have hfirst : ((timerWheelIndexUpdate (flowtableInit 0) 7).map (fun fm => fm.flowsCpt)) =
      some 0 := by
    rw [flowtableInit_eq]
    decide +kernel
  have hsecond : (step sampleCompare (flowtableInit 0) (portFrame 7 1)).map (fun fm =>
      (fm.flows.len, (fm.flows.elt 0).expire, (fm.flows.elt 0).lifetime)) = some (1, 67, 60) := by
    rw [flowtableInit_eq]
    decide +kernel
  have hcpt : ((step sampleCompare (flowtableInit 0) (portFrame 7 1)).bind
      (fun fm => timerWheelIndexUpdate fm 67)).map (fun fm => fm.flowsCpt) = some 1 := by
    rw [flowtableInit_eq]
    decide +kernel
  have hno : ∀ f, ¬ Live (flowtableInit 0).flows f := not_live_flowtableInit 0
  refine run_asserts sampleCompare 0 twoFlows ⟨⟨le_rfl, fun fm hfm => ⟨?_, fun _ _ => trivial⟩⟩,
      fun fm hfm => ⟨⟨le_rfl, fun fm' hfm' => ⟨?_, fun _ _ => trivial⟩⟩, fun _ _ => trivial⟩⟩
    ⟨⟨fun f hf => absurd hf (hno f), fun _ f hf => absurd hf (hno f),
      fun ⟨f, hf, _⟩ => absurd hf (hno f)⟩, fun fm hfm => ⟨?_, fun _ _ => trivial⟩⟩
  · rw [hfm, Option.map_some, Option.some.injEq] at hfirst
    exact hfirst.trans_le (Nat.zero_le _)
  · rw [hfm, Option.bind_some, hfm', Option.map_some, Option.some.injEq] at hcpt
    exact hcpt.trans_le (by decide)
  · rw [hfm, Option.map_some, Option.some.injEq, Prod.mk.injEq, Prod.mk.injEq] at hsecond
    obtain ⟨hlen, hexpire, hlifetime⟩ := hsecond
    have hzero : ∀ f, Live fm.flows f → f = 0 :=
      fun f hf => Nat.lt_one_iff.mp (hlen ▸ hf.1)
    refine ⟨fun f hf _ => ?_, fun _ f hf => ?_, fun _ =>
      .inr (.inr ⟨_, List.mem_cons_self, portFrame_ip 3 _⟩)⟩
    · rw [hzero f hf, hexpire]
    · rw [hzero f hf, hlifetime]
      decide

/-- The only flow of the table expires in time, and a flow whose slot has been
skipped expires late. -/
theorem asserts_fail :
    (run (step sampleCompare) (flowtableInit 0) [portFrame 7 1]).map
        (fun fm => failures sampleCompare fm (.frame 0 67 [])) = some [.flowsCpt] ∧
      (run (step sampleCompare) (flowtableInit 0) [portFrame 7 1, .frame 0 68 []]).map
        (fun fm => failures sampleCompare fm (portFrame 367 3)) = some [.expire] := by
  rw [flowtableInit_eq]
  decide +kernel

end Vppsb.FlowAsserts
