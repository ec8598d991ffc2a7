import Vppsb.FlowRun

namespace Vppsb.FlowTimers

open Vppsb.StepRun Vppsb.PoolStore Vppsb.KeyedPool Vppsb.LinkedRing Vppsb.FlowSignature
  Vppsb.FlowTable Vppsb.FlowProcess Vppsb.FlowInvariant Vppsb.FlowCreate Vppsb.FlowExpire
  Vppsb.FlowWheel Vppsb.FlowLookup Vppsb.FlowRun

/-- A flow that an expiry has removed: when, with which expire value, and when
it was due. -/
structure Removal where
  flow : Nat
  time : Nat
  expire : Nat
  due : Nat
deriving DecidableEq

/-- The table with the time of the last frame, the flows that have expired, and
for each flow the time of its last packet plus the lifetime in force then. -/
structure Timed where
  table : FlowtableMain
  clock : Nat
  due : Nat → Nat
  removed : List Removal

def startTimed (nextNodeIndex : Nat) : Timed := ⟨flowtableInit nextNodeIndex, 0, fun _ => 0, []⟩

def Timed.served (s : Timed) (now : Nat) (fm : FlowtableMain) (sent : Sent) : Timed :=
  { s with
    table := fm
    due := match sent.lookup with
      | none => s.due
      | some q => Function.update s.due q.2 (now + (fm.flows.elt q.2).lifetime) }

def timedLoop (cmp : AddressCompare) (now : Nat) : Nat → Nat → Timed → List Arrival → Option Timed
  | _, _, s, [] => some s
  | 0, _, _, _ :: _ => none
  | n + 1, k, s, a :: rest => do
    let r ← processPacket cmp now s.table a.buffer (a.stack k)
    match r with
    | (fm, b, none) => timedLoop cmp now n (k + 1) { s with table := fm } (⟨b, a.stack⟩ :: rest)
    | (fm, _, some sent) => timedLoop cmp now n 0 (s.served now fm sent) rest

def removals (s : Timed) (fm : FlowtableMain) : List Removal :=
  ((liveIndices s.table.flows).filter (fun f => decide (¬ Live fm.flows f))).map
    (fun f => ⟨f, s.clock, (s.table.flows.elt f).expire, s.due f⟩)

def timedStep (cmp : AddressCompare) (s : Timed) : Event → Option Timed
  | .frame passes now arrivals => do
    let fm ← timerWheelIndexUpdate s.table now
    let s ← timedLoop cmp now passes 0 { s with table := fm, clock := now } arrivals
    let r ← flowtableTimerExpire s.table
    some { s with table := r.1, removed := removals s r.1 ++ s.removed }
  | .update args => (flowtableUpdate s.table args).map (fun r => { s with table := r.1 })

/-- Frames come at times that do not decrease and stay clear of the wrap of the
32-bit clock. Updates keep the lifetime or set one that fits into the wheel. -/
def Paced (s : Timed) : Event → Prop
  | .frame _ now _ => s.clock ≤ now ∧ now + timerMaxLifetime ≤ noIndex
  | .update args => args.lifetime = 0xffff ∨ args.lifetime.toNat < timerMaxLifetime

section Books

variable (cmp : AddressCompare)

theorem timedLoop_table (now n k : Nat) (s : Timed) (arrivals : List Arrival) :
    (timedLoop cmp now n k s arrivals).map (fun t => t.table) =
      (processLoop cmp now n k s.table arrivals).map (fun r => r.1) := by
  induction n generalizing k s arrivals with
  | zero => cases arrivals <;> rfl
  | succ n ih =>
    cases arrivals with
    | nil => rfl
    | cons a rest =>
      cases hp : processPacket cmp now s.table a.buffer (a.stack k) with
      | none => simp only [timedLoop, processLoop, hp, Option.bind_eq_bind, Option.bind_none,
          Option.map_none]
      | some r =>
        obtain ⟨fm, b, os⟩ := r
        cases os with
        | none =>
          simp only [timedLoop, processLoop, hp, Option.bind_eq_bind, Option.bind_some]
          exact ih _ _ _
        | some sent =>
          simp only [timedLoop, processLoop, hp, Option.bind_eq_bind, Option.bind_some, ih]
          cases hl : processLoop cmp now n 0 (s.served now fm sent).table rest <;>
            simp_all [Timed.served]

theorem timedStep_table (s : Timed) (e : Event) :
    (timedStep cmp s e).map (fun t => t.table) = step cmp s.table e := by
  cases e with
  | update args => simp only [timedStep, step, Option.map_map, Function.comp_def]
  | frame passes now arrivals =>
    simp only [timedStep, step, flowtableProcess, Option.bind_eq_bind]
    cases timerWheelIndexUpdate s.table now with
    | none => rfl
    | some fm =>
      have hl := timedLoop_table cmp now passes 0 { s with table := fm, clock := now } arrivals
      simp only [Option.bind_some]
      cases ht : timedLoop cmp now passes 0 { s with table := fm, clock := now } arrivals with
      | none =>
        rw [ht, Option.map_none, eq_comm, Option.map_eq_none_iff] at hl
        simp only [hl, Option.bind_none, Option.map_none]
      | some t =>
        rw [ht, Option.map_some, eq_comm, Option.map_eq_some_iff] at hl
        obtain ⟨r, hr, hrt⟩ := hl
        simp only [hr, Option.bind_some, hrt]
        cases flowtableTimerExpire t.table <;> rfl

theorem run_timed (s : Timed) (events : List Event) :
    (run (timedStep cmp) s events).map (fun t => t.table) = run (step cmp) s.table events := by
  induction events generalizing s with
  | nil => rfl
  | cons e events ih =>
    rw [run_cons, run_cons, ← timedStep_table]
    cases timedStep cmp s e with
    | none => rfl
    | some t => exact ih t

end Books

variable {fm : FlowtableMain} {lines : BitVec 64 → List Nat} {slots : Nat → List Nat}
variable {now : Nat} {due : Nat → Nat}

/-- From `now` on, the wheel does not reach slot `i` before the time `d`. -/
def Reached (now i d : Nat) : Prop := ∀ t, now ≤ t → t % timerMaxLifetime = i → d ≤ t

/-- Every flow stands in a slot that the wheel does not reach before the flow is
due. That covers both the flows put there by their lifetime and those that came
along from an earlier slot. -/
structure Scheduled (fm : FlowtableMain) (slots : Nat → List Nat) (now : Nat) (due : Nat → Nat) :
    Prop where
  lifetime : ∀ f, Live fm.flows f → (fm.flows.elt f).lifetime < timerMaxLifetime
  expire : ∀ f, Live fm.flows f → (fm.flows.elt f).expire = due f
  slot : ∀ f i, Live fm.flows f → (fm.flows.elt f).timerIndex ∈ slots i → Reached now i (due f)

/-- The slot in which a flow is put at the time `now` comes up when the flow is due. -/
theorem reached_slotOf (hx : fm.timeIndex = now % timerMaxLifetime) {lifetime : Nat}
    (hl : lifetime < timerMaxLifetime) : Reached now (slotOf fm lifetime) (now + lifetime) := by
  intro t ht hs
  have hlt : now % timerMaxLifetime < timerMaxLifetime := Nat.mod_lt _ (by decide)
  simp only [slotOf, u32, hx, timerMaxLifetime] at hs hlt hl
  omega

theorem expire_eq {lifetime : Nat} (hn : now + timerMaxLifetime ≤ noIndex)
    (hl : lifetime < timerMaxLifetime) : u32 (now + lifetime) = now + lifetime := by
  simp only [timerMaxLifetime, noIndex] at hn hl
  exact Nat.mod_eq_of_lt (by omega)

namespace Scheduled

theorem congr (hs : Scheduled fm slots now due) {fm' : FlowtableMain}
    (hlive : ∀ g, Live fm'.flows g → Live fm.flows g)
    (helt : ∀ g, Live fm'.flows g → (fm'.flows.elt g).expire = (fm.flows.elt g).expire ∧
      (fm'.flows.elt g).timerIndex = (fm.flows.elt g).timerIndex ∧
      (fm'.flows.elt g).lifetime < timerMaxLifetime) : Scheduled fm' slots now due := by
  refine ⟨fun g hg => (helt g hg).2.2, fun g hg => ?_, fun g i hg hm => ?_⟩
  · rw [(helt g hg).1, hs.expire g (hlive g hg)]
  · rw [(helt g hg).2.1] at hm
    exact hs.slot g i (hlive g hg) hm

/-- The leftovers of the old slot are overdue, so they may stand in any slot. -/
theorem wheel (hs : Scheduled fm slots now due) (hi : Inv fm lines slots)
    (hx : fm.timeIndex = noIndex ∨ fm.timeIndex = now % timerMaxLifetime) {now' : Nat}
    (hle : now ≤ now') {tm : Mem Nat Nat} {slots' : Nat → List Nat}
    (hm : ∀ k e, e ∈ slots' k →
      e ∈ slots k ∨ k = now' % timerMaxLifetime ∧ e ∈ slots fm.timeIndex) :
    Scheduled { fm with timers := withElt fm.timers tm, timeIndex := now' % timerMaxLifetime }
      slots' now' due := by
  refine ⟨hs.lifetime, hs.expire, fun f k hf he t ht hk => ?_⟩
  obtain hold | ⟨_, hold⟩ := hm k _ he
  · exact hs.slot f k hf hold t (hle.trans ht) hk
  · obtain hx | hx := hx
    · have hlt := hi.slot_lt hold
      simp [hx, noIndex, timerMaxLifetime] at hlt
    · rw [hx] at hold
      have hnow := hs.slot f _ hf hold now le_rfl rfl
      omega

theorem resched (hs : Scheduled fm slots now due) (hi : Inv fm lines slots)
    (hx : fm.timeIndex = now % timerMaxLifetime) (hn : now + timerMaxLifetime ≤ noIndex) {f : Nat}
    (hf : Live fm.flows f) {tm : Mem Nat Nat} {slots' : Nat → List Nat}
    (hm : ∀ k e, e ∈ slots' k →
      e = (fm.flows.elt f).timerIndex ∧ k = slotOf fm (fm.flows.elt f).lifetime ∨
        e ∈ slots k ∧ e ≠ (fm.flows.elt f).timerIndex) :
    Scheduled (setFlow { fm with timers := withElt fm.timers tm } f
        { fm.flows.elt f with expire := u32 (now + (fm.flows.elt f).lifetime) }) slots' now
      (Function.update due f (now + (fm.flows.elt f).lifetime)) := by
  have hl := hs.lifetime f hf
  refine ⟨fun g hg => ?_, fun g hg => ?_, fun g k hg he => ?_⟩
  · by_cases hgf : g = f
    · subst hgf
      simpa [setFlow] using hl
    · simpa [setFlow, hgf] using hs.lifetime g hg
  · by_cases hgf : g = f
    · subst hgf
      simpa [setFlow] using expire_eq hn hl
    · simpa [setFlow, hgf] using hs.expire g hg
  · by_cases hgf : g = f
    · subst hgf
      rw [Function.update_self]
      simp only [setFlow, elt_set, Function.update_self] at he
      obtain ⟨_, rfl⟩ | ⟨_, hne⟩ := hm k _ he
      · exact reached_slotOf hx hl
      · exact absurd rfl hne
    · rw [Function.update_of_ne hgf]
      simp only [setFlow, elt_set, Function.update_of_ne hgf] at he
      obtain ⟨heq, _⟩ | ⟨he, _⟩ := hm k _ he
      · have hv := (hi.flowSlot g hg).2
        rw [heq, (hi.flowSlot f hf).2] at hv
        exact absurd (Option.some.inj hv).symm hgf
      · exact hs.slot g k hg he

theorem created (hs : Scheduled fm slots now due) (hi : Inv fm lines slots)
    (hx : fm.timeIndex = now % timerMaxLifetime) (hn : now + timerMaxLifetime ≤ noIndex)
    {key : BitVec 64} {sig : Bytes} {sigLen head : Nat} {lm tm : Mem Nat Nat} :
    Scheduled (created fm key sig sigLen now head lm tm)
      (Function.update slots (slotOf fm timerDefaultLifetime)
        (slots (slotOf fm timerDefaultLifetime) ++ [fresh fm.timers])) now
      (Function.update due (fresh fm.flows) (now + timerDefaultLifetime)) := by
  have hl : timerDefaultLifetime < timerMaxLifetime := by decide
  refine ⟨fun g hg => ?_, fun g hg => ?_, fun g k hg he => ?_⟩ <;>
    obtain hg | rfl := (live_created hi g).mp hg
  · rw [created_old hg]
    exact hs.lifetime g hg
  · rw [created_new]
    exact hl
  · rw [created_old hg, Function.update_of_ne (ne_fresh hg)]
    exact hs.expire g hg
  · rw [created_new, Function.update_self]
    exact expire_eq hn hl
  · rw [created_old hg] at he
    rw [Function.update_of_ne (ne_fresh hg)]
    obtain ⟨heq, _⟩ | he := (mem_insert_update mem_concat).mp he
    · obtain ⟨i, hm⟩ := (hi.flowSlot g hg).1
      exact absurd heq (ne_fresh (hi.slotFlow i _ hm).1)
    · exact hs.slot g k hg he
  · rw [created_new] at he
    rw [Function.update_self]
    obtain ⟨_, rfl⟩ | he := (mem_insert_update mem_concat).mp he
    · exact reached_slotOf hx hl
    · exact absurd (hi.slotFlow k _ he).1 not_live_fresh

end Scheduled

theorem offload_timer (e : FlowEntry) (rev : Option (BitVec 64)) (rx : UInt32) :
    (offloadPacket (countPacket e rev) rx).expire = e.expire ∧
      (offloadPacket (countPacket e rev) rx).timerIndex = e.timerIndex ∧
      (offloadPacket (countPacket e rev) rx).lifetime = e.lifetime := by
  unfold offloadPacket countPacket
  split <;> split <;> exact ⟨rfl, rfl, rfl⟩

theorem setFlow_offload (fm : FlowtableMain) (f : Nat) (rev : Option (BitVec 64)) (rx : UInt32)
    (g : Nat) :
    ((setFlow fm f (offloadPacket (countPacket (fm.flows.elt f) rev) rx)).flows.elt g).expire =
        (fm.flows.elt g).expire ∧
      ((setFlow fm f (offloadPacket (countPacket (fm.flows.elt f) rev) rx)).flows.elt g).timerIndex =
        (fm.flows.elt g).timerIndex ∧
      ((setFlow fm f (offloadPacket (countPacket (fm.flows.elt f) rev) rx)).flows.elt g).lifetime =
        (fm.flows.elt g).lifetime := by
  by_cases hg : g = f
  · subst hg
    simp only [setFlow, elt_set, Function.update_self]
    exact offload_timer (fm.flows.elt g) rev rx
  · simp only [setFlow, elt_set, Function.update_of_ne hg, and_self]

theorem Scheduled.offload (hs : Scheduled fm slots now due) (f : Nat) (rev : Option (BitVec 64))
    (rx : UInt32) :
    Scheduled (setFlow fm f (offloadPacket (countPacket (fm.flows.elt f) rev) rx)) slots now due := by
  obtain ⟨h1, h2, h3⟩ := offload_timer (fm.flows.elt f) rev rx
  refine hs.congr (fun g hg => hg) fun g hg => ?_
  by_cases hgf : g = f
  · subst hgf
    simp only [setFlow, elt_set, Function.update_self]
    exact ⟨h1, h2, h3 ▸ hs.lifetime g hg⟩
  · simp only [setFlow, elt_set, Function.update_of_ne hgf]
    exact ⟨trivial, trivial, hs.lifetime g hg⟩

structure InFrame (s : Timed) : Prop where
  tables : ∃ lines slots, Inv s.table lines slots ∧ Scheduled s.table slots s.clock s.due
  index : s.table.timeIndex = s.clock % timerMaxLifetime
  clock : s.clock + timerMaxLifetime ≤ noIndex

def Timed.passed (s : Timed) (r : FlowtableMain × Buffer × Option Sent) : Timed :=
  match r with
  | (fm, _, none) => { s with table := fm }
  | (fm, _, some sent) => s.served s.clock fm sent

/-- How a pass of the loop leaves a table that is linked up: with no flow and at
most a new empty line, with a flow that is put back, or with a new one. -/
inductive PacketEnd (fm : FlowtableMain) (lines : BitVec 64 → List Nat) (slots : Nat → List Nat)
    (now : Nat) : FlowtableMain × Buffer × Option Sent → Prop
  | other (b b' : Buffer) (next0 : Nat) :
      PacketEnd fm lines slots now (fm, b, some ⟨b', next0, none⟩)
  | full {fm₁ : FlowtableMain} (b : Buffer) (hfm : fm₁ = fm ∨ ∃ key, fm₁ = createLine fm key)
      (hi : Inv fm₁ lines slots) : PacketEnd fm lines slots now (fm₁, b, none)
  | found {fm₂ : FlowtableMain} {f : Nat} {tm : Mem Nat Nat} {slots' : Nat → List Nat}
      (sig : Signature) (b b' : Buffer) (rev : Option (BitVec 64)) (rx : UInt32) (next0 : Nat)
      (hf : Live fm.flows f)
      (hfm : fm₂ = setFlow { fm with timers := withElt fm.timers tm } f
        { fm.flows.elt f with expire := u32 (now + (fm.flows.elt f).lifetime) })
      (hi : Inv fm₂ lines slots')
      (hm : ∀ k e, e ∈ slots' k →
        e = (fm.flows.elt f).timerIndex ∧ k = slotOf fm (fm.flows.elt f).lifetime ∨
          e ∈ slots k ∧ e ≠ (fm.flows.elt f).timerIndex) :
      PacketEnd fm lines slots now (setFlow fm₂ f
        (offloadPacket (countPacket (fm₂.flows.elt f) rev) rx), b, some ⟨b', next0, some (sig, f)⟩)
  | made {fm₁ fm₂ : FlowtableMain} {key : BitVec 64} {stack : Bytes} {sigLen head : Nat}
      {lm tm : Mem Nat Nat} (sig : Signature) (b b' : Buffer) (rev : Option (BitVec 64))
      (rx : UInt32) (next0 : Nat) (hfm₁ : fm₁ = fm ∨ ∃ key, fm₁ = createLine fm key)
      (hi₁ : Inv fm₁ lines slots) (hfm : fm₂ = created fm₁ key stack sigLen now head lm tm)
      (hi : Inv fm₂ (Function.update lines key (fresh fm₁.htLines :: lines key))
        (Function.update slots (slotOf fm₁ timerDefaultLifetime)
          (slots (slotOf fm₁ timerDefaultLifetime) ++ [fresh fm₁.timers]))) :
      PacketEnd fm lines slots now (setFlow fm₂ (fresh fm₁.flows)
        (offloadPacket (countPacket (fm₂.flows.elt (fresh fm₁.flows)) rev) rx), b,
        some ⟨b', next0, some (sig, fresh fm₁.flows)⟩)

theorem packetEnd {fm : FlowtableMain} {lines : BitVec 64 → List Nat} {slots : Nat → List Nat}
    (hi : Inv fm lines slots) {cmp : AddressCompare} {now : Nat} {b : Buffer} {stack : Bytes}
    {r : FlowtableMain × Buffer × Option Sent} (hr : processPacket cmp now fm b stack = some r) :
    PacketEnd fm lines slots now r := by
  cases passEnd hr with
  | other _ => exact .other _ _ _
  | full _ hq =>
    obtain ⟨f, hf, _⟩ | ⟨fm₁, head, hfm, hi₁, hk, hc⟩ := lookupCreate_cases hi hq
    · cases hf
    · obtain hnone | ⟨lm, tm, hnew, _⟩ := createFlow_cases hi₁ hk hc
      · cases hnone
        exact .full _ (hfm.imp_right fun h => ⟨_, h⟩) hi₁
      · cases hnew
  | flow next0 _ hq hres he =>
    subst he
    obtain ⟨f, hfound, hf⟩ | ⟨fm₁, head, hfm, hi₁, hk, hc⟩ := lookupCreate_cases hi hq
    · cases hfound
      obtain ⟨tm, slots', hput, hi', hm⟩ := timerWheelReschedFlow_slots hi hf now
      rw [refreshFlow, if_neg Bool.false_ne_true, hput] at hres
      obtain rfl := Option.some.inj hres
      exact .found _ _ _ _ _ _ hf rfl hi' hm
    · obtain hnone | ⟨lm, tm, hnew, hi'⟩ := createFlow_cases hi₁ hk hc
      · cases hnone
      · cases hnew
        rw [refreshFlow, if_pos rfl] at hres
        obtain rfl := Option.some.inj hres
        exact .made _ _ _ _ _ _ (hfm.imp_right fun h => ⟨_, h⟩) hi₁ rfl hi'

theorem InFrame.found {s : Timed} (hs : InFrame s) {fm₂ : FlowtableMain}
    {lines' : BitVec 64 → List Nat} {slots' : Nat → List Nat} {f : Nat} {lifetime : Nat}
    (hi : Inv fm₂ lines' slots')
    (hd : Scheduled fm₂ slots' s.clock (Function.update s.due f (s.clock + lifetime)))
    (hl : (fm₂.flows.elt f).lifetime = lifetime) (hx : fm₂.timeIndex = s.table.timeIndex)
    (sig : Signature) (b b' : Buffer) (rev : Option (BitVec 64)) (rx : UInt32) (next0 : Nat) :
    InFrame (s.passed (setFlow fm₂ f (offloadPacket (countPacket (fm₂.flows.elt f) rev) rx), b,
      some ⟨b', next0, some (sig, f)⟩)) := by
  have hkeep := (offload_timer (fm₂.flows.elt f) rev rx).2.2.trans hl
  refine ⟨⟨lines', slots', hi.setFlow (offload_links _ _ _).1, ?_⟩, hx.trans hs.index, hs.clock⟩
  simp only [Timed.passed, Timed.served, setFlow, elt_set, Function.update_self, hkeep]
  exact hd.offload f rev rx

theorem InFrame.packet {s : Timed} (hs : InFrame s) (cmp : AddressCompare) {b : Buffer}
    {stack : Bytes} {r : FlowtableMain × Buffer × Option Sent}
    (hr : processPacket cmp s.clock s.table b stack = some r) : InFrame (s.passed r) := by
  obtain ⟨lines, slots, hi, hd⟩ := hs.tables
  have hline : ∀ fm₁, (fm₁ = s.table ∨ ∃ key, fm₁ = createLine s.table key) →
      Scheduled fm₁ slots s.clock s.due ∧ fm₁.timeIndex = s.table.timeIndex := by
    rintro fm₁ (rfl | ⟨key, rfl⟩)
    · exact ⟨hd, rfl⟩
    · exact ⟨hd.congr (fun g hg => hg) fun g hg => ⟨rfl, rfl, hd.lifetime g hg⟩, rfl⟩
  cases packetEnd hi hr with
  | other b b' next0 => exact ⟨⟨lines, slots, hi, hd⟩, hs.index, hs.clock⟩
  | full b hfm hi₁ =>
    obtain ⟨hd₁, hx₁⟩ := hline _ hfm
    exact ⟨⟨lines, slots, hi₁, hd₁⟩, hx₁.trans hs.index, hs.clock⟩
  | found sig b b' rev rx next0 hf hfm hi' hm =>
    subst hfm
    exact hs.found hi' (hd.resched hi hs.index hs.clock hf hm) (by simp [setFlow]) rfl _ _ _ _ _ _
  | made sig b b' rev rx next0 hfm hi₁ hnew hi' =>
    subst hnew
    obtain ⟨hd₁, hx₁⟩ := hline _ hfm
    exact hs.found hi' (hd₁.created hi₁ (hx₁.trans hs.index) hs.clock)
      (by rw [created_new]; rfl) hx₁ _ _ _ _ _ _

theorem InFrame.loop (cmp : AddressCompare) (n : Nat) {k : Nat} {s t : Timed}
    {arrivals : List Arrival} (hs : InFrame s) (hc : s.clock = now)
    (hr : timedLoop cmp now n k s arrivals = some t) : InFrame t ∧ t.removed = s.removed := by
  induction n generalizing k s arrivals with
  | zero =>
    cases arrivals with
    | nil =>
      obtain rfl := Option.some.inj hr
      exact ⟨hs, rfl⟩
    | cons a rest => cases hr
  | succ n ih =>
    cases arrivals with
    | nil =>
      obtain rfl := Option.some.inj hr
      exact ⟨hs, rfl⟩
    | cons a rest =>
      simp only [timedLoop, Option.bind_eq_bind] at hr
      obtain ⟨⟨fm, b, os⟩, hp, hr⟩ := Option.bind_eq_some_iff.mp hr
      subst hc
      have hs' := hs.packet cmp hp
      cases os with
      | none =>
        obtain ⟨ht, hsame⟩ := ih hs' rfl hr
        exact ⟨ht, hsame⟩
      | some sent =>
        obtain ⟨ht, hsame⟩ := ih hs' rfl hr
        exact ⟨ht, hsame⟩

structure OnTime (s : Timed) : Prop where
  tables : ∃ lines slots, Inv s.table lines slots ∧ Scheduled s.table slots s.clock s.due
  index : s.table.timeIndex = noIndex ∨ s.table.timeIndex = s.clock % timerMaxLifetime
  removed : ∀ x ∈ s.removed, x.expire = x.due ∧ x.expire ≤ x.time

theorem startTimed_onTime (next : Nat) : OnTime (startTimed next) := by
  have hdead := not_live_flowtableInit next
  refine ⟨⟨_, _, flowtableInit_inv next, ?_, ?_, ?_⟩, Or.inl ?_, fun x hx => (nomatch hx)⟩
  · exact fun f hf => absurd hf (hdead f)
  · exact fun f hf => absurd hf (hdead f)
  · exact fun f i hf => absurd hf (hdead f)
  · rw [startTimed, flowtableInit_eq]

theorem InFrame.expire {s : Timed} (hs : InFrame s)
    (hold : ∀ x ∈ s.removed, x.expire = x.due ∧ x.expire ≤ x.time)
    {r : FlowtableMain × Nat} (hr : flowtableTimerExpire s.table = some r) :
    OnTime { s with table := r.1, removed := removals s r.1 ++ s.removed } := by
  obtain ⟨lines, slots, hi, hd⟩ := hs.tables
  have hlt : s.table.timeIndex < timerMaxLifetime := by
    rw [hs.index]
    exact Nat.mod_lt _ (by decide)
  obtain ⟨r', lines', slots', hr', hi', hdr, _⟩ := flowtableTimerExpire_drained hi hlt
  rw [hr'] at hr
  obtain rfl := Option.some.inj hr
  refine ⟨⟨lines', slots', hi', ?_, ?_, ?_⟩, Or.inr (hdr.index.trans hs.index), fun x hx => ?_⟩
  · intro g hg
    rw [hdr.shrinks.1]
    exact hd.lifetime g (hdr.shrinks.2 g hg)
  · intro g hg
    rw [hdr.shrinks.1]
    exact hd.expire g (hdr.shrinks.2 g hg)
  · intro g i hg hm
    rw [hdr.shrinks.1] at hm
    exact hd.slot g i (hdr.shrinks.2 g hg) (hdr.kept i _ hm)
  · obtain hx | hx := List.mem_append.mp hx
    · obtain ⟨g, hg, rfl⟩ := List.mem_map.mp hx
      obtain ⟨hg, hn⟩ := List.mem_filter.mp hg
      rw [mem_liveIndices] at hg
      have hm := hdr.freed g hg (of_decide_eq_true hn)
      rw [hs.index] at hm
      have hle := hd.slot g _ hg hm s.clock le_rfl rfl
      exact ⟨hd.expire g hg, (hd.expire g hg).trans_le hle⟩
    · exact hold x hx

theorem Scheduled.update (hs : Scheduled fm slots now due) {a : UpdateArgs} (f : Nat)
    (hl : a.lifetime = 0xffff ∨ a.lifetime.toNat < timerMaxLifetime) :
    Scheduled (setFlow fm f (applyUpdate (fm.flows.elt f) a)) slots now due := by
  refine hs.congr (fun g hg => hg) fun g hg => ?_
  by_cases hgf : g = f
  · subst hgf
    simp only [setFlow, elt_set, Function.update_self, applyUpdate, true_and]
    split
    · exact hl.resolve_left ‹_›
    · exact hs.lifetime g hg
  · simp only [setFlow, elt_set, Function.update_of_ne hgf, true_and]
    exact hs.lifetime g hg

theorem timedStep_onTime (cmp : AddressCompare) (s : Timed) (e : Event) (t : Timed)
    (hs : OnTime s) (hp : Paced s e) (hr : timedStep cmp s e = some t) : OnTime t := by
  obtain ⟨⟨lines, slots, hi, hd⟩, hx, hrem⟩ := hs
  cases e with
  | frame passes now arrivals =>
    obtain ⟨hle, hn⟩ := hp
    obtain ⟨tm, slots', hw, hi', hm⟩ := timerWheelIndexUpdate_moved hi now
    simp only [timedStep, hw, Option.bind_eq_bind, Option.bind_some] at hr
    obtain ⟨u, hu, hr⟩ := Option.bind_eq_some_iff.mp hr
    obtain ⟨r, hexp, hr⟩ := Option.bind_eq_some_iff.mp hr
    obtain rfl := Option.some.inj hr
    have hin : InFrame { s with
        table := { s.table with timers := withElt s.table.timers tm, timeIndex := now % timerMaxLifetime }
        clock := now } := ⟨⟨lines, slots', hi', hd.wheel hi hx hle fun _ _ => hm.cases⟩, rfl, hn⟩
    obtain ⟨hin', hsame⟩ := hin.loop cmp passes rfl hu
    exact hin'.expire (hsame ▸ hrem) hexp
  | update args =>
    obtain ⟨r, hu, rfl⟩ := Option.map_eq_some_iff.mp hr
    rw [flowtableUpdate_eq hi args] at hu
    cases he : updateEnd s.table args
        (lineFlows s.table (lines (hashSignature (updateSignature args)))) with
    | none =>
      simp only [he] at hu
      obtain rfl := Option.some.inj hu
      exact ⟨⟨lines, slots, hi, hd⟩, hx, hrem⟩
    | some f =>
      simp only [he] at hu
      obtain rfl := Option.some.inj hu
      exact ⟨⟨lines, slots, hi.setFlow ⟨rfl, rfl, rfl, rfl⟩, hd.update f hp⟩, hx, hrem⟩

/-- No flow expires before its time, however the slots are skipped or carried
over, and its time is that of its last packet plus the lifetime in force then. -/
theorem run_never_early (cmp : AddressCompare) (next : Nat) (events : List Event)
    (hp : Meets (timedStep cmp) Paced (startTimed next) events) (s : Timed)
    (hr : run (timedStep cmp) (startTimed next) events = some s) :
    ∀ x ∈ s.removed, x.expire = x.due ∧ x.expire ≤ x.time :=
  (invariant_of_meets (timedStep_onTime cmp) (startTimed_onTime next) hp hr).removed

def oneFlow : List Event := [.frame 1 7 [⟨udpBuffer 1 2, fun _ => []⟩], .frame 0 67 []]

theorem run_never_early_sample :
    ∃ s, run (timedStep sampleCompare) (startTimed 0) oneFlow = some s ∧
      s.removed = [⟨0, 67, 67, 67⟩] ∧ ∀ x ∈ s.removed, x.expire = x.due ∧ x.expire ≤ x.time := by
  have heval : (run (timedStep sampleCompare) (startTimed 0) oneFlow).map (fun s => s.removed) =
      some [⟨0, 67, 67, 67⟩] := by
    rw [startTimed, flowtableInit_eq]
    decide +kernel
  obtain ⟨s, hs, hrem⟩ := Option.map_eq_some_iff.mp heval
  have hclock : (timedStep sampleCompare (startTimed 0)
      (.frame 1 7 [⟨udpBuffer 1 2, fun _ => []⟩])).map (fun s => s.clock) = some 7 := by
    rw [startTimed, flowtableInit_eq]
    decide +kernel
  refine ⟨s, hs, hrem, run_never_early sampleCompare 0 oneFlow
    ⟨⟨Nat.zero_le _, by decide⟩, fun t ht => ?_⟩ s hs⟩
  rw [ht, Option.map_some, Option.some.injEq] at hclock
  exact ⟨⟨hclock.trans_le (by decide), by decide⟩, fun _ _ => trivial⟩

end Vppsb.FlowTimers
