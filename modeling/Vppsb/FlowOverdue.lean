import Vppsb.FlowIdentity
import Vppsb.FlowTimers

namespace Vppsb.FlowOverdue

open Vppsb.StepRun Vppsb.PoolStore Vppsb.KeyedPool Vppsb.LinkedRing Vppsb.FlowSignature
  Vppsb.FlowTable Vppsb.FlowProcess Vppsb.FlowInvariant Vppsb.FlowCreate Vppsb.FlowExpire
  Vppsb.FlowWheel Vppsb.FlowLookup Vppsb.FlowRun Vppsb.FlowIdentity Vppsb.FlowTimers

/-- A call that has not used up the number of flows it may remove leaves no flow
that is due. -/
def ExpiresAll (cmp : AddressCompare) (fm : FlowtableMain) : Event → Prop
  | .frame passes now arrivals => ∀ r, flowtableProcess cmp passes now fm arrivals = some r →
      r.2.2 < timerMaxExpire → ∀ f, Live r.1.flows f → now < (r.1.flows.elt f).expire
  | .update _ => True

def InSlot (fm : FlowtableMain) (i e : Nat) : Prop :=
  i < timerMaxLifetime ∧ ∃ xs, Ring fm.timers.elt i xs ∧ e ∈ xs

def Fits (fm : FlowtableMain) (now : Nat) : Prop :=
  now + timerDefaultLifetime ≤ noIndex ∧
    ∀ f, Live fm.flows f → now + (fm.flows.elt f).lifetime ≤ noIndex

/-- Every flow that is due stands in one of the two slots that the call looks
at, the one where the wheel stands and the one of the time. -/
def DueInReach (fm : FlowtableMain) : Event → Prop
  | .frame _ now arrivals =>
    (∀ f, Live fm.flows f → (fm.flows.elt f).expire ≤ now →
      InSlot fm fm.timeIndex (fm.flows.elt f).timerIndex ∨
        InSlot fm (now % timerMaxLifetime) (fm.flows.elt f).timerIndex) ∧
    (arrivals ≠ [] → Fits fm now)
  | .update _ => True

def DueHere (fm : FlowtableMain) (slots : Nat → List Nat) (now : Nat) : Prop :=
  ∀ f, Live fm.flows f → (fm.flows.elt f).expire ≤ now →
    (fm.flows.elt f).timerIndex ∈ slots fm.timeIndex

variable {fm : FlowtableMain} {lines : BitVec 64 → List Nat} {slots : Nat → List Nat} {now : Nat}

theorem InSlot.mem (hi : Inv fm lines slots) {i e : Nat} (h : InSlot fm i e) : e ∈ slots i := by
  obtain ⟨hlt, xs, hr, he⟩ := h
  rwa [hr.unique (hi.slotRings.ring i i (if_pos hlt))] at he

theorem u32_fits {lifetime : Nat} (h : now + lifetime ≤ noIndex) :
    u32 (now + lifetime) = now + lifetime := by
  simp only [noIndex] at h
  exact Nat.mod_eq_of_lt (by omega)

theorem timerIndex_inj (hi : Inv fm lines slots) {f g : Nat} (hf : Live fm.flows f)
    (hg : Live fm.flows g) (h : (fm.flows.elt f).timerIndex = (fm.flows.elt g).timerIndex) :
    f = g := by
  have hv := (hi.flowSlot f hf).2
  rw [h, (hi.flowSlot g hg).2] at hv
  exact (Option.some.inj hv).symm

namespace DueHere

theorem congr (hd : DueHere fm slots now) {fm' : FlowtableMain}
    (hx : fm'.timeIndex = fm.timeIndex) (hlive : ∀ g, Live fm'.flows g → Live fm.flows g)
    (helt : ∀ g, Live fm'.flows g → (fm'.flows.elt g).expire = (fm.flows.elt g).expire ∧
      (fm'.flows.elt g).timerIndex = (fm.flows.elt g).timerIndex) : DueHere fm' slots now := by
  intro g hg hdue
  rw [(helt g hg).1] at hdue
  rw [(helt g hg).2, hx]
  exact hd g (hlive g hg) hdue

theorem wheel (hi : Inv fm lines slots) {tm : Mem Nat Nat} {slots' : Nat → List Nat}
    (hm : Moved slots slots' fm.timeIndex (now % timerMaxLifetime))
    (hdue : ∀ f, Live fm.flows f → (fm.flows.elt f).expire ≤ now →
      InSlot fm fm.timeIndex (fm.flows.elt f).timerIndex ∨
        InSlot fm (now % timerMaxLifetime) (fm.flows.elt f).timerIndex) :
    DueHere { fm with timers := withElt fm.timers tm, timeIndex := now % timerMaxLifetime }
      slots' now := by
  intro f hf hle
  refine (hm _ _).mpr ?_
  rw [if_pos rfl]
  exact (hdue f hf hle).imp (fun h => h.mem hi) fun h => h.mem hi

theorem resched (hd : DueHere fm slots now) (hi : Inv fm lines slots)
    (hx : fm.timeIndex < timerMaxLifetime) {f : Nat} (hf : Live fm.flows f)
    (hn : now + (fm.flows.elt f).lifetime ≤ noIndex) {tm : Mem Nat Nat} {slots' : Nat → List Nat}
    (hi' : Inv (setFlow { fm with timers := withElt fm.timers tm } f
      { fm.flows.elt f with expire := u32 (now + (fm.flows.elt f).lifetime) }) lines slots')
    (hm : ∀ k e, e ∈ slots' k →
      e = (fm.flows.elt f).timerIndex ∧ k = slotOf fm (fm.flows.elt f).lifetime ∨
        e ∈ slots k ∧ e ≠ (fm.flows.elt f).timerIndex) :
    DueHere (setFlow { fm with timers := withElt fm.timers tm } f
      { fm.flows.elt f with expire := u32 (now + (fm.flows.elt f).lifetime) }) slots' now := by
  intro g hg hdue
  obtain ⟨k, hk⟩ := (hi'.flowSlot g hg).1
  rw [u32_fits hn] at hdue
  by_cases hgf : g = f
  · -- only a lifetime of zero makes the flow due at once
    subst hgf
    simp only [setFlow, elt_set, Function.update_self] at hdue hk ⊢
    obtain ⟨_, rfl⟩ | ⟨_, hne⟩ := hm k _ hk
    · have hzero : (fm.flows.elt g).lifetime = 0 := by omega
      have hslot : slotOf fm (fm.flows.elt g).lifetime = fm.timeIndex := by
        rw [hzero, slotOf, u32, Nat.add_zero]
        simp only [timerMaxLifetime] at hx ⊢
        omega
      rwa [hslot] at hk
    · exact absurd rfl hne
  · simp only [setFlow, elt_set, Function.update_of_ne hgf] at hdue hk ⊢
    obtain ⟨heq, _⟩ | ⟨hold, _⟩ := hm k _ hk
    · exact absurd (timerIndex_inj hi hg hf heq) hgf
    · rwa [hi.slotRings.disjoint _ _ _ hold (hd g hg hdue)] at hk

theorem created (hd : DueHere fm slots now) (hi : Inv fm lines slots)
    (hn : now + timerDefaultLifetime ≤ noIndex) {key : BitVec 64} {sig : Bytes} {sigLen head : Nat}
    {lm tm : Mem Nat Nat} :
    DueHere (created fm key sig sigLen now head lm tm)
      (Function.update slots (slotOf fm timerDefaultLifetime)
        (slots (slotOf fm timerDefaultLifetime) ++ [fresh fm.timers])) now := by
  intro g hg hdue
  obtain hg | rfl := (live_created hi g).mp hg
  · rw [created_old hg] at hdue ⊢
    exact (mem_insert_update mem_concat).mpr (Or.inr (hd g hg hdue))
  · rw [created_new] at hdue
    have hexp : u32 (now + timerDefaultLifetime) ≤ now := hdue
    rw [u32_fits hn] at hexp
    have hpos : 0 < timerDefaultLifetime := by decide
    omega

end DueHere

structure Covered (fm : FlowtableMain) (now : Nat) : Prop where
  tables : ∃ lines slots, Inv fm lines slots ∧ DueHere fm slots now
  index : fm.timeIndex < timerMaxLifetime
  fits : Fits fm now

theorem Covered.offload (hc : Covered fm now) (f : Nat) (rev : Option (BitVec 64)) (rx : UInt32) :
    Covered (setFlow fm f (offloadPacket (countPacket (fm.flows.elt f) rev) rx)) now := by
  obtain ⟨lines, slots, hi, hd⟩ := hc.tables
  have hsame := setFlow_offload fm f rev rx
  refine ⟨⟨lines, slots, hi.setFlow (offload_links _ _ _).1,
    hd.congr rfl (fun g hg => hg) fun g _ => ⟨(hsame g).1, (hsame g).2.1⟩⟩, hc.index, hc.fits.1,
    fun g hg => ?_⟩
  rw [(hsame g).2.2]
  exact hc.fits.2 g hg

theorem Covered.packet (hc : Covered fm now) (cmp : AddressCompare) {b : Buffer} {stack : Bytes}
    {r : FlowtableMain × Buffer × Option Sent}
    (hr : processPacket cmp now fm b stack = some r) : Covered r.1 now := by
  obtain ⟨lines, slots, hi, hd⟩ := hc.tables
  have hline : ∀ fm₁, (fm₁ = fm ∨ ∃ key, fm₁ = createLine fm key) → Inv fm₁ lines slots →
      Covered fm₁ now ∧ DueHere fm₁ slots now := by
    rintro fm₁ (rfl | ⟨key, rfl⟩) hi₁
    · exact ⟨hc, hd⟩
    · exact ⟨⟨⟨lines, slots, hi₁, hd⟩, hc.index, hc.fits⟩, hd⟩
  cases packetEnd hi hr with
  | other b b' next0 => exact hc
  | full b hfm hi₁ => exact (hline _ hfm hi₁).1
  | @found _ f _ slots' _ _ _ _ _ _ hf hfm hi' hm =>
    subst hfm
    apply Covered.offload
    refine ⟨⟨lines, slots', hi', hd.resched hi hc.index hf (hc.fits.2 f hf) hi' hm⟩, hc.index,
      hc.fits.1, fun g hg => ?_⟩
    by_cases hgf : g = f
    · subst hgf
      simpa only [setFlow, elt_set, Function.update_self] using hc.fits.2 g hg
    · simpa only [setFlow, elt_set, Function.update_of_ne hgf] using hc.fits.2 g hg
  | made sig b b' rev rx next0 hfm hi₁ hnew hi' =>
    subst hnew
    obtain ⟨hc₁, hd₁⟩ := hline _ hfm hi₁
    apply Covered.offload
    refine ⟨⟨_, _, hi', hd₁.created hi₁ hc.fits.1⟩, hc₁.index, hc.fits.1, fun g hg => ?_⟩
    obtain hg | rfl := (live_created hi₁ g).mp hg
    · rw [created_old hg]
      exact hc₁.fits.2 g hg
    · rw [created_new]
      exact hc.fits.1

theorem processLoop_nil (cmp : AddressCompare) (now n k : Nat) (fm : FlowtableMain) :
    processLoop cmp now n k fm [] = some (fm, []) := by
  cases n <;> rfl

theorem Covered.loop (cmp : AddressCompare) (n : Nat) {k : Nat} {fm : FlowtableMain}
    {arrivals : List Arrival} (hc : Covered fm now) {r : FlowtableMain × List Sent}
    (hr : processLoop cmp now n k fm arrivals = some r) : Covered r.1 now := by
  induction n generalizing k fm arrivals r with
  | zero =>
    cases arrivals with
    | nil =>
      obtain rfl := Option.some.inj hr
      exact hc
    | cons a rest => cases hr
  | succ n ih =>
    cases arrivals with
    | nil =>
      rw [processLoop_nil] at hr
      obtain rfl := Option.some.inj hr
      exact hc
    | cons a rest =>
      simp only [processLoop, Option.bind_eq_bind] at hr
      obtain ⟨⟨fm', b, os⟩, hp, hr⟩ := Option.bind_eq_some_iff.mp hr
      have hc' : Covered fm' now := hc.packet cmp hp
      cases os with
      | none => exact ih hc' hr
      | some sent =>
        obtain ⟨r', hl, hr⟩ := Option.bind_eq_some_iff.mp hr
        obtain rfl := Option.some.inj hr
        have hc'' := ih hc' hl
        exact hc''

/-- A slot that is drained takes all due flows with it. -/
theorem DueHere.expire (hd : DueHere fm slots now) (hi : Inv fm lines slots)
    (hx : fm.timeIndex < timerMaxLifetime) {r : FlowtableMain × Nat}
    (hr : flowtableTimerExpire fm = some r) (hn : r.2 < timerMaxExpire) :
    ∀ f, Live r.1.flows f → now < (r.1.flows.elt f).expire := by
  obtain ⟨r', lines', slots', hr', hi', hdr, _, hempty⟩ := flowtableTimerExpire_drained hi hx
  obtain rfl := Option.some.inj (hr'.symm.trans hr)
  intro f hf
  by_contra hle
  rw [not_lt, hdr.shrinks.1] at hle
  have hold := hd f (hdr.shrinks.2 f hf) hle
  obtain ⟨k, hk⟩ := (hi'.flowSlot f hf).1
  rw [hdr.shrinks.1] at hk
  rw [hi.slotRings.disjoint _ _ _ (hdr.kept k _ hk) hold, hempty hn] at hk
  exact absurd hk List.not_mem_nil

theorem expiresAll (cmp : AddressCompare) (hi : Inv fm lines slots) (e : Event)
    (he : DueInReach fm e) : ExpiresAll cmp fm e := by
  cases e with
  | update args => exact trivial
  | frame passes now arrivals =>
    obtain ⟨hdue, hfits⟩ := he
    intro r hr hn
    obtain ⟨tm, slots', hw, hi', hm⟩ := timerWheelIndexUpdate_moved hi now
    have hd : DueHere { fm with timers := withElt fm.timers tm, timeIndex := now % timerMaxLifetime }
        slots' now := DueHere.wheel hi hm hdue
    have hx : now % timerMaxLifetime < timerMaxLifetime := Nat.mod_lt _ (by decide)
    simp only [flowtableProcess, hw, Option.bind_eq_bind, Option.bind_some] at hr
    obtain ⟨r₁, hl, hr⟩ := Option.bind_eq_some_iff.mp hr
    obtain ⟨r₂, hexp, hr⟩ := Option.bind_eq_some_iff.mp hr
    obtain rfl := Option.some.inj hr
    cases arrivals with
    | nil =>
      rw [processLoop_nil] at hl
      obtain rfl := Option.some.inj hl
      exact hd.expire hi' hx hexp hn
    | cons a rest =>
      have hc := Covered.loop cmp passes
        ⟨⟨lines, slots', hi', hd⟩, hx, hfits (List.cons_ne_nil a rest)⟩ hl
      obtain ⟨lines₁, slots₁, hi₁, hd₁⟩ := hc.tables
      exact hd₁.expire hi₁ hc.index hexp hn

/-- In a run in which no call finds a due flow outside of the two slots that it
looks at, no call leaves a due flow behind while it may remove more. -/
theorem run_expires_all (cmp : AddressCompare) (next : Nat) (events : List Event)
    (h : Meets (step cmp) DueInReach (flowtableInit next) events) :
    Meets (step cmp) (ExpiresAll cmp) (flowtableInit next) events := by
  refine meets_mono (fun s e t hs _ ht => step_linked cmp s e t hs ht) ?_
    ⟨_, _, flowtableInit_inv next⟩ h h
  rintro fm e ⟨lines, slots, hi⟩ he _
  exact expiresAll cmp hi e he

theorem InSlot.of_mem (hi : Inv fm lines slots) {i e : Nat} (h : e ∈ slots i) : InSlot fm i e :=
  ⟨hi.slot_lt h, slots i, hi.slotRings.ring i i (if_pos (hi.slot_lt h)), h⟩

theorem only_flow_in_slot (hi : Inv fm lines slots) (hlen : fm.flows.len = 1) {i : Nat}
    (hlt : i < timerMaxLifetime) (hne : dlistIsEmpty fm.timers.elt i = false) {f : Nat}
    (hf : Live fm.flows f) : InSlot fm i (fm.flows.elt f).timerIndex := by
  have hring := hi.slotRings.ring i i (if_pos hlt)
  have hnil : slots i ≠ [] := by
    intro h
    rw [(dlistIsEmpty_iff hring).mpr h] at hne
    exact absurd hne (by decide)
  obtain ⟨e, he⟩ := List.exists_mem_of_ne_nil _ hnil
  obtain ⟨_, g, _, hg, rfl⟩ := hi.slotFlow i e he
  have hg0 := hg.1
  have hf0 := hf.1
  obtain rfl : f = g := by omega
  exact InSlot.of_mem hi he

theorem run_expires_all_sample :
    Meets (step sampleCompare) (ExpiresAll sampleCompare) (flowtableInit 0) oneFlow := by
  have heval : (step sampleCompare (flowtableInit 0)
      (.frame 1 7 [⟨udpBuffer 1 2, fun _ => []⟩])).map (fun fm => (fm.flows.len,
        dlistIsEmpty fm.timers.elt 67)) = some (1, false) := by
    rw [flowtableInit_eq]
    decide +kernel
  refine run_expires_all sampleCompare 0 oneFlow ⟨⟨fun f hf => ?_, fun _ => ⟨by decide, fun f hf => ?_⟩⟩,
    fun fm hfm => ⟨⟨fun f hf _ => ?_, fun h => absurd rfl h⟩, fun _ _ => trivial⟩⟩
  · exact absurd hf (not_live_flowtableInit 0 f)
  · exact absurd hf (not_live_flowtableInit 0 f)
  · obtain ⟨lines, slots, hi⟩ := step_linked sampleCompare _ _ fm ⟨_, _, flowtableInit_inv 0⟩ hfm
    rw [hfm] at heval
    obtain ⟨hlen, hne⟩ := Prod.mk.inj (Option.some.inj heval)
    exact Or.inr (only_flow_in_slot hi hlen (by decide) hne hf)

/-- The wheel jumps from slot 7 to slot 100, and the flow that was due at 67 stays. -/
def jump : List Event := [.frame 1 7 [⟨udpBuffer 1 2, fun _ => []⟩], .frame 0 100 []]

theorem due_flow_stays :
    (∃ fm r, run (step sampleCompare) (flowtableInit 0) [.frame 1 7 [⟨udpBuffer 1 2, fun _ => []⟩]] =
        some fm ∧ flowtableProcess sampleCompare 0 100 fm [] = some r ∧ r.2.2 = 0 ∧
        Live r.1.flows 0 ∧ (r.1.flows.elt 0).expire = 67) ∧
      ¬ Meets (step sampleCompare) (ExpiresAll sampleCompare) (flowtableInit 0) jump := by
  have heval : ((run (step sampleCompare) (flowtableInit 0)
      [.frame 1 7 [⟨udpBuffer 1 2, fun _ => []⟩]]).bind (fun fm =>
        flowtableProcess sampleCompare 0 100 fm [])).map (fun r => (r.2.2,
          decide (Live r.1.flows 0), (r.1.flows.elt 0).expire)) = some (0, true, 67) := by
    rw [flowtableInit_eq]
    decide +kernel
  obtain ⟨r, hr, he⟩ := Option.map_eq_some_iff.mp heval
  obtain ⟨fm, hfm, hr⟩ := Option.bind_eq_some_iff.mp hr
  obtain ⟨hn, he⟩ := Prod.mk.inj he
  obtain ⟨hl, hexp⟩ := Prod.mk.inj he
  have hlive := of_decide_eq_true hl
  refine ⟨⟨fm, r, hfm, hr, hn, hlive, hexp⟩, fun hall => ?_⟩
  obtain ⟨t, ht, htfm⟩ := run_cons_eq_some.mp hfm
  obtain rfl := Option.some.inj htfm
  have hlate := (hall.2 t ht).1 r hr (by rw [hn]; decide) 0 hlive
  omega

end Vppsb.FlowOverdue
