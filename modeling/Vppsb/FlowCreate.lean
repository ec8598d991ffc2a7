import Vppsb.FlowInvariant
import Vppsb.KeyedPool

namespace Vppsb.FlowCreate

open Vppsb.PoolStore Vppsb.KeyedPool Vppsb.LinkedRing Vppsb.RingFamily Vppsb.FlowSignature
  Vppsb.FlowTable Vppsb.FlowInvariant

variable {fm : FlowtableMain} {lines : BitVec 64 → List Nat} {slots : Nat → List Nat}

@[simp] theorem elt_withElt {α : Type} (p : Pool α) (g : Nat → α) : (withElt p g).elt = g := rfl

theorem wf_withElt {α : Type} {p : Pool α} (hp : WF p) (g : Nat → α) : WF (withElt p g) :=
  ⟨hp.nodup, hp.bound⟩

def slotOf (fm : FlowtableMain) (lifetime : Nat) : Nat :=
  u32 (fm.timeIndex + lifetime) % timerMaxLifetime

theorem slotOf_lt (fm : FlowtableMain) (lifetime : Nat) : slotOf fm lifetime < timerMaxLifetime :=
  Nat.mod_lt _ (by decide)

theorem slotHead_slotOf (fm : FlowtableMain) (lifetime : Nat) :
    slotHead (slotOf fm lifetime) = some (slotOf fm lifetime) := if_pos (slotOf_lt fm lifetime)

theorem setValue_rings {ι ν κ : Type} [DecidableEq ι] {m : Mem ι ν} {head : κ → Option ι}
    {nodes : κ → List ι} (hr : Rings m head nodes) {x : ι} (hx : Unused head nodes x)
    (v : Option ν) : Rings (setValue m x v) head nodes := by
  refine hr.congr fun y hy => Function.update_of_ne ?_ _ _
  rintro rfl
  exact hy hx

theorem createTimer_spec (hi : Inv fm lines slots) (key : BitVec 64) (sig : Bytes)
    (sigLen now : Nat) :
    ∃ tm, createTimer fm key sig sigLen now = some { fm with
        flows := set (get fm.flows) (fresh fm.flows) (newFlow key sig sigLen now (fresh fm.timers))
        flowsCpt := fm.flowsCpt + 1
        timers := withElt (get fm.timers) tm } ∧
      Rings tm slotHead (Function.update slots (slotOf fm timerDefaultLifetime)
        (slots (slotOf fm timerDefaultLifetime) ++ [fresh fm.timers])) ∧
      ∀ y, (tm y).value =
        if y = fresh fm.timers then some (fresh fm.flows) else (fm.timers.elt y).value := by
  have hu := hi.unused_timer (x := fresh fm.timers) not_live_fresh
  have hr := setValue_rings hi.slotRings hu (some (fresh fm.flows))
  obtain ⟨tm, htm, hrings, hvals⟩ :=
    hr.addtail (slotHead_slotOf fm timerDefaultLifetime) hu (by simp)
  refine ⟨tm, ?_, hrings, fun y => by rw [hvals, setValue_value]⟩
  simp only [createTimer, timerWheelInsertFlow, elt_set, Function.update_self, elt_withElt,
    newFlow]
  rw [show u32 (fm.timeIndex + timerDefaultLifetime) % timerMaxLifetime =
    slotOf fm timerDefaultLifetime from rfl, htm]
  rfl

theorem createLineEntry_spec (fm : FlowtableMain) (hi : Rings fm.htLines.elt fm.flowsHt lines) {key : BitVec 64}
    {head : Nat} (hk : fm.flowsHt key = some head)
    (hu : Unused fm.flowsHt lines (fresh fm.htLines)) (f : Nat) :
    ∃ lm, createLineEntry fm f head = some (setFlow { fm with
        htLines := withElt (get fm.htLines) lm } f
        { fm.flows.elt f with htIndex := fresh fm.htLines, htLineIndex := head }) ∧
      Rings lm fm.flowsHt (Function.update lines key (fresh fm.htLines :: lines key)) ∧
      ∀ y, (lm y).value = if y = fresh fm.htLines then some f else (fm.htLines.elt y).value := by
  have hr := setValue_rings hi hu (some f)
  obtain ⟨lm, hlm, hrings, hvals⟩ := hr.addhead hk hu (by simp)
  refine ⟨lm, ?_, hrings, fun y => by rw [hvals, setValue_value]⟩
  simp only [createLineEntry, hlm]
  rfl

theorem mem_update {ι κ : Type} [DecidableEq κ] {nodes : κ → List ι} {k k' : κ} {xs : List ι}
    {x : ι} (h : x ∈ Function.update nodes k xs k') : x ∈ xs ∧ k' = k ∨ x ∈ nodes k' ∧ k' ≠ k := by
  by_cases hk : k' = k
  · subst hk
    rw [Function.update_self] at h
    exact Or.inl ⟨h, rfl⟩
  · rw [Function.update_of_ne hk] at h
    exact Or.inr ⟨h, hk⟩

theorem mem_insert_update {ι κ : Type} [DecidableEq κ] {nodes : κ → List ι} {k k' : κ}
    {xs : List ι} {x y : ι} (hxs : ∀ y, y ∈ xs ↔ y = x ∨ y ∈ nodes k) :
    y ∈ Function.update nodes k xs k' ↔ y = x ∧ k' = k ∨ y ∈ nodes k' := by
  by_cases hk : k' = k
  · subst hk
    rw [Function.update_self, hxs]
    simp
  · rw [Function.update_of_ne hk]
    simp [hk]

theorem mem_cons_insert_update {ι κ : Type} [DecidableEq κ] {nodes : κ → List ι} {k k' : κ}
    {xs : List ι} {x y h : ι} (hxs : ∀ y, y ∈ xs ↔ y = x ∨ y ∈ nodes k)
    (hy : y ∈ h :: nodes k') : y ∈ h :: Function.update nodes k xs k' :=
  List.mem_cons.mpr ((List.mem_cons.mp hy).imp_right fun hy =>
    (mem_insert_update hxs).mpr (Or.inr hy))

theorem mem_concat {ι : Type} {xs : List ι} {x : ι} (y : ι) :
    y ∈ xs ++ [x] ↔ y = x ∨ y ∈ xs := by
  rw [List.mem_append, List.mem_singleton, or_comm]

def linkedFlow (fm : FlowtableMain) (key : BitVec 64) (sig : Bytes) (sigLen now head : Nat) :
    FlowEntry :=
  { newFlow key sig sigLen now (fresh fm.timers) with
    htIndex := fresh fm.htLines
    htLineIndex := head }

def created (fm : FlowtableMain) (key : BitVec 64) (sig : Bytes) (sigLen now head : Nat)
    (lm tm : Mem Nat Nat) : FlowtableMain :=
  { fm with
    flows := set (get fm.flows) (fresh fm.flows) (linkedFlow fm key sig sigLen now head)
    flowsCpt := fm.flowsCpt + 1
    timers := withElt (get fm.timers) tm
    htLines := withElt (get fm.htLines) lm }

section Created

variable {key : BitVec 64} {sig : Bytes} {sigLen now head s : Nat} {lm tm : Mem Nat Nat}

theorem live_created (hi : Inv fm lines slots) (g : Nat) :
    Live (created fm key sig sigLen now head lm tm).flows g ↔
      Live fm.flows g ∨ g = fresh fm.flows := live_insert hi.flowsWF g

theorem created_old {g : Nat} (hg : Live fm.flows g) :
    (created fm key sig sigLen now head lm tm).flows.elt g = fm.flows.elt g := elt_insert_old hg

theorem created_new : (created fm key sig sigLen now head lm tm).flows.elt (fresh fm.flows) =
    linkedFlow fm key sig sigLen now head := elt_insert_fresh

theorem created_lineElts (hi : Inv fm lines slots) (hk : fm.flowsHt key = some head) {e : Nat}
    (he : Live (get fm.htLines) e) : ∃ k h, fm.flowsHt k = some h ∧
      e ∈ h :: Function.update lines key (fresh fm.htLines :: lines key) k := by
  obtain he | rfl := (live_get hi.linesWF e).mp he
  · obtain ⟨k, h, hh, hm⟩ := hi.lineElts e he
    exact ⟨k, h, hh, mem_cons_insert_update (fun y => List.mem_cons) hm⟩
  · refine ⟨key, head, hk, List.mem_cons_of_mem _ ?_⟩
    exact (mem_insert_update fun y => List.mem_cons).mpr (Or.inl ⟨rfl, rfl⟩)

theorem created_slotElts (hi : Inv fm lines slots)
    (ht : Rings tm slotHead (Function.update slots s (slots s ++ [fresh fm.timers]))) {e : Nat}
    (he : Live (get fm.timers) e) : ∃ i < timerMaxLifetime,
      e ∈ i :: Function.update slots s (slots s ++ [fresh fm.timers]) i := by
  obtain he | rfl := (live_get hi.timersWF e).mp he
  · obtain ⟨i, hlt, hm⟩ := hi.slotElts e he
    exact ⟨i, hlt, mem_cons_insert_update mem_concat hm⟩
  · have hm : fresh fm.timers ∈ Function.update slots s (slots s ++ [fresh fm.timers]) s :=
      (mem_insert_update mem_concat).mpr (Or.inl ⟨rfl, rfl⟩)
    exact ⟨s, lt_of_mem_slot ht hm, List.mem_cons_of_mem _ hm⟩

section Lines

variable (hi : Inv fm lines slots) (hlv : ∀ y, (lm y).value =
  if y = fresh fm.htLines then some (fresh fm.flows) else (fm.htLines.elt y).value)

include hi hlv

theorem created_lineFlow {k : BitVec 64} {x : Nat}
    (hx : x ∈ Function.update lines key (fresh fm.htLines :: lines key) k) :
    Live (get fm.htLines) x ∧ ∃ f, (lm x).value = some f ∧
      Live (created fm key sig sigLen now head lm tm).flows f ∧
      ((created fm key sig sigLen now head lm tm).flows.elt f).htIndex = x ∧
      ((created fm key sig sigLen now head lm tm).flows.elt f).sigHash = k := by
  obtain ⟨rfl, rfl⟩ | hx := (mem_insert_update fun y => List.mem_cons).mp hx
  · refine ⟨(live_get hi.linesWF _).mpr (Or.inr rfl), fresh fm.flows, ?_, ?_, ?_, ?_⟩
    · rw [hlv, if_pos rfl]
    · exact (live_created hi _).mpr (Or.inr rfl)
    · rw [created_new, linkedFlow]
    · rw [created_new, linkedFlow, newFlow]
  · obtain ⟨hxl, g, hv, hg, h1, h2⟩ := hi.lineFlow k x hx
    refine ⟨(live_get hi.linesWF _).mpr (Or.inl hxl), g, ?_, ?_, ?_, ?_⟩
    · rw [hlv, if_neg (ne_fresh hxl), hv]
    · exact (live_created hi _).mpr (Or.inl hg)
    · rw [created_old hg, h1]
    · rw [created_old hg, h2]

theorem created_flowLine (hk : fm.flowsHt key = some head) {g : Nat}
    (hg : Live (created fm key sig sigLen now head lm tm).flows g) :
    ((created fm key sig sigLen now head lm tm).flows.elt g).htIndex ∈
        Function.update lines key (fresh fm.htLines :: lines key)
          ((created fm key sig sigLen now head lm tm).flows.elt g).sigHash ∧
      (lm ((created fm key sig sigLen now head lm tm).flows.elt g).htIndex).value = some g ∧
      fm.flowsHt ((created fm key sig sigLen now head lm tm).flows.elt g).sigHash =
        some ((created fm key sig sigLen now head lm tm).flows.elt g).htLineIndex := by
  obtain hg | rfl := (live_created hi g).mp hg
  · obtain ⟨hm, hv, hh⟩ := hi.flowLine g hg
    have hx := (hi.lineFlow _ _ hm).1
    rw [created_old hg]
    refine ⟨(mem_insert_update fun y => List.mem_cons).mpr (Or.inr hm), ?_, hh⟩
    rw [hlv, if_neg (ne_fresh hx), hv]
  · rw [created_new]
    refine ⟨(mem_insert_update fun y => List.mem_cons).mpr (Or.inl ⟨rfl, rfl⟩), ?_, hk⟩
    rw [linkedFlow, hlv, if_pos rfl]

end Lines

section Slots

variable (hi : Inv fm lines slots) (htv : ∀ y, (tm y).value =
  if y = fresh fm.timers then some (fresh fm.flows) else (fm.timers.elt y).value)

include hi htv

theorem created_slotFlow {i x : Nat}
    (hx : x ∈ Function.update slots s (slots s ++ [fresh fm.timers]) i) :
    Live (get fm.timers) x ∧ ∃ f, (tm x).value = some f ∧
      Live (created fm key sig sigLen now head lm tm).flows f ∧
      ((created fm key sig sigLen now head lm tm).flows.elt f).timerIndex = x := by
  obtain ⟨rfl, _⟩ | hx := (mem_insert_update mem_concat).mp hx
  · refine ⟨(live_get hi.timersWF _).mpr (Or.inr rfl), fresh fm.flows, ?_, ?_, ?_⟩
    · rw [htv, if_pos rfl]
    · exact (live_created hi _).mpr (Or.inr rfl)
    · rw [created_new, linkedFlow, newFlow]
  · obtain ⟨hxl, g, hv, hg, h1⟩ := hi.slotFlow i x hx
    refine ⟨(live_get hi.timersWF _).mpr (Or.inl hxl), g, ?_, ?_, ?_⟩
    · rw [htv, if_neg (ne_fresh hxl), hv]
    · exact (live_created hi _).mpr (Or.inl hg)
    · rw [created_old hg, h1]

theorem created_flowSlot {g : Nat} (hg : Live (created fm key sig sigLen now head lm tm).flows g) :
    (∃ i, ((created fm key sig sigLen now head lm tm).flows.elt g).timerIndex ∈
        Function.update slots s (slots s ++ [fresh fm.timers]) i) ∧
      (tm ((created fm key sig sigLen now head lm tm).flows.elt g).timerIndex).value = some g := by
  obtain hg | rfl := (live_created hi g).mp hg
  · obtain ⟨⟨i, hm⟩, hv⟩ := hi.flowSlot g hg
    have hx := (hi.slotFlow _ _ hm).1
    rw [created_old hg]
    refine ⟨⟨i, (mem_insert_update mem_concat).mpr (Or.inr hm)⟩, ?_⟩
    rw [htv, if_neg (ne_fresh hx), hv]
  · rw [created_new]
    refine ⟨⟨s, (mem_insert_update mem_concat).mpr (Or.inl ⟨rfl, rfl⟩)⟩, ?_⟩
    rw [linkedFlow, newFlow, htv, if_pos rfl]

end Slots

theorem created_inv (hi : Inv fm lines slots) (hk : fm.flowsHt key = some head)
    (hl : Rings lm fm.flowsHt (Function.update lines key (fresh fm.htLines :: lines key)))
    (ht : Rings tm slotHead (Function.update slots s (slots s ++ [fresh fm.timers])))
    (hlv : ∀ y, (lm y).value =
      if y = fresh fm.htLines then some (fresh fm.flows) else (fm.htLines.elt y).value)
    (htv : ∀ y, (tm y).value =
      if y = fresh fm.timers then some (fresh fm.flows) else (fm.timers.elt y).value) :
    Inv (created fm key sig sigLen now head lm tm)
      (Function.update lines key (fresh fm.htLines :: lines key))
      (Function.update slots s (slots s ++ [fresh fm.timers])) where
  flowsWF := wf_set (wf_get hi.flowsWF) _ _
  linesWF := wf_withElt (wf_get hi.linesWF) _
  timersWF := wf_withElt (wf_get hi.timersWF) _
  wheel := hi.wheel
  timeIndex := hi.timeIndex
  cpt := by
    show fm.flowsCpt + 1 = liveCount (get fm.flows)
    rw [liveCount_get hi.flowsWF, hi.cpt]
  lineRings := hl
  slotRings := ht
  lineHead k h hh := (live_get hi.linesWF h).mpr (Or.inl (hi.lineHead k h hh))
  slotHeadLive i hlt := (live_get hi.timersWF i).mpr (Or.inl (hi.slotHeadLive i hlt))
  lineElts _ he := created_lineElts hi hk he
  slotElts _ he := created_slotElts hi ht he
  lineFlow _ _ hx := created_lineFlow hi hlv hx
  slotFlow _ _ hx := created_slotFlow hi htv hx
  flowLine _ hg := created_flowLine hi hlv hk hg
  flowSlot _ hg := created_flowSlot hi htv hg

end Created

/-- Below the limit a search without result ends in a new flow, linked into the
line and into the slot of the default lifetime. -/
theorem createFlow_slots (hi : Inv fm lines slots) {key : BitVec 64} {head : Nat}
    (hk : fm.flowsHt key = some head) (hlim : fm.flowsCpt ≤ fmPoolCount) (sig : Bytes)
    (sigLen now : Nat) :
    ∃ lm tm, createFlow fm key sig sigLen now head =
        some (created fm key sig sigLen now head lm tm, some (fresh fm.flows), true) ∧
      Inv (created fm key sig sigLen now head lm tm)
        (Function.update lines key (fresh fm.htLines :: lines key))
        (Function.update slots (slotOf fm timerDefaultLifetime)
          (slots (slotOf fm timerDefaultLifetime) ++ [fresh fm.timers])) := by
  obtain ⟨tm, htm, htr, htv⟩ := createTimer_spec hi key sig sigLen now
  have hu := hi.unused_line (x := fresh fm.htLines) not_live_fresh
  obtain ⟨lm, hlm, hlr, hlv⟩ := createLineEntry_spec { fm with
    flows := set (get fm.flows) (fresh fm.flows) (newFlow key sig sigLen now (fresh fm.timers))
    flowsCpt := fm.flowsCpt + 1
    timers := withElt (get fm.timers) tm } hi.lineRings hk hu (fresh fm.flows)
  refine ⟨lm, tm, ?_, created_inv hi hk hlr htr hlv htv⟩
  rw [createFlow, if_neg (by omega), htm]
  simp only [Option.bind_eq_bind, Option.bind_some, hlm]
  simp only [FlowTable.setFlow, created, linkedFlow, PoolStore.set, Function.update_self,
    Function.update_idem]

theorem createFlow_spec (hi : Inv fm lines slots) {key : BitVec 64} {head : Nat}
    (hk : fm.flowsHt key = some head) (hlim : fm.flowsCpt ≤ fmPoolCount) (sig : Bytes)
    (sigLen now : Nat) :
    ∃ lm tm slots', createFlow fm key sig sigLen now head =
        some (created fm key sig sigLen now head lm tm, some (fresh fm.flows), true) ∧
      Inv (created fm key sig sigLen now head lm tm)
        (Function.update lines key (fresh fm.htLines :: lines key)) slots' := by
  obtain ⟨lm, tm, hr, hi'⟩ := createFlow_slots hi hk hlim sig sigLen now
  exact ⟨lm, tm, _, hr, hi'⟩

end Vppsb.FlowCreate
