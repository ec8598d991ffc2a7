import Vppsb.NetnsIsolation

namespace Vppsb.NetnsHandles

open Vppsb.StepRun Vppsb.PoolStore Vppsb.KeyedPool Vppsb.NetnsTables Vppsb.NetnsWorld
  Vppsb.NetnsIsolation

def references (w : World) (j : Nat) : Nat :=
  (liveIndices w.handles).countP (fun h => decide ((w.handles.elt h).netnsIndex = j))

/-- The handles that are live are those that were not closed, and namespaces,
streams and callbacks are in step with them. -/
structure Accounted (w : World) : Prop where
  live : ∀ h, Live w.handles h ↔ h ∈ w.held
  counted : ∀ j, Live w.netnss j → (w.netnss.elt j).subscriberCount = references w j
  alive : ∀ j, Live w.netnss j ↔ 0 < references w j
  serves : ∀ j, Live w.netnss j → Open w (w.netnss.elt j).rtnlHandle ∧
    (w.streams.elt (w.netnss.elt j).rtnlHandle).streamOpaque = j
  served : ∀ i, Open w i → Live w.netnss (w.streams.elt i).streamOpaque ∧
    (w.netnss.elt (w.streams.elt i).streamOpaque).rtnlHandle = i
  notified : ∀ j h, (netnsNotify w.handles j).count h =
    if h ∈ w.held ∧ (w.handles.elt h).netnsIndex = j ∧ (w.handles.elt h).notify = true then 1 else 0

/-- Closing a handle frees it and no other, and it is not called back again. -/
structure Released (w : World) (h : Nat) (u : World) : Prop where
  freed : ∀ k, Live u.handles k ↔ Live w.handles k ∧ k ≠ h
  silent : ∀ j, h ∉ netnsNotify u.handles j
  others : ∀ k, k ≠ h → Live w.handles k → ∀ j,
    (netnsNotify u.handles j).count k = (netnsNotify w.handles j).count k

def FirstOnly (_ : World) : Act → Prop
  | .netnsClose h => h = 0
  | _ => True

/-- Handles are closed by those who got them, and events are handled once they were
signalled. -/
def Allowed (w : World) : Act → Prop
  | .netnsClose h => h ∈ w.held
  | .readReady i => i < w.streams.len
  | .deliver k _ _ => (takes w.pending k).isSome = true
  | _ => True

def Exact (w : World) : Prop := ∀ h, Live w.handles h ↔ h ∈ w.held

variable {w u : World}

theorem perm_held (h : Sound w) (he : Exact w) : (liveIndices w.handles).Perm w.held := by
  apply (List.perm_ext_iff_of_nodup (nodup_liveIndices _) h.subscribed.nodup).mpr
  intro k
  rw [mem_liveIndices]
  exact he k

theorem accounted (h : Sound w) (he : Exact w) : Accounted w := by
  have hr : ∀ j, references w j = subscribers w j := fun j => (perm_held h he).countP_eq _
  refine ⟨he, fun j hj => ?_, fun j => ⟨fun hj => ?_, fun hp => ?_⟩, fun j hj => ?_,
    h.linked.served, fun j k => ?_⟩
  · rw [hr]
    exact h.subscribed.counted j hj
  · rw [hr, ← h.subscribed.counted j hj]
    exact h.used j hj (Option.some_ne_none j)
  · rw [hr] at hp
    obtain ⟨k, hk, hd⟩ := List.countP_pos_iff.mp hp
    have hl := h.subscribed.refers k hk
    rwa [of_decide_eq_true hd] at hl
  · obtain ⟨ho, hx, _⟩ := h.linked.serves j hj
    exact ⟨ho, hx⟩
  · rw [count_netnsNotify]
    simp only [he k]

theorem netnsGet_kept (w : World) (name : List UInt8) (opens : Bool) :
    (netnsGet w name opens).1.handles = w.handles ∧ (netnsGet w name opens).1.held = w.held := by
  unfold netnsGet
  split
  · exact ⟨rfl, rfl⟩
  · split
    · exact ⟨rfl, rfl⟩
    · cases opens <;> exact ⟨rfl, rfl⟩

theorem open_exact (h : Sound w) (he : Exact w) (name : List UInt8) (notify opens : Bool) :
    Exact (netnsOpen w name notify opens).1 := by
  obtain ⟨hh, hl⟩ := netnsGet_kept w name opens
  unfold netnsOpen
  cases hr : (netnsGet w name opens).2 with
  | none =>
    simp only [hr]
    unfold Exact
    rw [hh, hl]
    exact he
  | some j =>
    simp only [hr]
    intro k
    rw [hh, hl, List.mem_cons, live_insert h.subscribed.handles, he k]
    exact or_comm

theorem handles_close {k : Nat} (hu : netnsClose w k = some u) :
    k = 0 ∧ u.handles = put w.handles k ∧ u.held = w.held.erase k := by
  obtain ⟨h0, rfl⟩ := netnsClose_eq_some.mp hu
  refine ⟨h0, ?_⟩
  split <;> exact ⟨rfl, rfl⟩

theorem close_exact {k : Nat} (h : Sound w) (he : Exact w) (hu : netnsClose w k = some u) :
    Exact u := by
  obtain ⟨_, hh, hl⟩ := handles_close hu
  intro x
  rw [hh, hl, live_put, he x, h.subscribed.nodup.mem_erase_iff]
  exact and_comm

theorem clock_kept {now : Rat} {f : Nat → RtnlStream.Event} (is : List Nat) :
    (is.foldl (fun w i => processStream w now i (f i)) w).handles = w.handles ∧
      (is.foldl (fun w i => processStream w now i (f i)) w).held = w.held := by
  induction is generalizing w with
  | nil => exact ⟨rfl, rfl⟩
  | cons i is ih => exact ih

theorem step_exact {a : Act} (h : Sound w) (he : Exact w) (ht : step w a = some u) :
    Exact u := by
  cases a with
  | netnsOpen name notify opens =>
    obtain rfl := Option.some.inj ht
    exact open_exact h he name notify opens
  | netnsClose k =>
    rw [step] at ht
    split at ht
    · exact close_exact h he ht
    · cases ht
  | readReady i =>
    rw [step] at ht
    split at ht
    · obtain rfl := Option.some.inj ht
      exact he
    · cases ht
  | deliver k now buffers =>
    obtain ⟨p, _, rfl⟩ := Option.map_eq_some_iff.mp ht
    exact he
  | clock now outcome ok =>
    obtain rfl := Option.some.inj ht
    obtain ⟨hh, hl⟩ := @clock_kept w now (fun i => .clock (outcome i) (ok i)) (liveIndices w.streams)
    unfold Exact
    rw [hh, hl]
    exact he

theorem step_defined {a : Act} (ha : Allowed w a) (hc : FirstOnly w a) :
    ∃ u, step w a = some u := by
  cases a with
  | netnsOpen name notify opens => exact ⟨_, rfl⟩
  | netnsClose k => exact ⟨_, (if_pos ha).trans (netnsClose_eq_some.mpr ⟨hc, rfl⟩)⟩
  | readReady i => exact ⟨_, if_pos ha⟩
  | deliver k now buffers =>
    obtain ⟨p, hp⟩ := Option.isSome_iff_exists.mp ha
    exact ⟨_, congrArg (Option.map _) hp⟩
  | clock now outcome ok => exact ⟨_, rfl⟩

/-- `netns_close` does its work for the first handle and for no other. -/
theorem released_iff {k : Nat} :
    (∃ u, netnsClose w k = some u ∧ Released w k u) ↔ k = 0 := by
  constructor
  · rintro ⟨u, hu, _⟩
    exact (netnsClose_eq_some.mp hu).1
  · intro h0
    obtain ⟨u, hu⟩ : ∃ u, netnsClose w k = some u := ⟨_, netnsClose_eq_some.mpr ⟨h0, rfl⟩⟩
    obtain ⟨_, hh, _⟩ := handles_close hu
    refine ⟨u, hu, ?_⟩
    have hlive : ∀ x, Live u.handles x ↔ Live w.handles x ∧ x ≠ k := by
      intro x
      rw [hh, live_put]
    have helt : ∀ x, u.handles.elt x = w.handles.elt x := by
      intro x
      rw [hh, elt_put]
    refine ⟨hlive, fun j hm => ?_, fun x hx hl j => ?_⟩
    · have hc := count_netnsNotify u.handles j k
      rw [if_neg fun hn => ((hlive k).mp hn.1).2 rfl] at hc
      exact List.count_eq_zero.mp hc hm
    · rw [count_netnsNotify, count_netnsNotify, helt x]
      simp only [hlive x, hl, hx, ne_eq, not_false_eq_true, and_self, true_and]

theorem open_fresh {name : List UInt8} {notify opens : Bool} {p : Nat}
    (hp : (netnsOpen w name notify opens).2 = some p) : ¬ Live w.handles p := by
  obtain ⟨hh, _⟩ := netnsGet_kept w name opens
  unfold netnsOpen at hp
  cases hr : (netnsGet w name opens).2 with
  | none =>
    simp only [hr] at hp
    cases hp
  | some j =>
    simp only [hr] at hp
    obtain rfl := Option.some.inj hp
    rw [hh]
    exact not_live_fresh

/-- As long as only the first handle is ever closed, every run has a result, and
namespaces and streams live as long as they have handles, which are counted, called
back and released one by one. Of the handles that are open it is the first one whose
closing works. -/
theorem run_accounted {as : List Act}
    (hc : Meets step (fun w a => Allowed w a ∧ FirstOnly w a) start as) :
    ∃ w, run step start as = some w ∧ Accounted w ∧
      (∀ h ∈ w.held, (∃ u, netnsClose w h = some u ∧ Released w h u) ↔ h = 0) ∧
      ∀ name notify opens p, (netnsOpen w name notify opens).2 = some p → ¬ Live w.handles p := by
  have h0 : Exact start := fun h => ⟨fun hl => absurd hl.1 (Nat.not_lt_zero h), nofun⟩
  have hstep : ∀ w a, Sound w ∧ Exact w → Allowed w a ∧ FirstOnly w a →
      ∃ u, step w a = some u ∧ Sound u ∧ Exact u := by
    intro w a hw ha
    obtain ⟨u, hu⟩ := step_defined ha.1 ha.2
    exact ⟨u, hu, step_sound hw.1 hu, step_exact hw.1 hw.2 hu⟩
  obtain ⟨w, hr, hs, he⟩ := progress_of_meets hstep ⟨start_sound, h0⟩ hc
  exact ⟨w, hr, accounted hs he, fun h _ => released_iff, fun _ _ _ _ hp => open_fresh hp⟩

def firstLeaves : List Act :=
  [.netnsOpen [97] true true, .netnsOpen [97] true true, .netnsClose 0]

theorem run_accounted_sample :
    ∃ w, run step start firstLeaves = some w ∧ Accounted w ∧ w.held = [1] := by
  have hc : Meets step (fun w a => Allowed w a ∧ FirstOnly w a) start firstLeaves := by
    refine ⟨⟨trivial, trivial⟩, fun w hw => ⟨⟨trivial, trivial⟩, fun u hu => ⟨⟨?_, rfl⟩,
      fun _ _ => trivial⟩⟩⟩
    obtain rfl := Option.some.inj hw
    obtain rfl := Option.some.inj hu
    exact List.mem_cons_of_mem 1 List.mem_cons_self
  obtain ⟨w, hr, hw, _⟩ := run_accounted hc
  obtain rfl := Option.some.inj hr
  exact ⟨_, rfl, hw, rfl⟩

/-- The second one leaves instead, and its handle is not released. -/
theorem second_not_released :
    ∃ w, run step start [.netnsOpen [97] true true, .netnsOpen [97] true true] = some w ∧
      1 ∈ w.held ∧ netnsNotify w.handles 0 = [0, 1] ∧
      ¬ ∃ u, netnsClose w 1 = some u ∧ Released w 1 u := by
  refine ⟨_, rfl, List.mem_cons_self, by decide +kernel, ?_⟩
  rintro ⟨u, hu, _⟩
  cases hu

end Vppsb.NetnsHandles
