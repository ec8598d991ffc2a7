import Vppsb.TurbotapSlots

namespace Vppsb.TurbotapReady

open Vppsb.StepRun Vppsb.Turbotap Vppsb.TurbotapSlots

/-- A run of the node receives on active interfaces only, and no pending bit is
left by a delete. -/
def OnlyActive (s : State) : Event → Prop
  | .rx => ∃ t calls, turbotapRx s = some (t, calls) ∧ ∀ ti ∈ calls, ti.active = true
  | .delete sw => ∀ i, s.turbotapInterfaceIndexBySwIfIndex sw = some i →
      ∃ t, step s (.delete sw) = some t ∧ clibBitmapGet t.pendingReadBitmap i = false
  | _ => True

/-- An interface that is deleted has been received from since it was ready. -/
def Drained (s : State) : Event → Prop
  | .delete sw => ∀ i, s.turbotapInterfaceIndexBySwIfIndex sw = some i →
      clibBitmapGet s.pendingReadBitmap i = false
  | _ => True

def PendingActive (s : State) : Prop := ∀ i, clibBitmapGet s.pendingReadBitmap i = true →
  ∃ ti, ActiveAt s.turbotapInterfaces i ti

variable {s t : State} {ti : Interface} {i : Nat} {o : Outcome}

theorem connect_pending {r : State × Except ApiError Nat} (hend : ConnectEnd s o r)
    (ha : PendingActive s) : PendingActive r.1 := by
  cases hend with
  | undone e devices => exact ha
  | leaked e => exact ha
  | late e devices slots list k f _ _ _ htaken hf =>
    intro i hi
    obtain ⟨ti, hti⟩ := ha i hi
    exact ⟨ti, (htaken.activeAt ((hf _).trans htaken.slot.2) i ti).mpr hti⟩
  | done devices slots list k f new hw sw _ _ _ htaken _ _ hf =>
    intro i hi
    obtain ⟨ti, hti⟩ := ha i hi
    refine ⟨ti, (htaken.activeAt_done (hf _).1 i ti).mpr (Or.inr ⟨?_, hti⟩)⟩
    rintro rfl
    exact htaken.idle ti hti

theorem delete_pending (ha : PendingActive s) (hti : ActiveAt s.turbotapInterfaces i ti)
    (hclear : clibBitmapGet s.pendingReadBitmap i = false) : PendingActive (deleted s i ti) := by
  intro j hj
  obtain ⟨tj, htj⟩ := ha j hj
  refine ⟨tj, (deleted_activeAt hti j tj).mpr ⟨?_, htj⟩⟩
  rintro rfl
  exact absurd (hclear.symm.trans hj) Bool.false_ne_true

theorem edit_pending (ha : PendingActive s) {f : Interface → Interface}
    (devices : String → BitVec 16) (hf : ∀ tj : Interface, (f tj).active = tj.active) :
    PendingActive { s with
      devices := devices
      turbotapInterfaces := s.turbotapInterfaces.modify i f } := by
  intro j hj
  obtain ⟨tj, htj, hon⟩ := ha j hj
  by_cases hij : i = j
  · subst hij
    exact ⟨f tj, by rw [List.getElem?_modify_eq, htj]; rfl, (hf tj).trans hon⟩
  · exact ⟨tj, (List.getElem?_modify_ne _ _ hij).trans htj, hon⟩

theorem step_pending {e : Event} (hst : Stepped s e t) (ha : PendingActive s) (hd : Drained s e) :
    PendingActive t := by
  cases hst with
  | connect hend => exact connect_pending hend ha
  | unknown _ => exact ha
  | deleted hsw hti => exact delete_pending ha hti (hd _ hsw)
  | resized _ _ => exact edit_pending ha s.devices fun _ => rfl
  | kept _ _ => exact ha
  | switched _ => exact edit_pending ha _ fun _ => rfl
  | ignored _ => exact ha
  | ready hti =>
    intro j hj
    rw [clibBitmapGet_set] at hj
    split at hj
    · next hji => exact ⟨_, hji ▸ hti⟩
    · exact ha j hj
  | rx hbits => exact fun j hj => absurd ((hbits j).symm.trans hj) Bool.false_ne_true

theorem onlyActive_iff (hs : Sound s) (ha : PendingActive s) (e : Event) :
    OnlyActive s e ↔ Drained s e := by
  cases e with
  | rx =>
    obtain ⟨bitmap, calls, hrun, _, hcalls⟩ := turbotapRx_spec hs
    refine iff_of_true ⟨_, calls, hrun, fun ti hti => ?_⟩ trivial
    obtain ⟨i, hi, hslot⟩ := (hcalls ti).mp hti
    obtain ⟨ui, hui, hon⟩ := ha i hi
    exact Option.some.inj (hui.symm.trans hslot) ▸ hon
  | delete sw =>
    refine forall₂_congr fun i hsw => ?_
    obtain ⟨ti, _, _, hrun⟩ := vnetTurbotapDelete_spec hs hsw
    have hstep : step s (.delete sw) = some (deleted s i ti) := by
      rw [step, hrun]
      rfl
    constructor
    · rintro ⟨t, ht, hbit⟩
      obtain rfl := Option.some.inj (hstep.symm.trans ht)
      exact hbit
    · exact fun hbit => ⟨_, hstep, hbit⟩
  | connect o => exact Iff.rfl
  | flagChange i maxPacketBytes flags getFlags setFlags => exact Iff.rfl
  | readReady fd => exact Iff.rfl

/-- In a run the node receives on active interfaces only and no delete leaves a
pending bit, if and only if no interface is deleted while its bit is set. -/
theorem run_onlyActive (isDisabled : Bool) (mtuBytes bufferSize : Nat)
    (devices : String → BitVec 16) (events : List Event)
    (hp : Meets step Possible (start isDisabled mtuBytes bufferSize devices) events) :
    Meets step OnlyActive (start isDisabled mtuBytes bufferSize devices) events ↔
      Meets step Drained (start isDisabled mtuBytes bufferSize devices) events := by
  refine meets_congr (P := fun s => Sound s ∧ PendingActive s) (fun s e t hs hp hd ht => ?_)
    (fun s e hs _ => onlyActive_iff hs.1 hs.2 e) ⟨start_sound, fun i hi => nomatch hi⟩ hp
  have hst := stepped hs.1 hp ht
  exact ⟨hst.sound hs.1 hp, step_pending hst hs.2 hd⟩

private def idleStart : State := start false 1500 2048 fun _ => 0

private def drainedDelete : List Event :=
  [.connect (allDone 3 "tap0" 7 9), .readReady 4, .rx, .delete 9]

/-- The interface is received from before it is deleted. -/
theorem run_onlyActive_sample : Meets step OnlyActive idleStart drainedDelete := by
  refine (run_onlyActive false 1500 2048 (fun _ => 0) drainedDelete ?_).mpr ?_
  · exact ⟨⟨by decide, fun hw sw _ i ti h => nomatch h⟩, fun s hs => ⟨trivial, fun t ht =>
      ⟨trivial, fun u hu => ⟨trivial, fun _ _ => trivial⟩⟩⟩⟩
  · refine ⟨trivial, fun s hs => ⟨trivial, fun t ht => ⟨trivial, fun u hu => ⟨fun i hi => ?_,
      fun _ _ => trivial⟩⟩⟩⟩
    obtain rfl := Option.some.inj hs
    obtain rfl := Option.some.inj ht
    obtain rfl := Option.some.inj hu
    obtain rfl := Option.some.inj hi
    rfl

/-- An interface that is deleted while it is ready is received from afterwards,
with its descriptors closed. -/
theorem deleted_interface_received : ∃ s t calls,
    Meets step Possible idleStart
      [.connect (allDone 3 "tap0" 7 9), .readReady 4, .delete 9, .rx] ∧
    run step idleStart [.connect (allDone 3 "tap0" 7 9), .readReady 4, .delete 9] = some s ∧
    turbotapRx s = some (t, calls) ∧ ∃ ti ∈ calls, ti.active = false ∧ ti.sockFd = -1 := by
  refine ⟨_, _, _, ⟨⟨by decide, fun hw sw _ i ti h => nomatch h⟩, fun s hs => ⟨trivial, fun t ht =>
    ⟨trivial, fun u hu => ⟨trivial, fun _ _ => trivial⟩⟩⟩⟩, rfl, rfl, _, List.mem_cons_self, rfl, rfl⟩

end Vppsb.TurbotapReady
