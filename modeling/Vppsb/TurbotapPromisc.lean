import Vppsb.TurbotapSlots

namespace Vppsb.TurbotapPromisc

open Vppsb.StepRun Vppsb.Turbotap Vppsb.TurbotapSlots

def promiscuous (flags : BitVec 16) : Bool := flags &&& iffPromisc != 0

/-- A new device is not promiscuous, and is none of the devices that are there. -/
def NewDevice (s : State) : Event → Prop
  | .connect o => ∀ new, o.tunSetIff = some new → promiscuous new.flags = false ∧
      ∀ i ti, ActiveAt s.turbotapInterfaces i ti → ti.ifr.name ≠ new.name
  | _ => True

/-- The field of every active interface is the state of its device. -/
def Cached (s : State) : Prop := ∀ i ti, ActiveAt s.turbotapInterfaces i ti →
  ti.isPromisc = promiscuous (s.devices ti.ifr.name)

/-- What should hold of an event. A change of the MTU is no request for a mode. -/
def Faithful (s : State) (e : Event) : Prop :=
  ∃ t, step s e = some t ∧ Cached t ∧
    match e with
    | .flagChange i _ flags getFlags setFlags =>
      flags.mtu = false → getFlags = true → setFlags = true → ∀ ti,
        t.turbotapInterfaces[i]? = some ti →
        promiscuous (t.devices ti.ifr.name) = flags.acceptAll
    | _ => True

/-- A connect that succeeds takes a slot that is not marked as promiscuous. -/
def Unmarked (s : State) : Event → Prop
  | .connect o => Succeeds s o → (nextSlot s).isPromisc = false
  | _ => True

def Distinct (s : State) : Prop := ∀ i j ti tj, ActiveAt s.turbotapInterfaces i ti →
  ActiveAt s.turbotapInterfaces j tj → i ≠ j → ti.ifr.name ≠ tj.ifr.name

variable {s t : State} {ti tj : Interface} {i j : Nat} {o : Outcome} {flags : BitVec 16}

theorem promiscuous_eq : promiscuous flags = flags.getLsbD 8 := by
  have hbit : iffPromisc = BitVec.twoPow 16 8 := rfl
  rw [promiscuous, hbit, BitVec.and_twoPow]
  cases flags.getLsbD 8 with
  | true => rfl
  | false => rfl

@[simp] theorem promiscuous_set : promiscuous (flags ||| iffPromisc) = true := by
  rw [promiscuous_eq, BitVec.getLsbD_or]
  exact Bool.or_true _

@[simp] theorem promiscuous_clear : promiscuous (flags &&& ~~~iffPromisc) = false := by
  rw [promiscuous_eq, BitVec.getLsbD_and]
  exact Bool.and_false _

@[simp] theorem promiscuous_up :
    promiscuous (flags ||| (iffUp ||| iffRunning)) = promiscuous flags := by
  rw [promiscuous_eq, promiscuous_eq, BitVec.getLsbD_or]
  exact Bool.or_false _

theorem other_devices (hnew : NewDevice s (.connect o)) {devices : String → BitVec 16}
    (hdev : ∀ name, (∀ ifr, o.tunSetIff = some ifr → ifr.name ≠ name) →
      devices name = s.devices name) (hti : ActiveAt s.turbotapInterfaces i ti) :
    devices ti.ifr.name = s.devices ti.ifr.name :=
  hdev _ fun ifr hifr => Ne.symm ((hnew ifr hifr).2 i ti hti)

theorem connect_cached {r : State × Except ApiError Nat} (hend : ConnectEnd s o r)
    (hnew : NewDevice s (.connect o)) (hc : Cached s) (hd : Distinct s) :
    Distinct r.1 ∧ (Cached r.1 ↔ Unmarked s (.connect o)) := by
  cases hend with
  | undone e devices hdev hfail =>
    refine ⟨hd, iff_of_true (fun i ti hti => ?_) fun h => absurd h hfail⟩
    exact (hc i ti hti).trans (congrArg promiscuous (other_devices hnew hdev hti).symm)
  | leaked e hfail => exact ⟨hd, iff_of_true hc fun h => absurd h hfail⟩
  | late e devices slots list k f hdev hfail _ htaken hf =>
    have hact := htaken.activeAt (f := f) ((hf _).trans htaken.slot.2)
    refine ⟨fun i j ti tj hi hj => ?_, iff_of_true (fun i ti hi => ?_) fun h => absurd h hfail⟩
    · exact hd i j ti tj ((hact i ti).mp hi) ((hact j tj).mp hj)
    · have hti := (hact i ti).mp hi
      exact (hc i ti hti).trans (congrArg promiscuous (other_devices hnew hdev hti).symm)
  | done devices slots list k f new hw sw hdev hok _ htaken _ hset hf hflags =>
    obtain ⟨hon, _, _, hmark, hname⟩ := hf (nextSlot s)
    obtain ⟨hnone, hother⟩ := hnew new hset
    have hact := htaken.activeAt_done hon
    refine ⟨fun i j ti tj hi hj hij => ?_, ?_⟩
    · obtain ⟨rfl, rfl⟩ | ⟨_, hi'⟩ := (hact i ti).mp hi
      · obtain ⟨rfl, _⟩ | ⟨_, hj'⟩ := (hact j tj).mp hj
        · exact absurd rfl hij
        · exact hname ▸ Ne.symm (hother j tj hj')
      · obtain ⟨rfl, rfl⟩ | ⟨_, hj'⟩ := (hact j tj).mp hj
        · exact hname ▸ hother i ti hi'
        · exact hd i j ti tj hi' hj' hij
    · have hnow : promiscuous (devices (f (nextSlot s)).ifr.name) = false := by
        rw [hname, hflags, promiscuous_up, hnone]
      constructor
      · intro h _
        have hslot := h k _ ((hact k _).mpr (Or.inl ⟨rfl, rfl⟩))
        exact hmark.symm.trans (hslot.trans hnow)
      · intro h i ti hi
        obtain ⟨rfl, rfl⟩ | ⟨_, hi'⟩ := (hact i ti).mp hi
        · exact (hmark.trans (h hok)).trans hnow.symm
        · exact (hc i ti hi').trans (congrArg promiscuous (other_devices hnew hdev hi').symm)

theorem delete_cached (hc : Cached s) (hd : Distinct s) (hti : ActiveAt s.turbotapInterfaces i ti) :
    Cached (deleted s i ti) ∧ Distinct (deleted s i ti) := by
  have hact := deleted_activeAt hti
  exact ⟨fun j tj hj => hc j tj ((hact j tj).mp hj).2,
    fun j k tj tk hj hk => hd j k tj tk ((hact j tj).mp hj).2 ((hact k tk).mp hk).2⟩

theorem edit_distinct (hd : Distinct s) (hti : ActiveAt s.turbotapInterfaces i ti)
    {f : Interface → Interface} (hf : ∀ tj : Interface, (f tj).ifr = tj.ifr) :
    Distinct (s.edit i f) := by
  intro j k tj tk hj hk hjk
  obtain ⟨rfl, rfl, _⟩ | ⟨_, hj'⟩ := (activeAt_modify hti.1).mp hj
  · obtain ⟨rfl, _⟩ | ⟨_, hk'⟩ := (activeAt_modify hti.1).mp hk
    · exact absurd rfl hjk
    · rw [hf]
      exact hd j k ti tk hti hk' hjk
  · obtain ⟨rfl, rfl, _⟩ | ⟨_, hk'⟩ := (activeAt_modify hti.1).mp hk
    · rw [hf]
      exact hd j k tj ti hj' hti hjk
    · exact hd j k tj tk hj' hk' hjk

@[simp] theorem promiscuous_ite {acceptAll : Bool} :
    promiscuous (if acceptAll then flags ||| iffPromisc else flags &&& ~~~iffPromisc) =
      acceptAll := by
  cases acceptAll <;> simp

theorem setDevice_self (s : State) (ifr : Ifreq) : (s.setDevice ifr).devices ifr.name = ifr.flags :=
  Function.update_self _ _ _

theorem switch_cached (hc : Cached s) (hd : Distinct s) (hti : ActiveAt s.turbotapInterfaces i ti)
    {acceptAll : Bool} (hmode : promiscuous flags = acceptAll) :
    Cached ((s.setDevice ⟨ti.ifr.name, flags⟩).edit i (fun tj =>
      { tj with isPromisc := acceptAll })) := by
  intro j tj hj
  obtain ⟨rfl, rfl, _⟩ | ⟨hji, hj'⟩ := (activeAt_modify hti.1).mp hj
  · exact hmode.symm.trans (congrArg promiscuous (setDevice_self s ⟨ti.ifr.name, flags⟩).symm)
  · have hother : (s.setDevice ⟨ti.ifr.name, flags⟩).devices tj.ifr.name = s.devices tj.ifr.name :=
      Function.update_of_ne (hd j i tj ti hj' hti hji) _ _
    exact (hc j tj hj').trans (congrArg promiscuous hother.symm)

theorem step_distinct {e : Event} (hst : Stepped s e t) (hnew : NewDevice s e) (hc : Cached s)
    (hd : Distinct s) : Distinct t := by
  cases hst with
  | connect hend => exact (connect_cached hend hnew hc hd).1
  | unknown _ => exact hd
  | deleted _ hti => exact (delete_cached hc hd hti).2
  | resized hti _ => exact edit_distinct hd hti fun _ => rfl
  | kept _ _ => exact hd
  | switched hti => exact edit_distinct (s := s.setDevice _) hd hti fun _ => rfl
  | ignored _ => exact hd
  | ready _ => exact hd
  | rx _ => exact hd

/-- Only a connect can part a field from its device. -/
theorem step_cached {e : Event} (hst : Stepped s e t) (hnew : NewDevice s e) (hc : Cached s)
    (hd : Distinct s) : Cached t ↔ Unmarked s e := by
  cases hst with
  | connect hend => exact (connect_cached hend hnew hc hd).2
  | unknown _ => exact iff_of_true hc trivial
  | deleted _ hti => exact iff_of_true (delete_cached hc hd hti).1 trivial
  | @resized _ _ ti _ _ _ hti _ =>
    refine iff_of_true (fun j tj hj => ?_) trivial
    obtain ⟨rfl, rfl, _⟩ | ⟨_, hj'⟩ := (activeAt_modify hti.1).mp hj
    · exact hc j ti hti
    · exact hc j tj hj'
  | kept _ _ => exact iff_of_true hc trivial
  | switched hti => exact iff_of_true (switch_cached hc hd hti promiscuous_ite) trivial
  | ignored _ => exact iff_of_true hc trivial
  | ready _ => exact iff_of_true hc trivial
  | rx _ => exact iff_of_true hc trivial

/-- A flag change that calls both `ioctl` leaves the device in the mode that it
asks for. -/
theorem flagChange_mode {maxPacketBytes : Nat} {flags : EthernetFlags} {getFlags setFlags : Bool}
    (hst : Stepped s (.flagChange i maxPacketBytes flags getFlags setFlags) t) (hc : Cached s)
    (hmtu : flags.mtu = false) (hget : getFlags = true) (hset : setFlags = true) (tj : Interface)
    (htj : t.turbotapInterfaces[i]? = some tj) :
    promiscuous (t.devices tj.ifr.name) = flags.acceptAll := by
  cases hst with
  | resized _ hm => exact absurd (hmtu.symm.trans hm) Bool.false_ne_true
  | @kept _ _ ti _ _ _ hti hskip =>
    obtain rfl := Option.some.inj (hti.1.symm.trans htj)
    obtain h | h | h := hskip
    · exact absurd (h.symm.trans hget) Bool.false_ne_true
    · exact (hc i ti hti).symm.trans h.symm
    · exact absurd (h.symm.trans hset) Bool.false_ne_true
  | @switched _ _ ti _ _ _ hti =>
    rw [State.edit, List.getElem?_modify_eq] at htj
    obtain ⟨uj, huj, rfl⟩ := Option.map_eq_some_iff.mp htj
    obtain rfl := Option.some.inj (hti.1.symm.trans huj)
    exact (congrArg promiscuous (setDevice_self s ⟨ti.ifr.name, _⟩)).trans promiscuous_ite

theorem faithful_iff (hs : Sound s) (hc : Cached s) (hd : Distinct s) {e : Event}
    (hp : Possible s e) (hnew : NewDevice s e) : Faithful s e ↔ Unmarked s e := by
  obtain ⟨t, ht, hst⟩ := step_spec hs hp
  have hiff := step_cached hst hnew hc hd
  constructor
  · rintro ⟨u, hu, hcu, _⟩
    obtain rfl := Option.some.inj (ht.symm.trans hu)
    exact hiff.mp hcu
  · intro hu
    refine ⟨t, ht, hiff.mpr hu, ?_⟩
    cases e with
    | flagChange i maxPacketBytes flags getFlags setFlags => exact flagChange_mode hst hc
    | connect o => exact trivial
    | delete sw => exact trivial
    | readReady fd => exact trivial
    | rx => exact trivial

/-- In every state of a run the field of each active interface is the state of its
device, and a flag change whose calls succeed leaves the device in the mode that
it asks for, if and only if no connect takes a slot that is marked as
promiscuous. -/
theorem run_faithful (isDisabled : Bool) (mtuBytes bufferSize : Nat)
    (devices : String → BitVec 16) (events : List Event)
    (hp : Meets step (fun s e => Possible s e ∧ NewDevice s e)
      (start isDisabled mtuBytes bufferSize devices) events) :
    Meets step Faithful (start isDisabled mtuBytes bufferSize devices) events ↔
      Meets step Unmarked (start isDisabled mtuBytes bufferSize devices) events := by
  refine meets_congr (P := fun s => Sound s ∧ Cached s ∧ Distinct s) (fun s e t hs hp hu ht => ?_)
    (fun s e hs hp => faithful_iff hs.1 hs.2.1 hs.2.2 hp.1 hp.2)
    ⟨start_sound, fun i ti h => absurd h.1 nofun, fun i j ti tj h => absurd h.1 nofun⟩ hp
  obtain ⟨hs, hc, hd⟩ := hs
  have hst := stepped hs hp.1 ht
  exact ⟨hst.sound hs hp.1, (step_cached hst hp.2 hc hd).mpr hu, step_distinct hst hp.2 hc hd⟩

private def firstStart : State := start false 1500 2048 fun _ => 0

private def acceptAll : EthernetFlags := ⟨true, false⟩

private def noAcceptAll : EthernetFlags := ⟨false, false⟩

private def promiscAndBack : List Event :=
  [.connect (allDone 3 "tap0" 7 9), .flagChange 0 1500 acceptAll true true,
    .flagChange 0 1500 noAcceptAll true true]

private theorem connected_active {u : State} (hu : step firstStart
    (.connect (allDone 3 "tap0" 7 9)) = some u) : ∃ ti, ActiveAt u.turbotapInterfaces 0 ti := by
  obtain rfl := Option.some.inj hu
  exact ⟨_, rfl, rfl⟩

/-- An interface that is set promiscuous and back. -/
theorem run_faithful_sample : Meets step Faithful firstStart promiscAndBack := by
  refine (run_faithful false 1500 2048 (fun _ => 0) promiscAndBack ?_).mpr ?_
  · refine ⟨⟨⟨by decide, fun hw sw _ i ti h => nomatch h⟩, fun new hnew => ?_⟩,
      fun s hs => ⟨⟨connected_active hs, trivial⟩, fun t ht => ⟨⟨?_, trivial⟩, fun _ _ => trivial⟩⟩⟩
    · obtain rfl := Option.some.inj hnew
      exact ⟨rfl, fun i ti h => nomatch h⟩
    · obtain rfl := Option.some.inj hs
      obtain rfl := Option.some.inj ht
      exact ⟨_, rfl, rfl⟩
  · exact ⟨fun _ => rfl, fun _ _ => ⟨trivial, fun _ _ => ⟨trivial, fun _ _ => trivial⟩⟩⟩

/-- The slot of a promiscuous interface is used for a new device, which then is
not made promiscuous. -/
theorem recycled_slot_marked : ∃ s t,
    run step firstStart [.connect (allDone 3 "tap0" 7 9), .flagChange 0 1500 acceptAll true true,
      .delete 9, .connect (allDone 3 "tap1" 7 9)] = some s ∧
    step s (.flagChange 0 1500 acceptAll true true) = some t ∧
    (∃ ti, ActiveAt t.turbotapInterfaces 0 ti ∧ ti.isPromisc = true ∧ ti.ifr.name = "tap1") ∧
    promiscuous (t.devices "tap1") = false :=
  ⟨_, _, rfl, rfl, ⟨_, ⟨rfl, rfl⟩, rfl, rfl⟩, rfl⟩

end Vppsb.TurbotapPromisc
