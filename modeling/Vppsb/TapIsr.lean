import Vppsb.TapLookups

namespace Vppsb.TapIsr

open Vppsb.StepRun Vppsb.GrowVec Vppsb.TapLookups

/-- The taps with the events that are queued. `last` is not in the source: it
tells the kind of the last event queued for an index, `true` for an addition. -/
structure IsrState where
  taps : State
  configEnabled : Bool
  interfacesToEnable : List Nat
  interfacesToDisable : List Nat
  last : Nat → Option Bool

/-- The loop over the interfaces to enable, which stops at the first failure.
`outcome k` is that of the `k`-th call of connect. -/
def enableLoop (isEthernet : Nat → Bool) (outcome : Nat → Outcome) :
    Nat → State → List Nat → State × Bool
  | _, s, [] => (s, true)
  | k, s, hw :: rest =>
    if isEthernet hw then
      match tapInjectTapConnect s hw (outcome k) with
      | (s, false) => (s, false)
      | (s, true) => enableLoop isEthernet outcome (k + 1) s rest
    else enableLoop isEthernet outcome k s rest

def disableLoop : State → List Nat → Option State
  | s, [] => some s
  | s, hw :: rest => do
    let r ← tapInjectTapDisconnect s hw
    disableLoop r.1 rest

def tapInjectIfaceIsr (isEthernet : Nat → Bool) (outcome : Nat → Outcome) (s : IsrState) :
    Option (IsrState × Int) := do
  let r := enableLoop isEthernet outcome 0 s.taps s.interfacesToEnable
  let taps ← disableLoop r.1 s.interfacesToDisable
  some ({ s with taps := taps, interfacesToEnable := [], interfacesToDisable := [] },
    if r.2 then 0 else -1)

def tapInjectInterfaceAddDel (s : IsrState) (hwIfIndex : Nat) (add : Bool) : IsrState :=
  if s.configEnabled = false then s
  else
    let s := { s with last := Function.update s.last hwIfIndex (some add) }
    if add then { s with interfacesToEnable := s.interfacesToEnable ++ [hwIfIndex] }
    else { s with interfacesToDisable := s.interfacesToDisable ++ [hwIfIndex] }

inductive Event where
  | addDel (hwIfIndex : Nat) (add : Bool)
  | isr (outcome : Nat → Outcome)

def step (isEthernet : Nat → Bool) (s : IsrState) : Event → Option IsrState
  | .addDel hw add => some (tapInjectInterfaceAddDel s hw add)
  | .isr outcome => (tapInjectIfaceIsr isEthernet outcome s).map (fun r => r.1)

def start (configEnabled : Bool) : IsrState := ⟨TapLookups.start, configEnabled, [], [], fun _ => none⟩

def Succeeds (_ : IsrState) : Event → Prop
  | .isr outcome => ∀ k, (outcome k).succeeds = true ∧
      ∀ fd, (outcome k).openTun = some fd → fd < noIndex
  | .addDel _ _ => True

def HasTap (s : IsrState) (hw : Nat) : Prop := tapInjectLookupTapFd s.taps.im hw ≠ noIndex

/-- The Ethernet interfaces whose last event is an addition have a tap, the
others have none. -/
def Right (isEthernet : Nat → Bool) (s : IsrState) : Prop :=
  ∀ hw, isEthernet hw = true → (HasTap s hw ↔ s.last hw = some true)

def RightAfter (isEthernet : Nat → Bool) (s : IsrState) : Event → Prop
  | .isr outcome => ∃ t, step isEthernet s (.isr outcome) = some t ∧ Right isEthernet t
  | .addDel _ _ => True

/-- An Ethernet interface that is deleted between two runs of the routine is not
added again before the second one. -/
def InOrder (isEthernet : Nat → Bool) (s : IsrState) : Event → Prop
  | .isr _ => ∀ hw, isEthernet hw = true → hw ∈ s.interfacesToDisable → s.last hw ≠ some true
  | .addDel _ _ => True

variable {isEthernet : Nat → Bool}

section Loops

variable {s t : State} {hw x : Nat}

def Inside (s : State) : Prop := ∀ x, tapInjectLookupTapFd s.im x ≠ noIndex →
  x < s.im.swIfIndexToTapIfIndex.length ∧
    tapInjectLookupTapFd s.im x < s.im.tapFdToSwIfIndex.length

theorem connect_done (s : State) (hw : Nat) {o : Outcome} (ho : o.succeeds = true) :
    ∃ fd ifindex, o.openTun = some fd ∧ (tapInjectTapConnect s hw o).2 = true ∧
      (tapInjectTapConnect s hw o).1.im = tapInjectInsertTap s.im hw fd ifindex := by
  obtain ⟨openTun, tunSetIff, fionbio, socket, siocSifHwaddr, siocGifIndex⟩ := o
  simp only [Outcome.succeeds, Bool.and_eq_true, Option.isSome_iff_exists] at ho
  obtain ⟨⟨⟨⟨⟨⟨fd, rfl⟩, rfl⟩, rfl⟩, ⟨sock, rfl⟩⟩, rfl⟩, ⟨ifindex, rfl⟩⟩ := ho
  exact ⟨fd, ifindex, rfl, rfl, rfl⟩

theorem connect_inside (hs : Inside s) (hw : Nat) {o : Outcome} (ho : o.succeeds = true)
    (hfd : ∀ fd, o.openTun = some fd → fd < noIndex) :
    Inside (tapInjectTapConnect s hw o).1 ∧
      tapInjectLookupTapFd (tapInjectTapConnect s hw o).1.im hw ≠ noIndex ∧
      ∀ x, x ≠ hw → tapInjectLookupTapFd (tapInjectTapConnect s hw o).1.im x =
        tapInjectLookupTapFd s.im x := by
  obtain ⟨fd, ifindex, hopen, _, him⟩ := connect_done s hw ho
  refine ⟨fun x hx => ?_, ?_, fun x hx => ?_⟩
  · rw [him, lookup_insert_sw] at hx
    rw [him, lookup_insert_sw]
    simp only [tapInjectInsertTap, List.length_set]
    by_cases hxh : x = hw
    · rw [if_pos hxh, hxh]
      exact ⟨lt_length_validate, lt_length_validate⟩
    · rw [if_neg hxh] at hx ⊢
      obtain ⟨h1, h2⟩ := hs x hx
      exact ⟨Nat.lt_of_lt_of_le h1 length_le_validate, Nat.lt_of_lt_of_le h2 length_le_validate⟩
  · rw [him, lookup_insert_sw, if_pos rfl]
    exact Nat.ne_of_lt (hfd fd hopen)
  · rw [him, lookup_insert_sw, if_neg hx]

theorem enableLoop_spec (isEthernet : Nat → Bool) {outcome : Nat → Outcome}
    (ho : ∀ k, (outcome k).succeeds = true ∧
      ∀ fd, (outcome k).openTun = some fd → fd < noIndex)
    (hws : List Nat) {k : Nat} {s : State} (hs : Inside s) :
    Inside (enableLoop isEthernet outcome k s hws).1 ∧ ∀ x, isEthernet x = true →
      (tapInjectLookupTapFd (enableLoop isEthernet outcome k s hws).1.im x ≠ noIndex ↔
        x ∈ hws ∨ tapInjectLookupTapFd s.im x ≠ noIndex) := by
  induction hws generalizing k s with
  | nil => exact ⟨hs, fun x _ => by simp [enableLoop]⟩
  | cons hw rest ih =>
    by_cases he : isEthernet hw = true
    · obtain ⟨hin, htap, hother⟩ := connect_inside hs hw (ho k).1 (ho k).2
      obtain ⟨_, _, _, hok, _⟩ := connect_done s hw (ho k).1
      have hrun : enableLoop isEthernet outcome k s (hw :: rest) =
          enableLoop isEthernet outcome (k + 1) (tapInjectTapConnect s hw (outcome k)).1 rest := by
        rw [enableLoop, if_pos he]
        generalize tapInjectTapConnect s hw (outcome k) = r at hok
        obtain ⟨s', ok⟩ := r
        cases hok
        rfl
      obtain ⟨hin', hiff⟩ := ih (k := k + 1) hin
      rw [hrun]
      refine ⟨hin', fun x hx => ?_⟩
      rw [hiff x hx, List.mem_cons]
      by_cases hxh : x = hw
      · rw [hxh]
        exact iff_of_true (Or.inr htap) (Or.inl (Or.inl rfl))
      · rw [hother x hxh]
        simp [hxh]
    · have hrun : enableLoop isEthernet outcome k s (hw :: rest) =
          enableLoop isEthernet outcome k s rest := by
        rw [enableLoop, if_neg he]
      obtain ⟨hin', hiff⟩ := ih (k := k) hs
      rw [hrun]
      refine ⟨hin', fun x hx => ?_⟩
      have hxh : x ≠ hw := by
        rintro rfl
        exact he hx
      rw [hiff x hx, List.mem_cons]
      simp [hxh]

theorem disconnect_inside (hs : Inside s) (hw : Nat) :
    ∃ r, tapInjectTapDisconnect s hw = some r ∧ Inside r.1 ∧
      ∀ x, tapInjectLookupTapFd r.1.im x =
        if x = hw then noIndex else tapInjectLookupTapFd s.im x := by
  by_cases htap : tapInjectLookupTapFd s.im hw = noIndex
  · have hlook : ∀ x, (validate s.im.swIfIndexToTapFd hw noIndex).getD x noIndex =
        tapInjectLookupTapFd s.im x := fun x => getD_validate
    refine ⟨_, by rw [tapInjectTapDisconnect, if_pos htap], fun x hx => ?_, fun x => ?_⟩
    · have hx' : tapInjectLookupTapFd s.im x ≠ noIndex := hlook x ▸ hx
      obtain ⟨h1, h2⟩ := hs x hx'
      exact ⟨h1, Nat.lt_of_le_of_lt (Nat.le_of_eq (hlook x)) h2⟩
    · refine (hlook x).trans ?_
      by_cases hxh : x = hw
      · rw [if_pos hxh, hxh, htap]
      · rw [if_neg hxh]
  · obtain ⟨hif, hsw⟩ := hs hw htap
    have hfd : hw < s.im.swIfIndexToTapFd.length := lt_length_of_getD_ne htap
    refine ⟨(({ s with im := withoutTap s.im hw }).close (tapInjectLookupTapFd s.im hw), true), ?_,
      fun x hx => ?_, fun x => lookup_without_sw hfd⟩
    · rw [tapInjectTapDisconnect, if_neg htap, deleteTap_eq hfd hif hsw]
      rfl
    · have hx' : tapInjectLookupTapFd (withoutTap s.im hw) x ≠ noIndex := hx
      show x < (withoutTap s.im hw).swIfIndexToTapIfIndex.length ∧
        tapInjectLookupTapFd (withoutTap s.im hw) x < (withoutTap s.im hw).tapFdToSwIfIndex.length
      rw [lookup_without_sw hfd] at hx' ⊢
      by_cases hxh : x = hw
      · exact absurd (if_pos hxh) hx'
      · rw [if_neg hxh] at hx' ⊢
        simpa only [withoutTap, List.length_set] using hs x hx'

theorem disableLoop_spec (hws : List Nat) {s : State} (hs : Inside s) :
    ∃ t, disableLoop s hws = some t ∧ Inside t ∧ ∀ x, tapInjectLookupTapFd t.im x ≠ noIndex ↔
      x ∉ hws ∧ tapInjectLookupTapFd s.im x ≠ noIndex := by
  induction hws generalizing s with
  | nil => exact ⟨s, rfl, hs, fun x => by simp⟩
  | cons hw rest ih =>
    obtain ⟨r, hr, hin, hlook⟩ := disconnect_inside hs hw
    obtain ⟨t, ht, hin', hiff⟩ := ih hin
    refine ⟨t, ?_, hin', fun x => ?_⟩
    · rw [disableLoop, hr, Option.bind_eq_bind, Option.bind_some, ht]
    · rw [hiff, hlook, List.mem_cons]
      by_cases hxh : x = hw <;> simp [hxh]

end Loops

/-- The interface has an event that the routine has not seen. -/
def Pending (s : IsrState) (hw : Nat) : Prop :=
  hw ∈ s.interfacesToEnable ∨ hw ∈ s.interfacesToDisable

structure Inv (isEthernet : Nat → Bool) (s : IsrState) : Prop where
  inside : Inside s.taps
  settled : ∀ hw, isEthernet hw = true → ¬ Pending s hw → (HasTap s hw ↔ s.last hw = some true)
  known : ∀ hw, Pending s hw → s.last hw = some true ∧ hw ∈ s.interfacesToEnable ∨
    s.last hw = some false ∧ hw ∈ s.interfacesToDisable

theorem start_inv (configEnabled : Bool) : Inv isEthernet (start configEnabled) := by
  refine ⟨fun x hx => absurd rfl hx, fun hw _ _ => iff_of_false (fun h => h rfl) nofun, fun hw h => ?_⟩
  exact absurd h (by simp [Pending, start])

theorem addDel_queued {s : IsrState} (hc : s.configEnabled ≠ false) (hw : Nat) (add : Bool) :
    (tapInjectInterfaceAddDel s hw add).taps = s.taps ∧
      (tapInjectInterfaceAddDel s hw add).last = Function.update s.last hw (some add) ∧
      ∀ x, (x ∈ (tapInjectInterfaceAddDel s hw add).interfacesToEnable ↔
          x ∈ s.interfacesToEnable ∨ add = true ∧ x = hw) ∧
        (x ∈ (tapInjectInterfaceAddDel s hw add).interfacesToDisable ↔
          x ∈ s.interfacesToDisable ∨ add = false ∧ x = hw) := by
  rw [tapInjectInterfaceAddDel, if_neg hc]
  cases add with
  | true => exact ⟨rfl, rfl, fun x => by simp⟩
  | false => exact ⟨rfl, rfl, fun x => by simp⟩

theorem addDel_inv {s : IsrState} (hs : Inv isEthernet s) (hw : Nat) (add : Bool) :
    Inv isEthernet (tapInjectInterfaceAddDel s hw add) := by
  by_cases hc : s.configEnabled = false
  · rw [tapInjectInterfaceAddDel, if_pos hc]
    exact hs
  · obtain ⟨htaps, hlast, hmem⟩ := addDel_queued hc hw add
    generalize tapInjectInterfaceAddDel s hw add = t at htaps hlast hmem
    refine ⟨htaps ▸ hs.inside, fun x hx hn => ?_, fun x hp => ?_⟩
    · have hxh : x ≠ hw := by
        rintro rfl
        rw [Pending, (hmem x).1, (hmem x).2] at hn
        cases add <;> simp at hn
      rw [HasTap, htaps, hlast, Function.update_of_ne hxh]
      refine hs.settled x hx fun h => hn ?_
      exact h.imp (fun h => (hmem x).1.mpr (Or.inl h)) fun h => (hmem x).2.mpr (Or.inl h)
    · rw [hlast, (hmem x).1, (hmem x).2]
      by_cases hxh : x = hw
      · rw [hxh, Function.update_self]
        cases add <;> simp
      · have hp' : Pending s x := by
          rw [Pending, (hmem x).1, (hmem x).2] at hp
          simpa [Pending, hxh] using hp
        rw [Function.update_of_ne hxh]
        simpa [hxh] using hs.known x hp'

/-- A run of the routine is right just when it finds the deletions last. -/
theorem isr_spec {s : IsrState} (hs : Inv isEthernet s) {outcome : Nat → Outcome}
    (ho : Succeeds s (.isr outcome)) :
    ∃ t, step isEthernet s (.isr outcome) = some t ∧
      (Right isEthernet t ↔ InOrder isEthernet s (.isr outcome)) ∧
      (Right isEthernet t → Inv isEthernet t) := by
  obtain ⟨hin, hen⟩ := enableLoop_spec isEthernet ho s.interfacesToEnable (k := 0) hs.inside
  obtain ⟨taps, hdis, hin', hiff⟩ := disableLoop_spec s.interfacesToDisable hin
  refine ⟨{ s with taps := taps, interfacesToEnable := [], interfacesToDisable := [] }, ?_, ?_,
    fun hr => ⟨hin', fun hw he _ => hr hw he, fun hw hp => ?_⟩⟩
  · simp only [step, tapInjectIfaceIsr, hdis, Option.bind_eq_bind, Option.bind_some, Option.map_some]
  · refine forall₂_congr fun hw he => ?_
    have htap : HasTap { s with taps := taps, interfacesToEnable := [], interfacesToDisable := [] } hw ↔
        hw ∉ s.interfacesToDisable ∧ (hw ∈ s.interfacesToEnable ∨ HasTap s hw) := by
      rw [HasTap, hiff, hen hw he]
      rfl
    rw [htap]
    by_cases hd : hw ∈ s.interfacesToDisable
    · simp [hd]
    · by_cases hp : hw ∈ s.interfacesToEnable
      · have hl : s.last hw = some true := by
          obtain ⟨hl, _⟩ | ⟨_, hd'⟩ := hs.known hw (Or.inl hp)
          · exact hl
          · exact absurd hd' hd
        simp [hd, hp, hl]
      · have hset := hs.settled hw he (by simp [Pending, hd, hp])
        simp [hd, hp, hset]
  · exact absurd hp (by simp [Pending])

/-- After every run of the routine just those Ethernet interfaces have a tap whose
last event was an addition, if and only if no interface is deleted and then added
again between two runs. -/
theorem run_right (isEthernet : Nat → Bool) (configEnabled : Bool) (events : List Event)
    (ho : Meets (step isEthernet) Succeeds (start configEnabled) events) :
    Meets (step isEthernet) (RightAfter isEthernet) (start configEnabled) events ↔
      Meets (step isEthernet) (InOrder isEthernet) (start configEnabled) events := by
  refine meets_congr (P := Inv isEthernet) (fun s e t hs ho hd ht => ?_) (fun s e hs ho => ?_)
    (start_inv configEnabled) ho
  · cases e with
    | addDel hw add =>
      obtain rfl := Option.some.inj ht
      exact addDel_inv hs hw add
    | isr outcome =>
      obtain ⟨u, hu, hr, hinv⟩ := isr_spec hs ho
      rw [hu] at ht
      exact Option.some.inj ht ▸ hinv (hr.mpr hd)
  · cases e with
    | addDel hw add => exact Iff.rfl
    | isr outcome =>
      obtain ⟨u, hu, hr, _⟩ := isr_spec hs ho
      rw [← hr]
      constructor
      · rintro ⟨t, ht, hright⟩
        rw [hu] at ht
        exact Option.some.inj ht ▸ hright
      · exact fun hright => ⟨u, hu, hright⟩

private def addAndRun : List Event := [.addDel 1 true, .isr fun _ => allDone 5 6 9]

private theorem addAndRun_succeeds :
    Meets (step fun _ => true) Succeeds (start true) addAndRun := by
  refine ⟨trivial, fun s hs => ⟨fun k => ⟨rfl, fun fd hfd => ?_⟩, fun _ _ => trivial⟩⟩
  obtain rfl := Option.some.inj hfd
  decide

theorem run_right_sample :
    Meets (step fun _ => true) (RightAfter fun _ => true) (start true) addAndRun := by
  refine (run_right (fun _ => true) true addAndRun addAndRun_succeeds).mpr
    ⟨trivial, fun s hs => ⟨fun hw _ hd => ?_, fun _ _ => trivial⟩⟩
  obtain rfl := Option.some.inj hs
  simp [tapInjectInterfaceAddDel, start] at hd

/-- An interface that is deleted and added again between two runs of the routine
loses its tap. -/
theorem readded_loses_tap : ∃ s t,
    run (step fun _ => true) (start true)
      [.addDel 1 true, .isr fun _ => allDone 5 6 9, .addDel 1 false, .addDel 1 true] = some s ∧
    Succeeds s (.isr fun _ => allDone 7 8 10) ∧
    step (fun _ => true) s (.isr fun _ => allDone 7 8 10) = some t ∧
    t.last 1 = some true ∧ ¬ HasTap t 1 := by
  refine ⟨_, _, rfl, fun k => ⟨rfl, fun fd hfd => ?_⟩, rfl, rfl, ?_⟩
  · obtain rfl := Option.some.inj hfd
    decide
  · unfold HasTap
    decide

end Vppsb.TapIsr
