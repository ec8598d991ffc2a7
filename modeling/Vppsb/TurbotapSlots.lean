import Vppsb.StepRun
import Vppsb.Turbotap

namespace Vppsb.TurbotapSlots

open Vppsb.StepRun Vppsb.Turbotap

structure Sound (s : State) : Prop where
  nodup : s.turbotapInactiveInterfaces.Nodup
  free : ∀ i ∈ s.turbotapInactiveInterfaces, ∃ ti, s.turbotapInterfaces[i]? = some ti ∧
    ti.active = false
  bySw : ∀ sw i, s.turbotapInterfaceIndexBySwIfIndex sw = some i →
    ∃ ti, ActiveAt s.turbotapInterfaces i ti ∧ ti.swIfIndex = sw
  byFd : ∀ fd i, s.turbotapInterfaceIndexByUnixFd fd = some i →
    ∃ ti, ActiveAt s.turbotapInterfaces i ti ∧ ti.unixFd = fd
  found : ∀ i ti, ActiveAt s.turbotapInterfaces i ti →
    s.turbotapInterfaceIndexBySwIfIndex ti.swIfIndex = some i ∧
      s.turbotapInterfaceIndexByUnixFd ti.unixFd = some i
  isOpen : ∀ i ti, ActiveAt s.turbotapInterfaces i ti → ∀ fd ∈ ti.fds, fd ∈ s.openFds
  apart : ∀ i j ti tj, ActiveAt s.turbotapInterfaces i ti → ActiveAt s.turbotapInterfaces j tj →
    i ≠ j → ∀ fd ∈ ti.fds, fd ∉ tj.fds
  nonneg : ∀ fd ∈ s.openFds, 0 ≤ fd
  pending : ∀ i, clibBitmapGet s.pendingReadBitmap i = true → i < s.turbotapInterfaces.length

/-- The slot is in use and found, or it is free and listed once. -/
def TidySlot (s : State) (i : Nat) (ti : Interface) : Prop :=
  (ti.active = true ∧ s.turbotapInterfaceIndexBySwIfIndex ti.swIfIndex = some i ∧
      s.turbotapInterfaceIndexByUnixFd ti.unixFd = some i) ∨
    (ti.active = false ∧ s.turbotapInactiveInterfaces.count i = 1 ∧
      (∀ sw, s.turbotapInterfaceIndexBySwIfIndex sw ≠ some i) ∧
      ∀ fd, s.turbotapInterfaceIndexByUnixFd fd ≠ some i)

def Tidy (s : State) : Prop := ∀ i ti, s.turbotapInterfaces[i]? = some ti → TidySlot s i ti

structure Restored (s t : State) : Prop where
  openFds : t.openFds = s.openFds
  bySw : t.turbotapInterfaceIndexBySwIfIndex = s.turbotapInterfaceIndexBySwIfIndex
  byFd : t.turbotapInterfaceIndexByUnixFd = s.turbotapInterfaceIndexByUnixFd
  slots : t.turbotapInterfaces = s.turbotapInterfaces
  inactive : t.turbotapInactiveInterfaces = s.turbotapInactiveInterfaces

def Correct (s : State) (e : Event) : Prop :=
  (∃ t, step s e = some t ∧ Tidy t) ∧
    match e with
    | .connect o => ∀ err, (vnetTurbotapConnect s o).2 = .error err →
        Restored s (vnetTurbotapConnect s o).1
    | _ => True

def Succeeds (s : State) (o : Outcome) : Prop :=
  s.isDisabled = false ∧ (∀ fd ∈ o.fds, 0 ≤ fd) ∧ o.provisioned = true ∧
    o.registration.isDone = true

/-- No connect fails at the second descriptor, nor after the device is there. -/
def Undoes (s : State) : Event → Prop
  | .connect o => s.isDisabled = false → 0 ≤ o.turbotapFd →
      0 ≤ o.devNetTunFd ∧ (o.provisioned = true → 0 ≤ o.sockFd ∧ o.registration.isDone = true)
  | _ => True

variable {s t : State} {ti tj : Interface} {i j : Nat} {o : Outcome}

theorem start_sound {isDisabled : Bool} {mtuBytes bufferSize : Nat}
    {devices : String → BitVec 16} : Sound (start isDisabled mtuBytes bufferSize devices) := by
  refine ⟨List.nodup_nil, nofun, nofun, nofun, ?_, ?_, ?_, nofun, nofun⟩
  · exact fun i ti h => absurd h.1 nofun
  · exact fun i ti h => absurd h.1 nofun
  · exact fun i j ti tj h => absurd h.1 nofun

section Connect

theorem provision_error (s : State) {new : Ifreq} (hnew : o.tunSetIff = some new)
    (htap : ¬ o.devTapFd < 0) (hp : ¬ o.provisioned = true) :
    ∃ e, provision s o = ((s.setDevice new).opened o.devTapFd, o.devTapFd, .error e) := by
  simp only [provision, hnew, if_neg htap]
  by_cases h1 : o.siocGifIndex = false
  · exact ⟨_, if_pos h1⟩
  by_cases h2 : o.bind = false
  · exact ⟨_, by rw [if_neg h1, if_pos h2]⟩
  by_cases h3 : o.fionbio = false
  · exact ⟨_, by rw [if_neg h1, if_neg h2, if_pos h3]⟩
  by_cases h4 : o.siocSifMtu = false
  · exact ⟨_, by rw [if_neg h1, if_neg h2, if_neg h3, if_pos h4]⟩
  by_cases h5 : o.siocGifFlags = false
  · exact ⟨_, by rw [if_neg h1, if_neg h2, if_neg h3, if_neg h4, if_pos h5]⟩
  by_cases h6 : o.siocSifFlags = false
  · exact ⟨_, by rw [if_neg h1, if_neg h2, if_neg h3, if_neg h4, if_neg h5, if_pos h6]⟩
  rw [Bool.not_eq_false] at h1 h2 h3 h4 h5 h6
  exact absurd (by simp [Outcome.provisioned, hnew, h1, h2, h3, h4, h5, h6, Int.not_lt.mp htap]) hp

theorem provision_cases (s : State) (o : Outcome) : ∃ devices,
    (∀ name, (∀ ifr, o.tunSetIff = some ifr → ifr.name ≠ name) → devices name = s.devices name) ∧
    ((o.provisioned = false ∧ ∃ e fd fds, (∀ g ∈ fds, g = fd) ∧ (fd < 0 ∨ fd ∈ o.fds) ∧
        provision s o = ({ s with devices := devices, openFds := fds ++ s.openFds }, fd, .error e)) ∨
      (o.provisioned = true ∧ 0 ≤ o.devTapFd ∧ ∃ new ifr, o.tunSetIff = some new ∧
        ifr = ⟨new.name, new.flags ||| (iffUp ||| iffRunning)⟩ ∧ devices ifr.name = ifr.flags ∧
        provision s o = ({ s with devices := devices, openFds := o.devTapFd :: s.openFds },
          o.devTapFd, .ok ifr))) := by
  cases hnew : o.tunSetIff with
  | none =>
    refine ⟨s.devices, fun _ _ => rfl, Or.inl ⟨by simp [Outcome.provisioned, hnew], ?_⟩⟩
    exact ⟨.syscallError 2, -1, [], nofun, Or.inl (by decide), by rw [provision, hnew]; rfl⟩
  | some new =>
    have hother : ∀ (d : String → BitVec 16) (w : BitVec 16) (name : String),
        (∀ ifr, some new = some ifr → ifr.name ≠ name) →
        Function.update d new.name w name = d name := by
      intro d w name h
      exact Function.update_of_ne (Ne.symm (h new rfl)) _ _
    by_cases htap : o.devTapFd < 0
    · refine ⟨Function.update s.devices new.name new.flags, hother _ _,
        Or.inl ⟨by simp [Outcome.provisioned, Int.not_le.mpr htap],
          .syscallError 3, o.devTapFd, [], nofun, Or.inl htap, ?_⟩⟩
      simp only [provision, hnew, if_pos htap]
      rfl
    · have hin : o.devTapFd ∈ o.fds := by simp [Outcome.fds]
      by_cases hp : o.provisioned = true
      · refine ⟨Function.update (Function.update s.devices new.name new.flags) new.name
          (new.flags ||| (iffUp ||| iffRunning)), fun name h => ?_, Or.inr ⟨hp, Int.not_lt.mp htap,
            new, _, rfl, rfl, Function.update_self _ _ _, ?_⟩⟩
        · rw [hother _ _ name h, hother _ _ name h]
        · simp only [Outcome.provisioned, Bool.and_eq_true] at hp
          obtain ⟨⟨⟨⟨⟨⟨⟨_, _⟩, h1⟩, h2⟩, h3⟩, h4⟩, h5⟩, h6⟩ := hp
          simp [provision, hnew, if_neg htap, h1, h2, h3, h4, h5, h6, State.setDevice, State.opened]
      · refine ⟨Function.update s.devices new.name new.flags, hother _ _,
          Or.inl ⟨Bool.eq_false_iff.mpr hp, ?_⟩⟩
        obtain ⟨e, he⟩ := provision_error s hnew htap hp
        refine ⟨e, o.devTapFd, [o.devTapFd], fun g hg => List.mem_singleton.mp hg, Or.inr hin, ?_⟩
        rw [he]
        rfl

/-- The slot `i` has been taken from the free ones, or has been added. -/
structure Taken (s : State) (slots : List Interface) (list : List Nat) (i : Nat) : Prop where
  slot : slots[i]? = some (nextSlot s) ∧ (nextSlot s).active = false
  others : ∀ j, j ≠ i → slots[j]? = s.turbotapInterfaces[j]?
  idle : ∀ ti, ¬ ActiveAt s.turbotapInterfaces i ti
  listed : list.Sublist s.turbotapInactiveInterfaces ∧ i ∉ list ∧
    ∀ j ∈ s.turbotapInactiveInterfaces, j = i ∨ j ∈ list
  changed : slots.length = s.turbotapInterfaces.length →
    list ≠ s.turbotapInactiveInterfaces

theorem turbotapGetNewTapif_spec (hnd : s.turbotapInactiveInterfaces.Nodup)
    (hfree : ∀ i ∈ s.turbotapInactiveInterfaces, ∃ ti, s.turbotapInterfaces[i]? = some ti ∧
      ti.active = false) : ∃ slots list i,
    turbotapGetNewTapif s =
      ({ s with turbotapInterfaces := slots, turbotapInactiveInterfaces := list }, i) ∧
    Taken s slots list i := by
  cases hl : s.turbotapInactiveInterfaces.getLast? with
  | none =>
    have hnil := List.getLast?_eq_none_iff.mp hl
    refine ⟨s.turbotapInterfaces ++ [Interface.zero], s.turbotapInactiveInterfaces,
      s.turbotapInterfaces.length, by rw [turbotapGetNewTapif, hl], ?_, fun j hj => ?_,
      fun ti h => ?_, ⟨List.Sublist.refl _, by simp [hnil], by simp [hnil]⟩, fun h => ?_⟩
    · simp [nextSlot, hl, Interface.zero]
    · rw [List.getElem?_append]
      by_cases hlt : j < s.turbotapInterfaces.length
      · rw [if_pos hlt]
      · have hle : s.turbotapInterfaces.length < j :=
          Nat.lt_of_le_of_ne (Nat.not_lt.mp hlt) (Ne.symm hj)
        rw [if_neg hlt, List.getElem?_eq_none (Nat.le_of_lt hle), List.getElem?_eq_none]
        exact Nat.sub_pos_of_lt hle
    · rw [ActiveAt, List.getElem?_eq_none (Nat.le_refl _)] at h
      exact Option.some_ne_none ti h.1.symm
    · exact absurd h (by simp)
  | some k =>
    obtain ⟨list, hlist⟩ := List.getLast?_eq_some_iff.mp hl
    have hmem : k ∈ s.turbotapInactiveInterfaces := by simp [hlist]
    obtain ⟨tk, hk, hidle⟩ := hfree k hmem
    have hlt : k < s.turbotapInterfaces.length := (List.getElem?_eq_some_iff.mp hk).1
    have hdrop : s.turbotapInactiveInterfaces.dropLast = list := by
      rw [hlist, List.dropLast_concat]
    have hnot : k ∉ list := by
      rw [hlist, List.nodup_append] at hnd
      exact fun h => hnd.2.2 k h k (List.mem_singleton.mpr rfl) rfl
    have hnext : nextSlot s = tk := by
      simp only [nextSlot, hl, List.getD_eq_getElem?_getD, hk, Option.getD_some]
    refine ⟨s.turbotapInterfaces, list, k, ?_, by rw [hnext]; exact ⟨hk, hidle⟩, fun _ _ => rfl,
      fun ti h => ?_, ⟨?_, hnot, fun j hj => ?_⟩, fun _ h => ?_⟩
    · rw [turbotapGetNewTapif, hl]
      simp only [hdrop, if_pos hlt]
    · have hsame : tk = ti := Option.some.inj (hk.symm.trans h.1)
      rw [← hsame, ActiveAt, hidle] at h
      exact Bool.false_ne_true h.2
    · rw [hlist]
      exact List.sublist_append_left _ _
    · rw [hlist, List.mem_append, List.mem_singleton] at hj
      exact hj.symm
    · exact absurd (congrArg List.length h) (by simp [hlist])

inductive ConnectEnd (s : State) (o : Outcome) : State × Except ApiError Nat → Prop where
  | undone (e : ApiError) (devices : String → BitVec 16)
      (hdev : ∀ name, (∀ ifr, o.tunSetIff = some ifr → ifr.name ≠ name) →
        devices name = s.devices name)
      (hfail : ¬ Succeeds s o) (hcond : Undoes s (.connect o)) :
      ConnectEnd s o ({ s with devices := devices }, .error e)
  | leaked (e : ApiError) (hfail : ¬ Succeeds s o) (hcond : ¬ Undoes s (.connect o))
      (hfd : 0 ≤ o.turbotapFd) :
      ConnectEnd s o (s.opened o.turbotapFd, .error e)
  | late (e : ApiError) (devices : String → BitVec 16) (slots : List Interface) (list : List Nat)
      (i : Nat) (f : Interface → Interface)
      (hdev : ∀ name, (∀ ifr, o.tunSetIff = some ifr → ifr.name ≠ name) →
        devices name = s.devices name)
      (hfail : ¬ Succeeds s o) (hcond : ¬ Undoes s (.connect o)) (htaken : Taken s slots list i)
      (hf : ∀ ti : Interface, (f ti).active = ti.active) :
      ConnectEnd s o ({ s with
        devices := devices
        turbotapInterfaces := slots.modify i f
        turbotapInactiveInterfaces := list }, .error e)
  | done (devices : String → BitVec 16) (slots : List Interface) (list : List Nat) (i : Nat)
      (f : Interface → Interface) (new : Ifreq) (hw sw : Nat)
      (hdev : ∀ name, (∀ ifr, o.tunSetIff = some ifr → ifr.name ≠ name) →
        devices name = s.devices name)
      (hok : Succeeds s o) (hcond : Undoes s (.connect o)) (htaken : Taken s slots list i)
      (hreg : o.registration = .done hw sw) (hnew : o.tunSetIff = some new)
      (hf : ∀ ti : Interface, (f ti).active = true ∧ (f ti).swIfIndex = sw ∧
        (f ti).fds = [o.devNetTunFd, o.devTapFd, o.turbotapFd, o.sockFd] ∧
        (f ti).isPromisc = ti.isPromisc ∧ (f ti).ifr.name = new.name)
      (hflags : devices new.name = new.flags ||| (iffUp ||| iffRunning)) :
      ConnectEnd s o ({ s with
        devices := devices
        turbotapInterfaces := slots.modify i f
        turbotapInactiveInterfaces := list
        turbotapInterfaceIndexBySwIfIndex :=
          Function.update s.turbotapInterfaceIndexBySwIfIndex sw (some i)
        turbotapInterfaceIndexByUnixFd :=
          Function.update s.turbotapInterfaceIndexByUnixFd o.devNetTunFd (some i)
        openFds := o.sockFd :: o.devTapFd :: o.devNetTunFd :: o.turbotapFd :: s.openFds }, .ok sw)

theorem Sound.not_open (hs : Sound s) (hp : Possible s (.connect o)) {fd : Int}
    (hfd : fd < 0 ∨ fd ∈ o.fds) : fd ∉ s.openFds := by
  intro h
  have hnn := hs.nonneg fd h
  obtain hneg | hmem := hfd
  · exact absurd hneg (Int.not_lt.mpr hnn)
  · exact hp.1 fd hmem hnn h

theorem Sound.closed (hs : Sound s) (hp : Possible s (.connect o)) {a b c d : Int} (xs : List Int)
    (ht : t.openFds = xs ++ s.openFds) (hxs : ∀ fd ∈ xs, fd ∈ [a, b, c, d])
    (hin : ∀ fd ∈ [a, b, c, d], fd < 0 ∨ fd ∈ o.fds) :
    closeAll t a b c d = { t with openFds := s.openFds } := by
  rw [closeAll_eq, ht, filter_opened xs [a, b, c, d] hxs]
  exact fun fd hfd => hs.not_open hp (hin fd hfd)

theorem connect_unprovisioned (hs : Sound s) (hp : Possible s (.connect o))
    (hdis : ¬ s.isDisabled = true) (ha : ¬ o.turbotapFd < 0) (hb : ¬ o.devNetTunFd < 0)
    {devices : String → BitVec 16} {e : ApiError} {fd : Int} {fds : List Int}
    (hdev : ∀ name, (∀ ifr, o.tunSetIff = some ifr → ifr.name ≠ name) →
      devices name = s.devices name)
    (hprov : o.provisioned = false) (hfds : ∀ g ∈ fds, g = fd) (hfd : fd < 0 ∨ fd ∈ o.fds)
    (hrun : provision ((s.opened o.turbotapFd).opened o.devNetTunFd) o =
      ({ (s.opened o.turbotapFd).opened o.devNetTunFd with
          devices := devices
          openFds := fds ++ ((s.opened o.turbotapFd).opened o.devNetTunFd).openFds },
        fd, .error e)) : ConnectEnd s o (vnetTurbotapConnect s o) := by
  rw [vnetTurbotapConnect, if_neg hdis, if_neg ha]
  dsimp only
  rw [if_neg hb, hrun]
  dsimp only
  have hend := ConnectEnd.undone (s := s) (o := o) e devices hdev
    (fun h => absurd h.2.2.1 (by rw [hprov]; decide)) fun _ _ =>
    ⟨Int.not_lt.mp hb, fun h => absurd h (by rw [hprov]; decide)⟩
  rw [hs.closed hp (fds ++ [o.devNetTunFd, o.turbotapFd]) (by simp [State.opened])
    (fun g hg => ?_) fun g hg => ?_]
  · exact hend
  · simp only [List.mem_append, List.mem_cons, List.not_mem_nil, or_false] at hg
    obtain hg | rfl | rfl := hg
    · simp [hfds g hg]
    · simp
    · simp
  · simp only [List.mem_cons, List.not_mem_nil, or_false] at hg
    obtain rfl | rfl | rfl | rfl := hg
    · exact Or.inr (by simp [Outcome.fds])
    · exact hfd
    · exact Or.inr (by simp [Outcome.fds])
    · exact Or.inl (by decide)

/-- A provisioned connect takes a slot, and keeps it if the socket or the
registration fails. -/
theorem connect_provisioned (hs : Sound s) (hp : Possible s (.connect o))
    (hdis : ¬ s.isDisabled = true) (ha : ¬ o.turbotapFd < 0) (hb : ¬ o.devNetTunFd < 0)
    {devices : String → BitVec 16} {new : Ifreq}
    (hdev : ∀ name, (∀ ifr, o.tunSetIff = some ifr → ifr.name ≠ name) →
      devices name = s.devices name)
    (hprov : o.provisioned = true) (hc : 0 ≤ o.devTapFd) (hnew : o.tunSetIff = some new)
    (hflags : devices new.name = new.flags ||| (iffUp ||| iffRunning))
    (hrun : provision ((s.opened o.turbotapFd).opened o.devNetTunFd) o =
      ({ (s.opened o.turbotapFd).opened o.devNetTunFd with
          devices := devices
          openFds := o.devTapFd :: ((s.opened o.turbotapFd).opened o.devNetTunFd).openFds },
        o.devTapFd, .ok ⟨new.name, new.flags ||| (iffUp ||| iffRunning)⟩)) :
    ConnectEnd s o (vnetTurbotapConnect s o) := by
  rw [vnetTurbotapConnect, if_neg hdis, if_neg ha]
  dsimp only
  rw [if_neg hb, hrun]
  obtain ⟨slots, list, i, hget, htaken⟩ := turbotapGetNewTapif_spec
    (s := { s with
      devices := devices
      openFds := o.devTapFd :: o.devNetTunFd :: o.turbotapFd :: s.openFds }) hs.nodup hs.free
  replace htaken : Taken s slots list i :=
    ⟨htaken.slot, htaken.others, htaken.idle, htaken.listed, htaken.changed⟩
  have hlate : ¬ (0 ≤ o.sockFd ∧ o.registration.isDone = true) → ¬ Undoes s (.connect o) :=
    fun hno h => hno ((h (Bool.eq_false_iff.mpr hdis) (Int.not_lt.mp ha)).2 hprov)
  have hin : ∀ g ∈ [o.devNetTunFd, o.devTapFd, o.turbotapFd, o.sockFd], g < 0 ∨ g ∈ o.fds := by
    intro g hg
    refine Or.inr ?_
    simp only [Outcome.fds, List.mem_cons, List.not_mem_nil, or_false] at hg ⊢
    obtain h | h | h | h := hg
    all_goals simp [h]
  dsimp only [State.opened]
  rw [hget]
  dsimp only
  by_cases hd : o.sockFd < 0
  · have hend := ConnectEnd.late (s := s) (o := o) (.syscallError 2) devices slots list i
      (fun ti => { ti with perInterfaceNextIndex := noIndex }) hdev
      (fun h => absurd hd (Int.not_lt.mpr (h.2.1 _ (by simp [Outcome.fds]))))
      (hlate fun h => absurd hd (Int.not_lt.mpr h.1)) htaken fun _ => rfl
    rw [if_pos hd, hs.closed hp [o.devTapFd, o.devNetTunFd, o.turbotapFd] rfl (by simp) hin]
    exact hend
  · rw [if_neg hd]
    cases hreg : o.registration with
    | refused hw =>
      have hend := ConnectEnd.late (s := s) (o := o) .invalidRegistration devices slots list i
        ((fun ti : Interface => { ti with hwIfIndex := hw.getD ti.hwIfIndex }) ∘
          fun ti => { ti with perInterfaceNextIndex := noIndex }) hdev
        (fun h => absurd h.2.2.2 (by rw [hreg]; exact Bool.false_ne_true))
        (hlate fun h => absurd h.2 (by rw [hreg]; exact Bool.false_ne_true)) htaken fun _ => rfl
      dsimp only
      rw [hs.closed hp [o.sockFd, o.devTapFd, o.devNetTunFd, o.turbotapFd] rfl (by simp) hin]
      simp only [State.edit, List.modify_modify_eq]
      exact hend
    | done hw sw =>
      have hfds : ∀ fd ∈ o.fds, 0 ≤ fd := by
        intro fd hfd
        simp only [Outcome.fds, List.mem_cons, List.not_mem_nil, or_false] at hfd
        obtain rfl | rfl | rfl | rfl := hfd
        · exact Int.not_lt.mp ha
        · exact Int.not_lt.mp hb
        · exact hc
        · exact Int.not_lt.mp hd
      have hend := ConnectEnd.done (s := s) (o := o) devices slots list i
        (connected s o ⟨new.name, new.flags ||| (iffUp ||| iffRunning)⟩ hw sw ∘
          fun ti => { ti with perInterfaceNextIndex := noIndex }) new hw sw
        hdev ⟨Bool.eq_false_iff.mpr hdis, hfds, hprov, by rw [hreg]; rfl⟩
        (fun _ _ => ⟨Int.not_lt.mp hb, fun _ => ⟨Int.not_lt.mp hd, by rw [hreg]; rfl⟩⟩)
        htaken hreg hnew (fun ti => ⟨rfl, rfl, rfl, rfl, rfl⟩) hflags
      simp only [State.edit, List.modify_modify_eq]
      exact hend

theorem connect_end (hs : Sound s) (hp : Possible s (.connect o)) :
    ConnectEnd s o (vnetTurbotapConnect s o) := by
  by_cases hdis : s.isDisabled = true
  · rw [vnetTurbotapConnect, if_pos hdis]
    exact .undone _ s.devices (fun _ _ => rfl) (fun h => absurd hdis (by rw [h.1]; decide))
      fun h => absurd hdis (by rw [h]; decide)
  by_cases ha : o.turbotapFd < 0
  · rw [vnetTurbotapConnect, if_neg hdis, if_pos ha]
    exact .undone _ s.devices (fun _ _ => rfl)
      (fun h => absurd ha (Int.not_lt.mpr (h.2.1 _ (by simp [Outcome.fds]))))
      fun _ h => absurd ha (Int.not_lt.mpr h)
  by_cases hb : o.devNetTunFd < 0
  · rw [vnetTurbotapConnect, if_neg hdis, if_neg ha]
    dsimp only
    rw [if_pos hb]
    refine .leaked _ (fun h => ?_) (fun h => ?_) (Int.not_lt.mp ha)
    · exact absurd hb (Int.not_lt.mpr (h.2.1 _ (by simp [Outcome.fds])))
    · exact absurd hb (Int.not_lt.mpr (h (Bool.eq_false_iff.mpr hdis) (Int.not_lt.mp ha)).1)
  obtain ⟨devices, hdev, ⟨hprov, e, fd, fds, hfds, hfd, hrun⟩ |
      ⟨hprov, hc, new, ifr, hnew, hifr, hflags, hrun⟩⟩ :=
    provision_cases ((s.opened o.turbotapFd).opened o.devNetTunFd) o
  · exact connect_unprovisioned hs hp hdis ha hb hdev hprov hfds hfd hrun
  · subst hifr
    exact connect_provisioned hs hp hdis ha hb hdev hprov hc hnew hflags hrun

end Connect

section Keeps

/-- The two interfaces are found under the same keys. -/
def SameKeys (ti tj : Interface) : Prop := ti.swIfIndex = tj.swIfIndex ∧ ti.fds = tj.fds

theorem SameKeys.unixFd (h : SameKeys ti tj) : ti.unixFd = tj.unixFd := (List.cons.inj h.2).1

theorem Sound.of_same (hs : Sound s)
    (hlist : t.turbotapInactiveInterfaces.Sublist s.turbotapInactiveInterfaces)
    (hfree : ∀ i ∈ t.turbotapInactiveInterfaces, ∃ ti, t.turbotapInterfaces[i]? = some ti ∧
      ti.active = false)
    (hsw : t.turbotapInterfaceIndexBySwIfIndex = s.turbotapInterfaceIndexBySwIfIndex)
    (hfd : t.turbotapInterfaceIndexByUnixFd = s.turbotapInterfaceIndexByUnixFd)
    (hto : ∀ i ti, ActiveAt t.turbotapInterfaces i ti →
      ∃ ui, ActiveAt s.turbotapInterfaces i ui ∧ SameKeys ti ui)
    (hfrom : ∀ i ui, ActiveAt s.turbotapInterfaces i ui →
      ∃ ti, ActiveAt t.turbotapInterfaces i ti ∧ SameKeys ti ui)
    (hopen : ∀ fd ∈ s.openFds, fd ∈ t.openFds) (hnn : ∀ fd ∈ t.openFds, 0 ≤ fd)
    (hbits : ∀ i, clibBitmapGet t.pendingReadBitmap i = true → i < t.turbotapInterfaces.length) :
    Sound t := by
  refine ⟨hs.nodup.sublist hlist, hfree, fun sw i h => ?_, fun fd i h => ?_, fun i ti h => ?_,
    fun i ti h fd hin => ?_, fun i j ti tj hi hj hij fd hin => ?_, hnn, hbits⟩
  · obtain ⟨ui, hui, hk⟩ := hs.bySw sw i (hsw ▸ h)
    obtain ⟨ti, hti, hsame⟩ := hfrom i ui hui
    exact ⟨ti, hti, hsame.1.trans hk⟩
  · obtain ⟨ui, hui, hk⟩ := hs.byFd fd i (hfd ▸ h)
    obtain ⟨ti, hti, hsame⟩ := hfrom i ui hui
    exact ⟨ti, hti, hsame.unixFd.trans hk⟩
  · obtain ⟨ui, hui, hsame⟩ := hto i ti h
    rw [hsw, hfd, hsame.1, hsame.unixFd]
    exact hs.found i ui hui
  · obtain ⟨ui, hui, hsame⟩ := hto i ti h
    exact hopen fd (hs.isOpen i ui hui fd (hsame.2 ▸ hin))
  · obtain ⟨ui, hui, hsame⟩ := hto i ti hi
    obtain ⟨uj, huj, hsame'⟩ := hto j tj hj
    rw [hsame'.2]
    exact hs.apart i j ui uj hui huj hij fd (hsame.2 ▸ hin)

theorem Taken.activeAt {slots : List Interface} {list : List Nat} (ht : Taken s slots list i)
    {f : Interface → Interface} (hf : (f (nextSlot s)).active = false) (j : Nat) (tj : Interface) :
    ActiveAt (slots.modify i f) j tj ↔ ActiveAt s.turbotapInterfaces j tj := by
  rw [activeAt_modify ht.slot.1]
  constructor
  · rintro (⟨_, _, h⟩ | ⟨hj, h⟩)
    · exact absurd h (by rw [hf]; exact Bool.false_ne_true)
    · exact ⟨(ht.others j hj).symm.trans h.1, h.2⟩
  · intro h
    have hj : j ≠ i := by
      rintro rfl
      exact ht.idle tj h
    exact Or.inr ⟨hj, (ht.others j hj).trans h.1, h.2⟩

theorem Taken.free {slots : List Interface} {list : List Nat} (ht : Taken s slots list i)
    (hs : Sound s) {f : Interface → Interface} (hj : j ∈ list) :
    ∃ ti, (slots.modify i f)[j]? = some ti ∧ ti.active = false := by
  have hij : i ≠ j := by
    rintro rfl
    exact ht.listed.2.1 hj
  obtain ⟨tj, htj, hidle⟩ := hs.free j (ht.listed.1.subset hj)
  exact ⟨tj, by rw [List.getElem?_modify_ne _ _ hij, ht.others j (Ne.symm hij), htj], hidle⟩

theorem Taken.inside {slots : List Interface} {list : List Nat} (ht : Taken s slots list i)
    {f : Interface → Interface} (hj : j < s.turbotapInterfaces.length) :
    j < (slots.modify i f).length := by
  rw [List.length_modify]
  by_cases hji : j = i
  · rw [hji]
    exact (List.getElem?_eq_some_iff.mp ht.slot.1).1
  · have hget := ht.others j hji
    rw [List.getElem?_eq_getElem hj] at hget
    exact (List.getElem?_eq_some_iff.mp hget).1

theorem update_eq_some {κ : Type} [DecidableEq κ] {m : κ → Option Nat} {a k : κ} :
    Function.update m a (some i) k = some j ↔ (k = a ∧ i = j) ∨ (k ≠ a ∧ m k = some j) := by
  by_cases hk : k = a
  · rw [hk, Function.update_self]
    simp
  · rw [Function.update_of_ne hk]
    simp [hk]

theorem Taken.activeAt_done {slots : List Interface} {list : List Nat} (ht : Taken s slots list i)
    {f : Interface → Interface} (hf : (f (nextSlot s)).active = true) (j : Nat) (tj : Interface) :
    ActiveAt (slots.modify i f) j tj ↔ (j = i ∧ tj = f (nextSlot s)) ∨
      (j ≠ i ∧ ActiveAt s.turbotapInterfaces j tj) := by
  rw [activeAt_modify ht.slot.1]
  refine or_congr ?_ (and_congr_right fun hj => ?_)
  · simp [hf]
  · rw [ActiveAt, ActiveAt, ht.others j hj]

theorem Taken.leads {κ : Type} [DecidableEq κ] {slots : List Interface} {list : List Nat}
    (ht : Taken s slots list i) {f : Interface → Interface} (hf : (f (nextSlot s)).active = true)
    {index : κ → Option Nat} {key : Interface → κ}
    (hindex : ∀ k j, index k = some j → ∃ tj, ActiveAt s.turbotapInterfaces j tj ∧ key tj = k)
    {k₀ : κ} (hkey : key (f (nextSlot s)) = k₀) (k : κ) (j : Nat)
    (h : Function.update index k₀ (some i) k = some j) :
    ∃ tj, ActiveAt (slots.modify i f) j tj ∧ key tj = k := by
  obtain ⟨rfl, rfl⟩ | ⟨_, h⟩ := update_eq_some.mp h
  · exact ⟨_, (ht.activeAt_done hf i _).mpr (Or.inl ⟨rfl, rfl⟩), hkey⟩
  · obtain ⟨tj, hj, hk⟩ := hindex k j h
    refine ⟨tj, (ht.activeAt_done hf j tj).mpr (Or.inr ⟨?_, hj⟩), hk⟩
    rintro rfl
    exact ht.idle tj hj

theorem Sound.of_new (hs : Sound s) {slots : List Interface} {list : List Nat}
    (ht : Taken s slots list i) {f : Interface → Interface} (hon : (f (nextSlot s)).active = true)
    (hslots : t.turbotapInterfaces = slots.modify i f) (hlist : t.turbotapInactiveInterfaces = list)
    (hsw : t.turbotapInterfaceIndexBySwIfIndex =
      Function.update s.turbotapInterfaceIndexBySwIfIndex (f (nextSlot s)).swIfIndex (some i))
    (hfd : t.turbotapInterfaceIndexByUnixFd =
      Function.update s.turbotapInterfaceIndexByUnixFd (f (nextSlot s)).unixFd (some i))
    (hbits : t.pendingReadBitmap = s.pendingReadBitmap)
    (hswNe : ∀ j tj, ActiveAt s.turbotapInterfaces j tj →
      tj.swIfIndex ≠ (f (nextSlot s)).swIfIndex)
    (hnew : ∀ fd ∈ (f (nextSlot s)).fds, 0 ≤ fd ∧ fd ∉ s.openFds)
    (hopen : ∀ fd, fd ∈ t.openFds ↔ fd ∈ (f (nextSlot s)).fds ∨ fd ∈ s.openFds) : Sound t := by
  have hact := ht.activeAt_done hon
  have hfdNe : ∀ j tj, ActiveAt s.turbotapInterfaces j tj →
      tj.unixFd ≠ (f (nextSlot s)).unixFd := by
    intro j tj hj h
    refine (hnew (f (nextSlot s)).unixFd List.mem_cons_self).2 ?_
    exact h ▸ hs.isOpen j tj hj tj.unixFd List.mem_cons_self
  constructor
  case nodup => exact hlist ▸ hs.nodup.sublist ht.listed.1
  case free =>
    rw [hlist, hslots]
    exact fun j hj => ht.free hs hj
  case bySw =>
    rw [hsw, hslots]
    exact ht.leads hon hs.bySw rfl
  case byFd =>
    rw [hfd, hslots]
    exact ht.leads hon hs.byFd rfl
  case found =>
    intro j tj h
    rw [hsw, hfd]
    obtain ⟨rfl, rfl⟩ | ⟨_, hj⟩ := (hact j tj).mp (hslots ▸ h)
    · exact ⟨update_eq_some.mpr (Or.inl ⟨rfl, rfl⟩), update_eq_some.mpr (Or.inl ⟨rfl, rfl⟩)⟩
    · obtain ⟨hbySw, hbyFd⟩ := hs.found j tj hj
      exact ⟨update_eq_some.mpr (Or.inr ⟨hswNe j tj hj, hbySw⟩),
        update_eq_some.mpr (Or.inr ⟨hfdNe j tj hj, hbyFd⟩)⟩
  case isOpen =>
    intro j tj h fd hin
    obtain ⟨rfl, rfl⟩ | ⟨_, hj⟩ := (hact j tj).mp (hslots ▸ h)
    · exact (hopen fd).mpr (Or.inl hin)
    · exact (hopen fd).mpr (Or.inr (hs.isOpen j tj hj fd hin))
  case apart =>
    intro j k tj tk hj hk hjk fd hin
    obtain ⟨rfl, rfl⟩ | ⟨_, hj'⟩ := (hact j tj).mp (hslots ▸ hj)
    · obtain ⟨rfl, _⟩ | ⟨_, hk'⟩ := (hact k tk).mp (hslots ▸ hk)
      · exact absurd rfl hjk
      · exact fun h => (hnew fd hin).2 (hs.isOpen k tk hk' fd h)
    · obtain ⟨rfl, rfl⟩ | ⟨_, hk'⟩ := (hact k tk).mp (hslots ▸ hk)
      · exact fun h => (hnew fd h).2 (hs.isOpen j tj hj' fd hin)
      · exact hs.apart j k tj tk hj' hk' hjk fd hin
  case nonneg =>
    intro fd h
    exact ((hopen fd).mp h).elim (fun h => (hnew fd h).1) (hs.nonneg fd)
  case pending =>
    rw [hbits, hslots]
    exact fun j hj => ht.inside (hs.pending j hj)

theorem ConnectEnd.sound {r : State × Except ApiError Nat} (hs : Sound s)
    (hp : Possible s (.connect o)) (hend : ConnectEnd s o r) : Sound r.1 := by
  cases hend with
  | undone e devices =>
    exact ⟨hs.nodup, hs.free, hs.bySw, hs.byFd, hs.found, hs.isOpen, hs.apart, hs.nonneg,
      hs.pending⟩
  | leaked e _ _ hfd =>
    refine hs.of_same (List.Sublist.refl _) hs.free rfl rfl (fun i ti h => ⟨ti, h, rfl, rfl⟩)
      (fun i ti h => ⟨ti, h, rfl, rfl⟩) (fun fd h => List.mem_cons_of_mem _ h) (fun fd h => ?_)
      hs.pending
    obtain rfl | h := List.mem_cons.mp h
    · exact hfd
    · exact hs.nonneg fd h
  | late e devices slots list i f _ _ _ htaken hf =>
    have hact := htaken.activeAt (f := f) ((hf _).trans htaken.slot.2)
    refine hs.of_same htaken.listed.1 (fun j hj => htaken.free hs hj) rfl rfl (fun j tj h => ?_)
      (fun j tj h => ?_) (fun fd h => h) hs.nonneg fun j hj => htaken.inside (hs.pending j hj)
    · exact ⟨tj, (hact j tj).mp h, rfl, rfl⟩
    · exact ⟨tj, (hact j tj).mpr h, rfl, rfl⟩
  | done devices slots list i f new hw sw _ hok _ htaken hreg _ hf =>
    obtain ⟨hon, hsw, hfs, _⟩ := hf (nextSlot s)
    have hfd : (f (nextSlot s)).unixFd = o.devNetTunFd := (List.cons.inj hfs).1
    have hmem : ∀ fd, fd ∈ (f (nextSlot s)).fds ↔ fd ∈ o.fds := by
      intro fd
      rw [hfs]
      simp only [Outcome.fds, List.mem_cons, List.not_mem_nil, or_false]
      tauto
    refine hs.of_new htaken hon rfl rfl (hsw ▸ rfl) (hfd ▸ rfl) rfl
      (fun j tj hj => hsw ▸ hp.2 hw sw hreg j tj hj) (fun fd hin => ?_) fun fd => ?_
    · have ho := (hmem fd).mp hin
      exact ⟨hok.2.1 fd ho, hs.not_open hp (Or.inr ho)⟩
    · rw [hmem]
      simp only [Outcome.fds, List.mem_cons, List.not_mem_nil, or_false]
      tauto

def idled (ti : Interface) : Interface :=
  { ti with
    active := false
    unixFileIndex := noIndex
    unixFd := -1
    provisionFd := -1
    turbotapFd := -1
    sockFd := -1 }

def deleted (s : State) (i : Nat) (ti : Interface) : State :=
  { s with
    turbotapInterfaces := s.turbotapInterfaces.modify i idled
    turbotapInactiveInterfaces := s.turbotapInactiveInterfaces ++ [i]
    turbotapInterfaceIndexBySwIfIndex :=
      Function.update s.turbotapInterfaceIndexBySwIfIndex ti.swIfIndex none
    turbotapInterfaceIndexByUnixFd :=
      Function.update s.turbotapInterfaceIndexByUnixFd ti.unixFd none
    openFds := s.openFds.filter (fun g => decide (g ∉ ti.fds)) }

theorem vnetTurbotapDelete_spec (hs : Sound s) {sw : Nat}
    (hsw : s.turbotapInterfaceIndexBySwIfIndex sw = some i) :
    ∃ ti, ActiveAt s.turbotapInterfaces i ti ∧ ti.swIfIndex = sw ∧
      vnetTurbotapDelete s sw = some (deleted s i ti, .ok ()) := by
  obtain ⟨ti, hti, hkey⟩ := hs.bySw sw i hsw
  refine ⟨ti, hti, hkey, ?_⟩
  have hclose (u : State) : (((u.close ti.unixFd).close ti.provisionFd).close ti.turbotapFd).close
      ti.sockFd = { u with openFds := u.openFds.filter (fun g => decide (g ∉ ti.fds)) } :=
    closeAll_eq (s := u) ti.unixFd ti.provisionFd ti.turbotapFd ti.sockFd
  simp only [vnetTurbotapDelete, hsw, hti.1, Option.bind_eq_bind, Option.bind_some,
    turbotapTapDisconnect, hclose, State.edit, List.modify_modify_eq]
  rfl

theorem update_none_eq_some {κ : Type} [DecidableEq κ] {m : κ → Option Nat} {a k : κ} :
    Function.update m a none k = some j ↔ k ≠ a ∧ m k = some j := by
  by_cases hk : k = a
  · rw [hk, Function.update_self]
    simp
  · rw [Function.update_of_ne hk]
    simp [hk]

theorem deleted_activeAt (hti : ActiveAt s.turbotapInterfaces i ti) (j : Nat) (tj : Interface) :
    ActiveAt (deleted s i ti).turbotapInterfaces j tj ↔
      j ≠ i ∧ ActiveAt s.turbotapInterfaces j tj := by
  rw [deleted, activeAt_modify hti.1]
  simp [idled]

theorem deleted_leads {κ : Type} [DecidableEq κ] (hti : ActiveAt s.turbotapInterfaces i ti)
    {index : κ → Option Nat} {key : Interface → κ}
    (hindex : ∀ k j, index k = some j → ∃ tj, ActiveAt s.turbotapInterfaces j tj ∧ key tj = k)
    (k : κ) (j : Nat) (h : Function.update index (key ti) none k = some j) :
    ∃ tj, ActiveAt (deleted s i ti).turbotapInterfaces j tj ∧ key tj = k := by
  obtain ⟨hk, h⟩ := update_none_eq_some.mp h
  obtain ⟨tj, hj, hkey⟩ := hindex k j h
  refine ⟨tj, (deleted_activeAt hti j tj).mpr ⟨?_, hj⟩, hkey⟩
  rintro rfl
  exact hk (hkey.symm.trans (congrArg key (Option.some.inj (hj.1.symm.trans hti.1))))

theorem delete_sound (hs : Sound s) (hti : ActiveAt s.turbotapInterfaces i ti) :
    Sound (deleted s i ti) := by
  have hact := deleted_activeAt hti
  have hnot : i ∉ s.turbotapInactiveInterfaces := by
    intro h
    obtain ⟨tk, hk, hidle⟩ := hs.free i h
    rw [← Option.some.inj (hti.1.symm.trans hk), hti.2] at hidle
    exact absurd hidle nofun
  refine ⟨?_, fun j hj => ?_, deleted_leads hti hs.bySw, deleted_leads hti hs.byFd,
    fun j tj h => ?_, fun j tj h fd hin => ?_, fun j k tj tk hj hk hjk => ?_, fun fd h => ?_,
    fun j hj => ?_⟩
  · exact List.nodup_append.mpr ⟨hs.nodup, by simp, fun j hj k hk => by
      rintro rfl
      exact hnot (List.mem_singleton.mp hk ▸ hj)⟩
  · obtain hj | hj := List.mem_append.mp hj
    · obtain ⟨tj, htj, hidle⟩ := hs.free j hj
      have hij : i ≠ j := by
        rintro rfl
        exact hnot hj
      exact ⟨tj, (List.getElem?_modify_ne _ _ hij).trans htj, hidle⟩
    · obtain rfl := List.mem_singleton.mp hj
      refine ⟨idled ti, ?_, rfl⟩
      rw [deleted, List.getElem?_modify_eq, hti.1]
      rfl
  · obtain ⟨hji, hj⟩ := (hact j tj).mp h
    obtain ⟨hbySw, hbyFd⟩ := hs.found j tj hj
    obtain ⟨hbySw', hbyFd'⟩ := hs.found i ti hti
    refine ⟨update_none_eq_some.mpr ⟨fun heq => ?_, hbySw⟩,
      update_none_eq_some.mpr ⟨fun heq => ?_, hbyFd⟩⟩
    · rw [heq] at hbySw
      exact hji (Option.some.inj (hbySw.symm.trans hbySw'))
    · rw [heq] at hbyFd
      exact hji (Option.some.inj (hbyFd.symm.trans hbyFd'))
  · obtain ⟨hji, hj⟩ := (hact j tj).mp h
    exact List.mem_filter.mpr ⟨hs.isOpen j tj hj fd hin,
      decide_eq_true (hs.apart j i tj ti hj hti hji fd hin)⟩
  · exact hs.apart j k tj tk ((hact j tj).mp hj).2 ((hact k tk).mp hk).2 hjk
  · exact hs.nonneg fd (List.mem_filter.mp h).1
  · rw [deleted, List.length_modify]
    exact hs.pending j hj

theorem edit_sound (hs : Sound s) {f : Interface → Interface} (devices : String → BitVec 16)
    (hf : ∀ tj : Interface, (f tj).active = tj.active ∧ SameKeys (f tj) tj) :
    Sound { s with
      devices := devices
      turbotapInterfaces := s.turbotapInterfaces.modify i f } := by
  have hget (j : Nat) : (s.turbotapInterfaces.modify i f)[j]? =
      s.turbotapInterfaces[j]?.map (fun tj => if i = j then f tj else tj) :=
    List.getElem?_modify f i _ j
  have hkeep (j : Nat) (tj : Interface) : (if i = j then f tj else tj).active = tj.active ∧
      SameKeys (if i = j then f tj else tj) tj := by
    split
    · exact hf tj
    · exact ⟨rfl, rfl, rfl⟩
  refine hs.of_same (List.Sublist.refl _) (fun j hj => ?_) rfl rfl (fun j tj h => ?_)
    (fun j tj h => ?_) (fun fd h => h) hs.nonneg fun j hj => ?_
  · obtain ⟨tj, htj, hidle⟩ := hs.free j hj
    exact ⟨_, by rw [hget, htj, Option.map_some], (hkeep j tj).1.trans hidle⟩
  · obtain ⟨hj, hon⟩ := h
    rw [hget] at hj
    obtain ⟨uj, huj, rfl⟩ := Option.map_eq_some_iff.mp hj
    exact ⟨uj, ⟨huj, (hkeep j uj).1.symm.trans hon⟩, (hkeep j uj).2⟩
  · refine ⟨_, ⟨?_, (hkeep j tj).1.trans h.2⟩, (hkeep j tj).2⟩
    rw [hget, h.1, Option.map_some]
  · rw [List.length_modify]
    exact hs.pending j hj

theorem turbotapFlagChange_cases (hi : s.turbotapInterfaces[i]? = some ti) (maxPacketBytes : Nat)
    (flags : EthernetFlags) (getFlags setFlags : Bool) :
    (flags.mtu = true ∧ turbotapFlagChange s i maxPacketBytes flags getFlags setFlags =
      some (s.edit i (fun tj => { tj with
        mtuBytes := maxPacketBytes, mtuBuffers := mtuBuffers maxPacketBytes s.bufferSize }))) ∨
    (flags.mtu = false ∧ (getFlags = false ∨ flags.acceptAll = ti.isPromisc ∨ setFlags = false) ∧
      turbotapFlagChange s i maxPacketBytes flags getFlags setFlags = some s) ∨
    (flags.mtu = false ∧ turbotapFlagChange s i maxPacketBytes flags getFlags setFlags =
      some ((s.setDevice ⟨ti.ifr.name,
        if flags.acceptAll then s.devices ti.ifr.name ||| iffPromisc
        else s.devices ti.ifr.name &&& ~~~iffPromisc⟩).edit i (fun tj =>
          { tj with isPromisc := flags.acceptAll }))) := by
  simp only [turbotapFlagChange, hi, Option.bind_eq_bind, Option.bind_some]
  by_cases hm : flags.mtu = true
  · exact Or.inl ⟨hm, if_pos hm⟩
  rw [if_neg hm]
  replace hm := Bool.eq_false_iff.mpr hm
  by_cases hg : getFlags = false
  · exact Or.inr (Or.inl ⟨hm, Or.inl hg, if_pos hg⟩)
  rw [if_neg hg]
  by_cases hw : flags.acceptAll = ti.isPromisc
  · exact Or.inr (Or.inl ⟨hm, Or.inr (Or.inl hw), if_pos hw⟩)
  rw [if_neg hw]
  by_cases hset : setFlags = false
  · exact Or.inr (Or.inl ⟨hm, Or.inr (Or.inr hset), if_pos hset⟩)
  · exact Or.inr (Or.inr ⟨hm, if_neg hset⟩)

theorem bitmap_sound (hs : Sound s) {bitmap : List Bool}
    (hb : ∀ i, clibBitmapGet bitmap i = true → i < s.turbotapInterfaces.length) :
    Sound { s with pendingReadBitmap := bitmap } :=
  ⟨hs.nodup, hs.free, hs.bySw, hs.byFd, hs.found, hs.isOpen, hs.apart, hs.nonneg, hb⟩

theorem clibBitmapGet_set {bitmap : List Bool} {value : Bool} :
    clibBitmapGet (clibBitmapSet bitmap i value) j =
      if j = i then value else clibBitmapGet bitmap j := by
  rw [clibBitmapGet, clibBitmapSet, GrowVec.getD_set GrowVec.lt_length_validate,
    GrowVec.getD_validate]
  rfl

theorem rxLoop_spec (ready : List Nat) {s : State}
    (hin : ∀ i ∈ ready, i < s.turbotapInterfaces.length) :
    ∃ bitmap calls, rxLoop s ready = some ({ s with pendingReadBitmap := bitmap }, calls) ∧
      (∀ i, clibBitmapGet bitmap i = true ↔
        i ∉ ready ∧ clibBitmapGet s.pendingReadBitmap i = true) ∧
      ∀ ti, ti ∈ calls ↔ ∃ i ∈ ready, s.turbotapInterfaces[i]? = some ti := by
  induction ready generalizing s with
  | nil => exact ⟨s.pendingReadBitmap, [], rfl, fun i => by simp, fun ti => by simp⟩
  | cons i rest ih =>
    obtain ⟨ti, hti⟩ : ∃ ti, s.turbotapInterfaces[i]? = some ti :=
      ⟨_, List.getElem?_eq_getElem (hin i List.mem_cons_self)⟩
    obtain ⟨bitmap, calls, hrun, hbits, hcalls⟩ :=
      ih (s := { s with pendingReadBitmap := clibBitmapSet s.pendingReadBitmap i false })
        fun j hj => hin j (List.mem_cons_of_mem i hj)
    refine ⟨bitmap, ti :: calls, ?_, fun j => ?_, fun tj => ?_⟩
    · simp only [rxLoop, hti, hrun, Option.bind_eq_bind, Option.bind_some]
    · rw [hbits, clibBitmapGet_set, List.mem_cons]
      by_cases hji : j = i <;> simp [hji]
    · rw [List.mem_cons, hcalls, List.exists_mem_cons_iff, hti, Option.some.injEq, eq_comm]

theorem mem_ready : i ∈ (List.range s.pendingReadBitmap.length).filter
    (clibBitmapGet s.pendingReadBitmap) ↔ clibBitmapGet s.pendingReadBitmap i = true := by
  rw [List.mem_filter, List.mem_range]
  refine and_iff_right_of_imp fun h => ?_
  exact GrowVec.lt_length_of_getD_ne (a := false) fun hf => absurd (hf.symm.trans h) nofun

theorem turbotapRx_spec (hs : Sound s) : ∃ bitmap calls,
    turbotapRx s = some ({ s with pendingReadBitmap := bitmap }, calls) ∧
    (∀ i, clibBitmapGet bitmap i = false) ∧
    ∀ ti, ti ∈ calls ↔
      ∃ i, clibBitmapGet s.pendingReadBitmap i = true ∧ s.turbotapInterfaces[i]? = some ti := by
  obtain ⟨bitmap, calls, hrun, hbits, hcalls⟩ := rxLoop_spec
    ((List.range s.pendingReadBitmap.length).filter (clibBitmapGet s.pendingReadBitmap))
    (s := s) fun i hi => hs.pending i (mem_ready.mp hi)
  refine ⟨bitmap, calls, hrun, fun i => Bool.eq_false_iff.mpr fun h => ?_, fun ti => ?_⟩
  · obtain ⟨hn, hp⟩ := (hbits i).mp h
    exact hn (mem_ready.mpr hp)
  · simp only [hcalls, mem_ready]

inductive Stepped (s : State) : Event → State → Prop where
  | connect {o : Outcome} {r : State × Except ApiError Nat} (hend : ConnectEnd s o r) :
      Stepped s (.connect o) r.1
  | unknown {sw : Nat} (hsw : s.turbotapInterfaceIndexBySwIfIndex sw = none) :
      Stepped s (.delete sw) s
  | deleted {sw i : Nat} {ti : Interface} (hsw : s.turbotapInterfaceIndexBySwIfIndex sw = some i)
      (hti : ActiveAt s.turbotapInterfaces i ti) : Stepped s (.delete sw) (deleted s i ti)
  | resized {i maxPacketBytes : Nat} {ti : Interface} {flags : EthernetFlags}
      {getFlags setFlags : Bool} (hti : ActiveAt s.turbotapInterfaces i ti)
      (hmtu : flags.mtu = true) :
      Stepped s (.flagChange i maxPacketBytes flags getFlags setFlags)
        (s.edit i (fun tj => { tj with
          mtuBytes := maxPacketBytes, mtuBuffers := mtuBuffers maxPacketBytes s.bufferSize }))
  | kept {i maxPacketBytes : Nat} {ti : Interface} {flags : EthernetFlags}
      {getFlags setFlags : Bool} (hti : ActiveAt s.turbotapInterfaces i ti)
      (hskip : getFlags = false ∨ flags.acceptAll = ti.isPromisc ∨ setFlags = false) :
      Stepped s (.flagChange i maxPacketBytes flags getFlags setFlags) s
  | switched {i maxPacketBytes : Nat} {ti : Interface} {flags : EthernetFlags}
      {getFlags setFlags : Bool} (hti : ActiveAt s.turbotapInterfaces i ti) :
      Stepped s (.flagChange i maxPacketBytes flags getFlags setFlags)
        ((s.setDevice ⟨ti.ifr.name,
          if flags.acceptAll then s.devices ti.ifr.name ||| iffPromisc
          else s.devices ti.ifr.name &&& ~~~iffPromisc⟩).edit i (fun tj =>
            { tj with isPromisc := flags.acceptAll }))
  | ignored (fd : Int) : Stepped s (.readReady fd) s
  | ready {fd : Int} {i : Nat} {ti : Interface} (hti : ActiveAt s.turbotapInterfaces i ti) :
      Stepped s (.readReady fd)
        { s with pendingReadBitmap := clibBitmapSet s.pendingReadBitmap i true }
  | rx {bitmap : List Bool} (hbits : ∀ i, clibBitmapGet bitmap i = false) :
      Stepped s .rx { s with pendingReadBitmap := bitmap }

/-- No step reaches over the end of a vector. -/
theorem step_spec (hs : Sound s) {e : Event} (hp : Possible s e) :
    ∃ t, step s e = some t ∧ Stepped s e t := by
  cases e with
  | connect o => exact ⟨_, rfl, .connect (connect_end hs hp)⟩
  | delete sw =>
    cases hsw : s.turbotapInterfaceIndexBySwIfIndex sw with
    | none => exact ⟨s, by rw [step, vnetTurbotapDelete, hsw]; rfl, .unknown hsw⟩
    | some i =>
      obtain ⟨ti, hti, _, hrun⟩ := vnetTurbotapDelete_spec hs hsw
      exact ⟨_, by rw [step, hrun]; rfl, .deleted hsw hti⟩
  | flagChange i maxPacketBytes flags getFlags setFlags =>
    obtain ⟨ti, hti⟩ := hp
    obtain ⟨hmtu, hrun⟩ | ⟨_, hskip, hrun⟩ | ⟨_, hrun⟩ := turbotapFlagChange_cases hti.1
      maxPacketBytes flags getFlags setFlags
    · exact ⟨_, hrun, .resized hti hmtu⟩
    · exact ⟨s, hrun, .kept hti hskip⟩
    · exact ⟨_, hrun, .switched hti⟩
  | readReady fd =>
    refine ⟨_, rfl, ?_⟩
    rw [turbotapReadReady]
    cases hfd : s.turbotapInterfaceIndexByUnixFd fd with
    | none => exact .ignored fd
    | some i =>
      obtain ⟨ti, hti, _⟩ := hs.byFd fd i hfd
      exact .ready hti
  | rx =>
    obtain ⟨bitmap, calls, hrun, hbits, _⟩ := turbotapRx_spec hs
    exact ⟨_, by rw [step, hrun]; rfl, .rx hbits⟩

theorem stepped (hs : Sound s) {e : Event} (hp : Possible s e) (ht : step s e = some t) :
    Stepped s e t := by
  obtain ⟨u, hu, hst⟩ := step_spec hs hp
  exact Option.some.inj (hu.symm.trans ht) ▸ hst

theorem Stepped.sound {e : Event} (hst : Stepped s e t) (hs : Sound s) (hp : Possible s e) :
    Sound t := by
  cases hst with
  | connect hend => exact hend.sound hs hp
  | unknown _ => exact hs
  | deleted _ hti => exact delete_sound hs hti
  | resized _ _ => exact edit_sound hs s.devices fun _ => ⟨rfl, rfl, rfl⟩
  | kept _ _ => exact hs
  | switched _ => exact edit_sound hs _ fun _ => ⟨rfl, rfl, rfl⟩
  | ignored _ => exact hs
  | ready hti =>
    refine bitmap_sound hs fun j hj => ?_
    rw [clibBitmapGet_set] at hj
    split at hj
    · next hji => exact hji ▸ (List.getElem?_eq_some_iff.mp hti.1).1
    · exact hs.pending j hj
  | rx hbits =>
    exact bitmap_sound hs fun j hj => absurd ((hbits j).symm.trans hj) Bool.false_ne_true

end Keeps

section Lists

/-- Every slot that is not in use is listed. -/
def Listed (s : State) : Prop := ∀ i ti, s.turbotapInterfaces[i]? = some ti → ti.active = false →
  i ∈ s.turbotapInactiveInterfaces

theorem Sound.tidy_iff (hs : Sound s) : Tidy s ↔ Listed s := by
  constructor
  · intro h i ti hi hidle
    obtain ⟨hon, _⟩ | ⟨_, hcount, _⟩ := h i ti hi
    · exact absurd (hidle.symm.trans hon) nofun
    · exact List.count_pos_iff.mp (by rw [hcount]; exact Nat.one_pos)
  · intro h i ti hi
    cases hact : ti.active with
    | true => exact Or.inl ⟨hact, hs.found i ti ⟨hi, hact⟩⟩
    | false =>
      have hno : ∀ tj, ActiveAt s.turbotapInterfaces i tj → False := by
        intro tj hj
        rw [← Option.some.inj (hi.symm.trans hj.1), ActiveAt, hact] at hj
        exact absurd hj.2 nofun
      refine Or.inr ⟨hact, by rw [hs.nodup.count, if_pos (h i ti hi hact)],
        fun sw hk => ?_,
        fun fd hk => ?_⟩
      · obtain ⟨tj, hj, _⟩ := hs.bySw sw i hk
        exact hno tj hj
      · obtain ⟨tj, hj, _⟩ := hs.byFd fd i hk
        exact hno tj hj

theorem Listed.edit (hl : Listed s) {f : Interface → Interface} (devices : String → BitVec 16)
    (hf : ∀ tj : Interface, (f tj).active = tj.active) :
    Listed { s with
      devices := devices
      turbotapInterfaces := s.turbotapInterfaces.modify i f } := by
  intro j tj hj hidle
  have hget : (s.turbotapInterfaces.modify i f)[j]? =
      s.turbotapInterfaces[j]?.map (fun tj => if i = j then f tj else tj) :=
    List.getElem?_modify f i _ j
  obtain ⟨uj, huj, rfl⟩ := Option.map_eq_some_iff.mp (hget.symm.trans hj)
  refine hl j uj huj ?_
  by_cases hij : i = j
  · rw [if_pos hij, hf] at hidle
    exact hidle
  · rw [if_neg hij] at hidle
    exact hidle

theorem Listed.delete (hl : Listed s) :
    Listed (deleted s i ti) := by
  intro j tj hj hidle
  refine List.mem_append.mpr ?_
  by_cases hij : i = j
  · exact Or.inr (List.mem_singleton.mpr hij.symm)
  · rw [deleted, List.getElem?_modify_ne _ _ hij] at hj
    exact Or.inl (hl j tj hj hidle)

/-- A failing connect restores the state just when it is undone. -/
theorem ConnectEnd.correct {r : State × Except ApiError Nat} (hend : ConnectEnd s o r)
    (hl : Listed s) : (Undoes s (.connect o) → Listed r.1) ∧
      ((∀ err, r.2 = .error err → Restored s r.1) ↔ Undoes s (.connect o)) := by
  cases hend with
  | undone e devices _ _ hcond =>
    exact ⟨fun _ => hl, iff_of_true (fun _ _ => ⟨rfl, rfl, rfl, rfl, rfl⟩) hcond⟩
  | leaked e _ hcond =>
    refine ⟨fun h => absurd h hcond, iff_of_false (fun h => ?_) hcond⟩
    exact absurd (congrArg List.length (h e rfl).openFds) (by simp [State.opened])
  | late e devices slots list i f _ _ hcond htaken =>
    refine ⟨fun h => absurd h hcond, iff_of_false (fun h => ?_) hcond⟩
    obtain ⟨_, _, _, hslots, hlist⟩ := h e rfl
    refine htaken.changed ?_ hlist
    rw [← hslots, List.length_modify]
  | done devices slots list i f new hw sw _ _ hcond htaken _ _ hf =>
    refine ⟨fun _ j tj hj hidle => ?_, iff_of_true (fun _ => nofun) hcond⟩
    have hij : i ≠ j := by
      rintro rfl
      rw [List.getElem?_modify_eq, htaken.slot.1] at hj
      obtain rfl := Option.some.inj hj
      exact absurd (hidle.symm.trans (hf _).1) nofun
    rw [List.getElem?_modify_ne _ _ hij, htaken.others j (Ne.symm hij)] at hj
    exact (htaken.listed.2.2 j (hl j tj hj hidle)).resolve_left (Ne.symm hij)

theorem Stepped.listed {e : Event} (hst : Stepped s e t) (hl : Listed s) (hu : Undoes s e) :
    Listed t := by
  cases hst with
  | connect hend => exact (hend.correct hl).1 hu
  | unknown _ => exact hl
  | deleted _ _ => exact hl.delete
  | resized _ _ => exact hl.edit s.devices fun _ => rfl
  | kept _ _ => exact hl
  | switched _ => exact hl.edit _ fun _ => rfl
  | ignored _ => exact hl
  | ready _ => exact hl
  | rx _ => exact hl

theorem correct_iff (hs : Sound s) (hl : Listed s) {e : Event} (hp : Possible s e) :
    Correct s e ↔ Undoes s e := by
  obtain ⟨t, ht, hst⟩ := step_spec hs hp
  have htidy (hu : Undoes s e) : ∃ t, step s e = some t ∧ Tidy t :=
    ⟨t, ht, (hst.sound hs hp).tidy_iff.mpr (hst.listed hl hu)⟩
  cases e with
  | connect o =>
    have hiff := ((connect_end hs hp).correct hl).2
    exact ⟨fun h => hiff.mp h.2, fun hu => ⟨htidy hu, hiff.mpr hu⟩⟩
  | delete sw => exact iff_of_true ⟨htidy trivial, trivial⟩ trivial
  | flagChange i maxPacketBytes flags getFlags setFlags =>
    exact iff_of_true ⟨htidy trivial, trivial⟩ trivial
  | readReady fd => exact iff_of_true ⟨htidy trivial, trivial⟩ trivial
  | rx => exact iff_of_true ⟨htidy trivial, trivial⟩ trivial

end Lists

/-- In every state of a run each slot is either in use and found or free and
listed once, and every failing connect is undone, if and only if no connect
fails at `/dev/net/tun`, nor after a slot has been taken. -/
theorem run_slots (isDisabled : Bool) (mtuBytes bufferSize : Nat) (devices : String → BitVec 16)
    (events : List Event)
    (hp : Meets step Possible (start isDisabled mtuBytes bufferSize devices) events) :
    Meets step Correct (start isDisabled mtuBytes bufferSize devices) events ↔
      Meets step Undoes (start isDisabled mtuBytes bufferSize devices) events := by
  refine meets_congr (P := fun s => Sound s ∧ Listed s) (fun s e t hs hp hu ht => ?_)
    (fun s e hs hp => correct_iff hs.1 hs.2 hp) ⟨start_sound, fun i ti h => nomatch h⟩ hp
  have hst := stepped hs.1 hp ht
  exact ⟨hst.sound hs.1 hp, hst.listed hs.2 hu⟩

def allDone (fd : Int) (name : String) (hwIfIndex swIfIndex : Nat) : Outcome :=
  ⟨fd, fd + 1, some ⟨name, 0⟩, fd + 2, true, true, true, true, true, true, fd + 3,
    .done hwIfIndex swIfIndex, 0⟩

private def startOf : State := start false 1500 2048 fun _ => 0

private def refusedName : Outcome :=
  { allDone 3 "tap0" 7 9 with tunSetIff := none, registration := .refused none }

private def connectDeleteRefuse : List Event :=
  [.connect (allDone 3 "tap0" 7 9), .delete 9, .connect refusedName]

/-- A slot that is used and freed, and a connect that fails early. -/
theorem run_slots_sample : Meets step Correct startOf connectDeleteRefuse := by
  refine (run_slots false 1500 2048 (fun _ => 0) connectDeleteRefuse ?_).mpr ?_
  · refine ⟨⟨by decide, fun hw sw _ i ti h => nomatch h⟩, fun s hs => ⟨trivial, fun t ht =>
      ⟨⟨?_, fun hw sw h => nomatch h⟩, fun _ _ => trivial⟩⟩⟩
    obtain rfl := Option.some.inj hs
    obtain rfl := Option.some.inj ht
    decide
  · exact ⟨fun _ _ => by decide, fun s hs => ⟨trivial, fun t ht => ⟨fun _ _ => by decide,
      fun _ _ => trivial⟩⟩⟩

/-- A connect that fails after the slot has been added leaves it unlisted, and one
that fails at the second descriptor leaves the first one open. -/
theorem failed_connect_not_undone :
    Possible startOf (.connect { allDone 3 "tap0" 7 9 with sockFd := -1 }) ∧
    (∃ t, run step startOf [.connect { allDone 3 "tap0" 7 9 with sockFd := -1 }] = some t ∧
      t.turbotapInterfaces.length = 1 ∧ ¬ Tidy t) ∧
    Possible startOf (.connect { allDone 3 "tap0" 7 9 with devNetTunFd := -1 }) ∧
    ∃ t, run step startOf [.connect { allDone 3 "tap0" 7 9 with devNetTunFd := -1 }] = some t ∧
      (vnetTurbotapConnect startOf { allDone 3 "tap0" 7 9 with devNetTunFd := -1 }).2 =
        .error (.syscallError 1) ∧ t.openFds = [3] := by
  refine ⟨⟨by decide, fun hw sw _ i ti h => nomatch h⟩, ⟨_, rfl, rfl, fun h => ?_⟩,
    ⟨by decide, fun hw sw _ i ti h => nomatch h⟩, _, rfl, rfl, rfl⟩
  obtain ⟨hon, _⟩ | ⟨_, hcount, _⟩ := h 0 _ rfl
  · exact absurd hon nofun
  · exact absurd hcount (by decide)

end Vppsb.TurbotapSlots
