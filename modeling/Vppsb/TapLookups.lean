import Vppsb.GrowVec
import Vppsb.StepRun
import Mathlib.Logic.Function.Basic

namespace Vppsb.TapLookups

open Vppsb.StepRun Vppsb.GrowVec

def noIndex : Nat := 0xffffffff

/-- The four lookup structures of `tap_inject_main_t`. -/
structure TapInjectMain where
  swIfIndexToTapFd : List Nat
  swIfIndexToTapIfIndex : List Nat
  tapFdToSwIfIndex : List Nat
  tapIfIndexToSwIfIndex : Nat → Option Nat

def tapInjectInsertTap (im : TapInjectMain) (swIfIndex tapFd tapIfIndex : Nat) : TapInjectMain :=
  { swIfIndexToTapFd := (validate im.swIfIndexToTapFd swIfIndex noIndex).set swIfIndex tapFd
    swIfIndexToTapIfIndex :=
      (validate im.swIfIndexToTapIfIndex swIfIndex noIndex).set swIfIndex tapIfIndex
    tapFdToSwIfIndex := (validate im.tapFdToSwIfIndex tapFd noIndex).set tapFd swIfIndex
    tapIfIndexToSwIfIndex := Function.update im.tapIfIndexToSwIfIndex tapIfIndex (some swIfIndex) }

def tapInjectDeleteTap (im : TapInjectMain) (swIfIndex : Nat) : Option TapInjectMain := do
  let tapFd ← im.swIfIndexToTapFd[swIfIndex]?
  let tapIfIndex ← im.swIfIndexToTapIfIndex[swIfIndex]?
  if tapFd < im.tapFdToSwIfIndex.length then
    some
      { swIfIndexToTapIfIndex := im.swIfIndexToTapIfIndex.set swIfIndex noIndex
        swIfIndexToTapFd := im.swIfIndexToTapFd.set swIfIndex noIndex
        tapFdToSwIfIndex := im.tapFdToSwIfIndex.set tapFd noIndex
        tapIfIndexToSwIfIndex := Function.update im.tapIfIndexToSwIfIndex tapIfIndex none }
  else none

def tapInjectLookupTapFd (im : TapInjectMain) (swIfIndex : Nat) : Nat :=
  im.swIfIndexToTapFd.getD swIfIndex noIndex

def tapInjectLookupSwIfIndexFromTapFd (im : TapInjectMain) (tapFd : Nat) : Nat :=
  im.tapFdToSwIfIndex.getD tapFd noIndex

def tapInjectLookupSwIfIndexFromTapIfIndex (im : TapInjectMain) (tapIfIndex : Nat) : Nat :=
  (im.tapIfIndexToSwIfIndex tapIfIndex).getD noIndex

structure State where
  im : TapInjectMain
  openFds : List Nat

/-- How the system calls of `tap_inject_tap_connect` end. -/
structure Outcome where
  openTun : Option Nat
  tunSetIff : Bool
  fionbio : Bool
  socket : Option Nat
  siocSifHwaddr : Bool
  siocGifIndex : Option Nat

def State.opened (s : State) (fd : Nat) : State := { s with openFds := fd :: s.openFds }

def State.close (s : State) (fd : Nat) : State :=
  { s with openFds := s.openFds.filter (fun g => decide (g ≠ fd)) }

/-- The state after the call, and whether the call succeeds. The registration of
the descriptor with the file poller is left out. -/
def tapInjectTapConnect (s : State) (swIfIndex : Nat) (o : Outcome) : State × Bool :=
  match o.openTun with
  | none => (s, false)
  | some tapFd =>
    let s := s.opened tapFd
    if o.tunSetIff = false then (s.close tapFd, false)
    else if o.fionbio = false then (s.close tapFd, false)
    else
      match o.socket with
      | none => (s.close tapFd, false)
      | some fd =>
        let s := s.opened fd
        if o.siocSifHwaddr = false then ((s.close tapFd).close fd, false)
        else
          match o.siocGifIndex with
          | none => ((s.close tapFd).close fd, false)
          | some ifindex =>
            let s := s.close fd
            ({ s with im := tapInjectInsertTap s.im swIfIndex tapFd ifindex }, true)

def tapInjectTapDisconnect (s : State) (swIfIndex : Nat) : Option (State × Bool) :=
  let tapFd := tapInjectLookupTapFd s.im swIfIndex
  if tapFd = noIndex then
    some ({ s with im.swIfIndexToTapFd := validate s.im.swIfIndexToTapFd swIfIndex noIndex }, false)
  else do
    let im ← tapInjectDeleteTap s.im swIfIndex
    some (({ s with im := im }).close tapFd, true)

inductive Act where
  | connect (swIfIndex : Nat) (outcome : Outcome)
  | disconnect (swIfIndex : Nat)

def step (s : State) : Act → Option State
  | .connect swIfIndex o => some (tapInjectTapConnect s swIfIndex o).1
  | .disconnect swIfIndex => (tapInjectTapDisconnect s swIfIndex).map (fun r => r.1)

def start : State := ⟨⟨[], [], [], fun _ => none⟩, []⟩

def Outcome.succeeds (o : Outcome) : Bool :=
  o.openTun.isSome && o.tunSetIff && o.fionbio && o.socket.isSome && o.siocSifHwaddr &&
    o.siocGifIndex.isSome

/-- The interface exists, and the kernel hands out descriptors that are not in use. -/
def Kernel (s : State) : Act → Prop
  | .connect sw o => sw ≠ noIndex ∧
      (∀ fd, o.openTun = some fd → fd ∉ s.openFds ∧ fd < noIndex) ∧
      ∀ fd, o.socket = some fd → fd ∉ s.openFds ∧ o.openTun ≠ some fd
  | .disconnect sw => sw ≠ noIndex

/-- No tap is connected to an interface that has one. -/
def Free (s : State) : Act → Prop
  | .connect sw o => o.succeeds = true → tapInjectLookupTapFd s.im sw = noIndex
  | .disconnect _ => True

/-- The interface index of the tap that is recorded for an interface. -/
def ifIndexOf (im : TapInjectMain) (sw : Nat) : Nat := im.swIfIndexToTapIfIndex.getD sw noIndex

/-- The lookups tell the same story. -/
structure Agree (s : State) : Prop where
  fds : ∀ sw fd, sw ≠ noIndex → fd ≠ noIndex →
    (tapInjectLookupTapFd s.im sw = fd ↔ tapInjectLookupSwIfIndexFromTapFd s.im fd = sw)
  ifindexes : ∀ sw i, sw ≠ noIndex → tapInjectLookupSwIfIndexFromTapIfIndex s.im i = sw →
    ifIndexOf s.im sw = i
  one : ∀ sw, sw ≠ noIndex →
    (∀ fd fd', fd ≠ noIndex → fd' ≠ noIndex →
      tapInjectLookupSwIfIndexFromTapFd s.im fd = sw →
      tapInjectLookupSwIfIndexFromTapFd s.im fd' = sw → fd = fd') ∧
    ∀ i i', tapInjectLookupSwIfIndexFromTapIfIndex s.im i = sw →
      tapInjectLookupSwIfIndexFromTapIfIndex s.im i' = sw → i = i'
  recorded : ∀ fd ∈ s.openFds, ∃ sw, sw ≠ noIndex ∧ tapInjectLookupTapFd s.im sw = fd

def Gone (s : State) (sw : Nat) : Prop :=
  (∀ fd, fd ≠ noIndex → tapInjectLookupSwIfIndexFromTapFd s.im fd ≠ sw) ∧
    ∀ i, tapInjectLookupSwIfIndexFromTapIfIndex s.im i ≠ sw

def Correct (t : State) : Act → Prop
  | .connect _ _ => Agree t
  | .disconnect sw => Agree t ∧ Gone t sw

variable {s t : State} {im : TapInjectMain} {sw fd ifindex x : Nat}

section Lookups

theorem lookup_insert_sw : tapInjectLookupTapFd (tapInjectInsertTap im sw fd ifindex) x =
    if x = sw then fd else tapInjectLookupTapFd im x := by
  rw [tapInjectLookupTapFd, tapInjectInsertTap, getD_set lt_length_validate, getD_validate]
  rfl

theorem lookup_insert_fd :
    tapInjectLookupSwIfIndexFromTapFd (tapInjectInsertTap im sw fd ifindex) x =
      if x = fd then sw else tapInjectLookupSwIfIndexFromTapFd im x := by
  rw [tapInjectLookupSwIfIndexFromTapFd, tapInjectInsertTap, getD_set lt_length_validate,
    getD_validate]
  rfl

theorem lookup_insert_ifindex :
    tapInjectLookupSwIfIndexFromTapIfIndex (tapInjectInsertTap im sw fd ifindex) x =
      if x = ifindex then sw else tapInjectLookupSwIfIndexFromTapIfIndex im x := by
  rw [tapInjectLookupSwIfIndexFromTapIfIndex, tapInjectInsertTap]
  by_cases hx : x = ifindex
  · subst hx
    simp
  · simp [hx, tapInjectLookupSwIfIndexFromTapIfIndex]

theorem ifIndexOf_insert : ifIndexOf (tapInjectInsertTap im sw fd ifindex) x =
    if x = sw then ifindex else ifIndexOf im x := by
  rw [ifIndexOf, tapInjectInsertTap, getD_set lt_length_validate, getD_validate]
  rfl

def withoutTap (im : TapInjectMain) (sw : Nat) : TapInjectMain :=
  { swIfIndexToTapIfIndex := im.swIfIndexToTapIfIndex.set sw noIndex
    swIfIndexToTapFd := im.swIfIndexToTapFd.set sw noIndex
    tapFdToSwIfIndex := im.tapFdToSwIfIndex.set (tapInjectLookupTapFd im sw) noIndex
    tapIfIndexToSwIfIndex := Function.update im.tapIfIndexToSwIfIndex (ifIndexOf im sw) none }

theorem deleteTap_eq (hfd : sw < im.swIfIndexToTapFd.length)
    (hif : sw < im.swIfIndexToTapIfIndex.length)
    (hsw : tapInjectLookupTapFd im sw < im.tapFdToSwIfIndex.length) :
    tapInjectDeleteTap im sw = some (withoutTap im sw) := by
  simp only [tapInjectDeleteTap, getElem?_of_lt (a := noIndex) hfd,
    getElem?_of_lt (a := noIndex) hif, Option.bind_eq_bind, Option.bind_some]
  exact if_pos hsw

theorem lookup_without_sw (hfd : sw < im.swIfIndexToTapFd.length) :
    tapInjectLookupTapFd (withoutTap im sw) x =
      if x = sw then noIndex else tapInjectLookupTapFd im x := by
  rw [tapInjectLookupTapFd, withoutTap, getD_set hfd]
  rfl

theorem lookup_without_fd (hsw : tapInjectLookupTapFd im sw < im.tapFdToSwIfIndex.length) :
    tapInjectLookupSwIfIndexFromTapFd (withoutTap im sw) x =
      if x = tapInjectLookupTapFd im sw then noIndex
      else tapInjectLookupSwIfIndexFromTapFd im x := by
  rw [tapInjectLookupSwIfIndexFromTapFd, withoutTap, getD_set hsw]
  rfl

theorem lookup_without_ifindex :
    tapInjectLookupSwIfIndexFromTapIfIndex (withoutTap im sw) x =
      if x = ifIndexOf im sw then noIndex
      else tapInjectLookupSwIfIndexFromTapIfIndex im x := by
  rw [tapInjectLookupSwIfIndexFromTapIfIndex, withoutTap]
  dsimp only
  by_cases hx : x = ifIndexOf im sw
  · rw [if_pos hx, hx, Function.update_self]
    rfl
  · rw [if_neg hx, Function.update_of_ne hx]
    rfl

theorem ifIndexOf_without (hif : sw < im.swIfIndexToTapIfIndex.length) :
    ifIndexOf (withoutTap im sw) x = if x = sw then noIndex else ifIndexOf im x := by
  rw [ifIndexOf, withoutTap, getD_set hif]
  rfl

end Lookups

structure Sound (s : State) : Prop where
  fds : ∀ sw fd, sw ≠ noIndex → fd ≠ noIndex →
    (tapInjectLookupTapFd s.im sw = fd ↔ tapInjectLookupSwIfIndexFromTapFd s.im fd = sw)
  ifindexes : ∀ sw i, sw ≠ noIndex → tapInjectLookupSwIfIndexFromTapIfIndex s.im i = sw →
    ifIndexOf s.im sw = i ∧ tapInjectLookupTapFd s.im sw ≠ noIndex
  inside : ∀ sw, tapInjectLookupTapFd s.im sw ≠ noIndex → sw < s.im.swIfIndexToTapIfIndex.length
  recorded : ∀ fd, fd ∈ s.openFds ↔ fd ≠ noIndex ∧
    ∃ sw, sw ≠ noIndex ∧ tapInjectLookupTapFd s.im sw = fd

theorem Sound.agree (hs : Sound s) : Agree s := by
  refine ⟨hs.fds, fun sw i hsw h => (hs.ifindexes sw i hsw h).1, fun sw hsw => ⟨?_, ?_⟩,
    fun fd hfd => ((hs.recorded fd).mp hfd).2⟩
  · intro fd fd' hfd hfd' h h'
    rw [← (hs.fds sw fd hsw hfd).mpr h, (hs.fds sw fd' hsw hfd').mpr h']
  · intro i i' h h'
    rw [← (hs.ifindexes sw i hsw h).1, (hs.ifindexes sw i' hsw h').1]

theorem start_sound : Sound start := by
  refine ⟨fun sw fd hsw hfd => iff_of_false (Ne.symm hfd) (Ne.symm hsw),
    fun sw i hsw h => absurd h (Ne.symm hsw), fun sw h => absurd rfl h,
    fun fd => iff_of_false List.not_mem_nil ?_⟩
  rintro ⟨hfd, sw, _, h⟩
  exact hfd h.symm

theorem Sound.gone (hs : Sound s) (hsw : sw ≠ noIndex)
    (hno : tapInjectLookupTapFd s.im sw = noIndex) : Gone s sw := by
  refine ⟨fun fd hfd h => ?_, fun i h => (hs.ifindexes sw i hsw h).2 hno⟩
  rw [← hs.fds sw fd hsw hfd, hno] at h
  exact hfd h.symm

theorem Sound.unused (hs : Sound s) (hfd : fd ≠ noIndex) (hnew : fd ∉ s.openFds)
    (hx : x ≠ noIndex) : tapInjectLookupTapFd s.im x ≠ fd :=
  fun h => hnew ((hs.recorded fd).mpr ⟨hfd, x, hx, h⟩)

theorem Sound.insert_fds (hs : Sound s) (hsw : sw ≠ noIndex) (hfd : fd ≠ noIndex)
    (hnew : fd ∉ s.openFds) (hfree : tapInjectLookupTapFd s.im sw = noIndex) {g : Nat}
    (hx : x ≠ noIndex) (hg : g ≠ noIndex) :
    tapInjectLookupTapFd (tapInjectInsertTap s.im sw fd ifindex) x = g ↔
      tapInjectLookupSwIfIndexFromTapFd (tapInjectInsertTap s.im sw fd ifindex) g = x := by
  rw [lookup_insert_sw, lookup_insert_fd]
  by_cases hxs : x = sw <;> by_cases hgf : g = fd
  · simp [hxs, hgf]
  · rw [if_pos hxs, if_neg hgf, hxs]
    exact iff_of_false (Ne.symm hgf) ((hs.gone hsw hfree).1 g hg)
  · rw [if_neg hxs, if_pos hgf, hgf]
    exact iff_of_false (hs.unused hfd hnew hx) (Ne.symm hxs)
  · rw [if_neg hxs, if_neg hgf]
    exact hs.fds x g hx hg

theorem Sound.insert_ifindexes (hs : Sound s) (hsw : sw ≠ noIndex) (hfd : fd ≠ noIndex)
    (hfree : tapInjectLookupTapFd s.im sw = noIndex) {i : Nat} (hx : x ≠ noIndex)
    (h : tapInjectLookupSwIfIndexFromTapIfIndex (tapInjectInsertTap s.im sw fd ifindex) i = x) :
    ifIndexOf (tapInjectInsertTap s.im sw fd ifindex) x = i ∧
      tapInjectLookupTapFd (tapInjectInsertTap s.im sw fd ifindex) x ≠ noIndex := by
  rw [lookup_insert_ifindex] at h
  rw [ifIndexOf_insert, lookup_insert_sw]
  by_cases hi : i = ifindex
  · rw [if_pos hi] at h
    rw [if_pos h.symm, if_pos h.symm]
    exact ⟨hi.symm, hfd⟩
  · rw [if_neg hi] at h
    have hxs : x ≠ sw := by
      rintro rfl
      exact (hs.gone hsw hfree).2 i h
    rw [if_neg hxs, if_neg hxs]
    exact hs.ifindexes x i hx h

theorem Sound.insert_inside (hs : Sound s)
    (h : tapInjectLookupTapFd (tapInjectInsertTap s.im sw fd ifindex) x ≠ noIndex) :
    x < (tapInjectInsertTap s.im sw fd ifindex).swIfIndexToTapIfIndex.length := by
  rw [lookup_insert_sw] at h
  rw [tapInjectInsertTap, List.length_set]
  by_cases hxs : x = sw
  · rw [hxs]
    exact lt_length_validate
  · rw [if_neg hxs] at h
    exact Nat.lt_of_lt_of_le (hs.inside x h) length_le_validate

theorem Sound.insert_recorded (hs : Sound s) (hsw : sw ≠ noIndex) (hfd : fd ≠ noIndex)
    (hfree : tapInjectLookupTapFd s.im sw = noIndex) (g : Nat) :
    g = fd ∨ g ∈ s.openFds ↔ g ≠ noIndex ∧ ∃ x, x ≠ noIndex ∧
      tapInjectLookupTapFd (tapInjectInsertTap s.im sw fd ifindex) x = g := by
  rw [hs.recorded]
  constructor
  · rintro (rfl | ⟨hg, x, hx, h⟩)
    · exact ⟨hfd, sw, hsw, by rw [lookup_insert_sw, if_pos rfl]⟩
    · refine ⟨hg, x, hx, ?_⟩
      rw [lookup_insert_sw, if_neg, h]
      rintro rfl
      exact hg (h.symm.trans hfree)
  · rintro ⟨hg, x, hx, h⟩
    rw [lookup_insert_sw] at h
    by_cases hxs : x = sw
    · rw [if_pos hxs] at h
      exact Or.inl h.symm
    · rw [if_neg hxs] at h
      exact Or.inr ⟨hg, x, hx, h⟩

theorem Sound.insert (hs : Sound s) (hsw : sw ≠ noIndex) (hfd : fd ≠ noIndex)
    (hnew : fd ∉ s.openFds) (hfree : tapInjectLookupTapFd s.im sw = noIndex)
    (him : t.im = tapInjectInsertTap s.im sw fd ifindex)
    (hopen : ∀ g, g ∈ t.openFds ↔ g = fd ∨ g ∈ s.openFds) : Sound t where
  fds := by
    rw [him]
    exact fun x g hx hg => hs.insert_fds hsw hfd hnew hfree hx hg
  ifindexes := by
    rw [him]
    exact fun x i hx h => hs.insert_ifindexes hsw hfd hfree hx h
  inside := by
    rw [him]
    exact fun x h => hs.insert_inside h
  recorded := by
    intro g
    rw [hopen, him]
    exact hs.insert_recorded hsw hfd hfree g

@[simp] theorem mem_close (s : State) (fd g : Nat) :
    g ∈ (s.close fd).openFds ↔ g ∈ s.openFds ∧ g ≠ fd := by
  rw [State.close, List.mem_filter, decide_eq_true_eq]

@[simp] theorem mem_opened (s : State) (fd g : Nat) :
    g ∈ (s.opened fd).openFds ↔ g = fd ∨ g ∈ s.openFds := List.mem_cons

section Delete

variable (hs : Sound s) (hsw : sw ≠ noIndex) (htap : tapInjectLookupTapFd s.im sw ≠ noIndex)

include hs hsw htap

theorem Sound.bounds : sw < s.im.swIfIndexToTapFd.length ∧
    sw < s.im.swIfIndexToTapIfIndex.length ∧
    tapInjectLookupTapFd s.im sw < s.im.tapFdToSwIfIndex.length := by
  refine ⟨lt_length_of_getD_ne htap, hs.inside sw htap, lt_length_of_getD_ne (a := noIndex) ?_⟩
  have hback := (hs.fds sw _ hsw htap).mp rfl
  rw [tapInjectLookupSwIfIndexFromTapFd] at hback
  rwa [hback]

theorem Sound.without_fds {g : Nat} (hx : x ≠ noIndex) (hg : g ≠ noIndex) :
    tapInjectLookupTapFd (withoutTap s.im sw) x = g ↔
      tapInjectLookupSwIfIndexFromTapFd (withoutTap s.im sw) g = x := by
  obtain ⟨hfd, _, hlen⟩ := hs.bounds hsw htap
  have hback := (hs.fds sw _ hsw htap).mp rfl
  rw [lookup_without_sw hfd, lookup_without_fd hlen]
  by_cases hxs : x = sw <;> by_cases hgf : g = tapInjectLookupTapFd s.im sw
  · rw [if_pos hxs, if_pos hgf]
    exact iff_of_false (Ne.symm hg) (Ne.symm hx)
  · rw [if_pos hxs, if_neg hgf, hxs, ← hs.fds sw g hsw hg]
    exact iff_of_false (Ne.symm hg) (Ne.symm hgf)
  · rw [if_neg hxs, if_pos hgf, hgf, hs.fds x _ hx htap, hback]
    exact iff_of_false (Ne.symm hxs) (Ne.symm hx)
  · rw [if_neg hxs, if_neg hgf]
    exact hs.fds x g hx hg

theorem Sound.without_ifindexes {i : Nat} (hx : x ≠ noIndex)
    (h : tapInjectLookupSwIfIndexFromTapIfIndex (withoutTap s.im sw) i = x) :
    ifIndexOf (withoutTap s.im sw) x = i ∧
      tapInjectLookupTapFd (withoutTap s.im sw) x ≠ noIndex := by
  obtain ⟨hfd, hif, _⟩ := hs.bounds hsw htap
  rw [lookup_without_ifindex] at h
  by_cases hi : i = ifIndexOf s.im sw
  · rw [if_pos hi] at h
    exact absurd h.symm hx
  · rw [if_neg hi] at h
    obtain ⟨hidx, hne⟩ := hs.ifindexes x i hx h
    have hxs : x ≠ sw := by
      rintro rfl
      exact hi hidx.symm
    rw [ifIndexOf_without hif, lookup_without_sw hfd, if_neg hxs, if_neg hxs]
    exact ⟨hidx, hne⟩

theorem Sound.without_inside (h : tapInjectLookupTapFd (withoutTap s.im sw) x ≠ noIndex) :
    x < (withoutTap s.im sw).swIfIndexToTapIfIndex.length := by
  obtain ⟨hfd, hif, _⟩ := hs.bounds hsw htap
  rw [lookup_without_sw hfd] at h
  rw [withoutTap, List.length_set]
  by_cases hxs : x = sw
  · rw [hxs]
    exact hif
  · rw [if_neg hxs] at h
    exact hs.inside x h

theorem Sound.without_recorded (g : Nat) :
    g ∈ s.openFds ∧ g ≠ tapInjectLookupTapFd s.im sw ↔ g ≠ noIndex ∧ ∃ x, x ≠ noIndex ∧
      tapInjectLookupTapFd (withoutTap s.im sw) x = g := by
  obtain ⟨hfd, _, _⟩ := hs.bounds hsw htap
  have hback := (hs.fds sw _ hsw htap).mp rfl
  rw [hs.recorded g]
  simp only [lookup_without_sw hfd]
  constructor
  · rintro ⟨⟨hg, x, hx, h⟩, hne⟩
    refine ⟨hg, x, hx, ?_⟩
    rw [if_neg, h]
    rintro rfl
    exact hne h.symm
  · rintro ⟨hg, x, hx, h⟩
    by_cases hxs : x = sw
    · rw [if_pos hxs] at h
      exact absurd h.symm hg
    · rw [if_neg hxs] at h
      refine ⟨⟨hg, x, hx, h⟩, ?_⟩
      rintro rfl
      have hxb := (hs.fds x _ hx htap).mp h
      exact hxs (hxb.symm.trans hback)

theorem Sound.delete : tapInjectDeleteTap s.im sw = some (withoutTap s.im sw) ∧
    Sound (({ s with im := withoutTap s.im sw }).close (tapInjectLookupTapFd s.im sw)) ∧
    tapInjectLookupTapFd (withoutTap s.im sw) sw = noIndex := by
  obtain ⟨hfd, hif, hlen⟩ := hs.bounds hsw htap
  refine ⟨deleteTap_eq hfd hif hlen, ?_, by rw [lookup_without_sw hfd, if_pos rfl]⟩
  constructor
  case fds => exact fun x g hx hg => hs.without_fds hsw htap hx hg
  case ifindexes => exact fun x i hx h => hs.without_ifindexes hsw htap hx h
  case inside => exact fun x h => hs.without_inside hsw htap h
  case recorded =>
    intro g
    rw [mem_close]
    exact hs.without_recorded hsw htap g

end Delete

/-- A call of connect either fails and leaves no descriptor open, or records the
descriptor that it leaves open. -/
theorem connect_cases (o : Outcome) (hk : Kernel s (.connect sw o)) :
    (o.succeeds = false ∧ (tapInjectTapConnect s sw o).1.im = s.im ∧
        ∀ g, g ∈ (tapInjectTapConnect s sw o).1.openFds ↔ g ∈ s.openFds) ∨
      ∃ fd ifindex, o.succeeds = true ∧ fd ∉ s.openFds ∧ fd ≠ noIndex ∧
        (tapInjectTapConnect s sw o).1.im = tapInjectInsertTap s.im sw fd ifindex ∧
        ∀ g, g ∈ (tapInjectTapConnect s sw o).1.openFds ↔ g = fd ∨ g ∈ s.openFds := by
  obtain ⟨_, hopen, hsock⟩ := hk
  obtain ⟨openTun, tunSetIff, fionbio, socket, siocSifHwaddr, siocGifIndex⟩ := o
  cases openTun with
  | none => exact Or.inl ⟨rfl, rfl, fun _ => Iff.rfl⟩
  | some fd =>
    obtain ⟨hnew, hlt⟩ := hopen fd rfl
    have hclosed : ∀ g, g ∈ ((s.opened fd).close fd).openFds ↔ g ∈ s.openFds := by
      intro g
      rw [mem_close, mem_opened]
      grind
    cases tunSetIff with
    | false => exact Or.inl ⟨rfl, rfl, hclosed⟩
    | true =>
      cases fionbio with
      | false => exact Or.inl ⟨rfl, rfl, hclosed⟩
      | true =>
        cases socket with
        | none => exact Or.inl ⟨rfl, rfl, hclosed⟩
        | some sock =>
          obtain ⟨hsnew, hne⟩ := hsock sock rfl
          have hne' : sock ≠ fd := fun he => hne (by rw [he])
          have hboth : ∀ g, g ∈ ((((s.opened fd).opened sock).close fd).close sock).openFds ↔
              g ∈ s.openFds := by
            intro g
            rw [mem_close, mem_close, mem_opened, mem_opened]
            grind
          cases siocSifHwaddr with
          | false => exact Or.inl ⟨rfl, rfl, hboth⟩
          | true =>
            cases siocGifIndex with
            | none => exact Or.inl ⟨rfl, rfl, hboth⟩
            | some ifindex =>
              refine Or.inr ⟨fd, ifindex, rfl, hnew, Nat.ne_of_lt hlt, rfl, fun g => ?_⟩
              show g ∈ (((s.opened fd).opened sock).close sock).openFds ↔ _
              rw [mem_close, mem_opened, mem_opened]
              grind

theorem Sound.congr (hs : Sound s) {v : List Nat}
    (hv : ∀ x, v.getD x noIndex = tapInjectLookupTapFd s.im x)
    (him : t.im = { s.im with swIfIndexToTapFd := v })
    (hopen : ∀ g, g ∈ t.openFds ↔ g ∈ s.openFds) : Sound t := by
  have hlook : ∀ x, tapInjectLookupTapFd t.im x = tapInjectLookupTapFd s.im x := by
    intro x
    rw [tapInjectLookupTapFd, him]
    exact hv x
  refine ⟨fun sw fd => ?_, fun sw i => ?_, fun sw => ?_, fun g => ?_⟩
  · rw [hlook, him]
    exact hs.fds sw fd
  · rw [hlook, him]
    exact hs.ifindexes sw i
  · rw [hlook, him]
    exact hs.inside sw
  · simp only [hopen, hlook]
    exact hs.recorded g

theorem connect_sound (hs : Sound s) {o : Outcome} (hk : Kernel s (.connect sw o))
    (hf : Free s (.connect sw o)) : Sound (tapInjectTapConnect s sw o).1 := by
  obtain ⟨_, him, hopen⟩ | ⟨fd, ifindex, hok, hnew, hfd, him, hopen⟩ := connect_cases o hk
  · exact hs.congr (fun _ => rfl) him hopen
  · exact hs.insert hk.1 hfd hnew (hf hok) him hopen

/-- The first tap of an interface that gets a second one is forgotten. -/
theorem connect_free (hs : Sound s) {o : Outcome} (hk : Kernel s (.connect sw o))
    (ha : Agree (tapInjectTapConnect s sw o).1) : Free s (.connect sw o) := by
  intro hok
  obtain ⟨hno, _⟩ | ⟨fd, ifindex, _, hnew, hfd, him, _⟩ := connect_cases o hk
  · rw [hno] at hok
    cases hok
  · by_contra htap
    have hold := (hs.fds sw _ hk.1 htap).mp rfl
    have hne : tapInjectLookupTapFd s.im sw ≠ fd := by
      rintro rfl
      exact hnew ((hs.recorded _).mpr ⟨htap, sw, hk.1, rfl⟩)
    have hback := (ha.fds sw _ hk.1 htap).mpr (by
      rw [him, lookup_insert_fd, if_neg hne, hold])
    rw [him, lookup_insert_sw, if_pos rfl] at hback
    exact hne hback.symm

theorem disconnect_sound (hs : Sound s) (hsw : sw ≠ noIndex) :
    ∃ t, step s (.disconnect sw) = some t ∧ Sound t ∧ Gone t sw := by
  by_cases htap : tapInjectLookupTapFd s.im sw = noIndex
  · have hsound := hs.congr (t := { s with
      im.swIfIndexToTapFd := validate s.im.swIfIndexToTapFd sw noIndex })
      (fun x => getD_validate) rfl fun _ => Iff.rfl
    refine ⟨_, ?_, hsound, hsound.gone hsw ?_⟩
    · rw [step, tapInjectTapDisconnect, if_pos htap]
      rfl
    · exact getD_validate.trans htap
  · obtain ⟨hdel, hsound, hno⟩ := hs.delete hsw htap
    refine ⟨_, ?_, hsound, hsound.gone hsw hno⟩
    rw [step, tapInjectTapDisconnect, if_neg htap, hdel]
    rfl

theorem step_sound (hs : Sound s) {a : Act} (hk : Kernel s a) (hf : Free s a) :
    ∃ t, step s a = some t ∧ Sound t ∧ Correct t a := by
  cases a with
  | connect sw o =>
    have ht := connect_sound hs hk hf
    exact ⟨_, rfl, ht, ht.agree⟩
  | disconnect sw =>
    obtain ⟨t, hr, ht, hg⟩ := disconnect_sound hs hk
    exact ⟨t, hr, ht, ht.agree, hg⟩

/-- The lookups are right after every call of a run if and only if no call gives
an interface that has a tap a second one. -/
theorem run_lookups (acts : List Act) (hk : Meets step Kernel start acts) :
    Meets step (fun s a => ∃ t, step s a = some t ∧ Correct t a) start acts ↔
      Meets step Free start acts := by
  refine meets_congr (P := Sound) (fun s a t hs hk hf ht => ?_) (fun s a hs hk => ⟨?_, ?_⟩)
    start_sound hk
  · obtain ⟨u, hu, hsound, _⟩ := step_sound hs hk hf
    rw [hu] at ht
    exact Option.some.inj ht ▸ hsound
  · rintro ⟨t, ht, hc⟩
    cases a with
    | connect sw o =>
      obtain rfl := Option.some.inj ht
      exact connect_free hs hk hc
    | disconnect sw => exact trivial
  · intro hf
    obtain ⟨t, ht, _, hc⟩ := step_sound hs hk hf
    exact ⟨t, ht, hc⟩

def allDone (tapFd socket ifindex : Nat) : Outcome :=
  ⟨some tapFd, true, true, some socket, true, some ifindex⟩

def reconnect : List Act := [.connect 1 (allDone 5 6 9), .disconnect 1, .connect 1 (allDone 5 6 9)]

/-- A tap that is disconnected before the interface is connected again. -/
theorem run_lookups_sample :
    Meets step (fun s a => ∃ t, step s a = some t ∧ Correct t a) start reconnect := by
  refine (run_lookups reconnect ⟨?_, fun s hs => ⟨?_, fun t ht => ⟨?_, fun _ _ => trivial⟩⟩⟩).mpr
    ⟨fun _ => rfl, fun s hs => ⟨trivial, fun t ht => ⟨fun _ => ?_, fun _ _ => trivial⟩⟩⟩
  · refine ⟨by decide, fun fd h => ?_, fun fd h => ?_⟩
    · obtain rfl := Option.some.inj h
      exact ⟨List.not_mem_nil, by decide⟩
    · obtain rfl := Option.some.inj h
      exact ⟨List.not_mem_nil, by decide⟩
  · exact (by decide : 1 ≠ noIndex)
  · obtain rfl := Option.some.inj hs
    obtain rfl := Option.some.inj ht
    refine ⟨by decide, fun fd h => ?_, fun fd h => ?_⟩
    · obtain rfl := Option.some.inj h
      exact ⟨by decide, by decide⟩
    · obtain rfl := Option.some.inj h
      exact ⟨by decide, by decide⟩
  · obtain rfl := Option.some.inj hs
    obtain rfl := Option.some.inj ht
    rfl

/-- The interface gets a second tap. The first one still resolves to it, and is
open but not recorded. -/
theorem second_tap_loses_first :
    ∃ s, run step start [.connect 1 (allDone 5 6 9), .connect 1 (allDone 7 6 10)] = some s ∧
      tapInjectLookupSwIfIndexFromTapFd s.im 5 = 1 ∧ tapInjectLookupTapFd s.im 1 = 7 ∧
      5 ∈ s.openFds ∧ ¬ Agree s := by
  refine ⟨_, rfl, rfl, rfl, by decide, fun ha => ?_⟩
  have hfd := (ha.fds 1 5 (by decide) (by decide)).mpr rfl
  exact absurd hfd (by decide)

end Vppsb.TapLookups
