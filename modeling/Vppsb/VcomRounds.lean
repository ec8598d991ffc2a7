import Vppsb.VcomSelect

namespace Vppsb.VcomRounds

open Vppsb.StepRun Vppsb.FdSets Vppsb.VcomSelect

/-- What is ready while a round runs: session ids for `vppcom_select`, file
descriptors for `libc_select`. -/
structure Ready where
  sid : FdKind → Nat → Bool
  fd : FdKind → Nat → Bool

/-- A `select` that does not fail: the sets are reduced to what is ready, and
the result is the number of their bits. -/
def Reduces (select : Nat → SelectSets → Int × SelectSets) (ready : FdKind → Nat → Bool) : Prop :=
  ∀ n s, Below n s → select n s = ((bitCount n (restrict s ready) : Int), restrict s ready)

structure Answers (p : Poll) (r : Ready) : Prop where
  vppcom : Reduces p.vppcomSelect r.sid
  libc : Reduces p.libcSelect r.fd
  clock : ∃ now, p.clockGettime = .ok now

section Split

variable (sockets : Sockets) (n : Nat) (src vcom libc : SelectSets)

theorem split_foldl (xs : List (FdKind × Nat)) (a b : Marks) :
    xs.foldl (fun (m : Marks × Marks) x =>
      if isSet src x.1 x.2 then
        if isVcomSocketFd sockets x.2 then (mark m.1 x.1 x.2, m.2) else (m.1, mark m.2 x.1 x.2)
      else m) (a, b) =
    (markAll (fun k fd => isSet src k fd && isVcomSocketFd sockets fd) id xs a,
      markAll (fun k fd => isSet src k fd && !isVcomSocketFd sockets fd) id xs b) := by
  induction xs generalizing a b with
  | nil => rfl
  | cons x xs ih =>
    rw [List.foldl_cons, markAll_cons, markAll_cons]
    by_cases h : isSet src x.1 x.2 = true
    · by_cases hv : isVcomSocketFd sockets x.2 = true
      · simp only [h, hv, if_true, ih]
        simp
      · simp only [h, hv, if_true, ih]
        simp
    · simp only [h, ih]
      simp

theorem vcomFdSetSplit_eq : vcomFdSetSplit sockets n src vcom libc =
    (markAll (fun k fd => isSet src k fd && isVcomSocketFd sockets fd) id (fdLoop n)
        (emptyMarks vcom),
      markAll (fun k fd => isSet src k fd && !isVcomSocketFd sockets fd) id (fdLoop n)
        (emptyMarks libc)) := split_foldl sockets src (fdLoop n) _ _

end Split

def sidOf (sockets : Sockets) (fd : Nat) : Nat := (vcomSocketGetSid sockets fd).getD 0

/-- Each descriptor in the sets has a session id, with a bit for it. -/
def Watchable (sockets : Sockets) (fds : SelectSets) : Prop :=
  ∀ k fd, isSet fds k fd = true → ∃ sid, vcomSocketGetSid sockets fd = some sid ∧ sid < fdSetSize

/-- The sets hold only descriptors below `n` that have a session id. -/
structure Bound (sockets : Sockets) (n : Nat) (fds : SelectSets) : Prop where
  below : Below n fds
  sids : Watchable sockets fds

variable {sockets : Sockets} {n : Nat} {fds sids : SelectSets}

theorem Watchable.sid (h : Watchable sockets fds) {k : FdKind} {fd : Nat}
    (hs : isSet fds k fd = true) :
    vcomSocketGetSid sockets fd = some (sidOf sockets fd) ∧ sidOf sockets fd < fdSetSize := by
  obtain ⟨sid, hsid, hlt⟩ := h k fd hs
  rw [sidOf, hsid]
  exact ⟨rfl, hlt⟩

theorem Watchable.of_subset {fds' : SelectSets} (h : Watchable sockets fds)
    (hsub : ∀ k fd, isSet fds' k fd = true → isSet fds k fd = true) : Watchable sockets fds' :=
  fun k fd hs => h k fd (hsub k fd hs)

theorem collectSids_eq (h : Watchable sockets fds) (xs : List (FdKind × Nat)) (m : Marks) :
    collectSids sockets fds xs m = some (.ok (markAll (isSet fds) (sidOf sockets) xs m)) := by
  induction xs generalizing m with
  | nil => rfl
  | cons x xs ih =>
    obtain ⟨k, fd⟩ := x
    rw [markAll_cons]
    by_cases hs : isSet fds k fd = true
    · by_cases hp : present m.sets k = true
      · obtain ⟨hsid, hlt⟩ := h.sid hs
        simp only [collectSids, hs, hp, Bool.and_self, if_true, hsid, if_pos hlt, ih]
      · rw [if_pos hs, mark_absent hp]
        simp only [collectSids, hp, Bool.and_false, Bool.false_eq_true, if_false, ih]
    · simp only [collectSids, hs, Bool.false_and, Bool.false_eq_true, if_false, ih]

theorem vcomSocketFds2SidFds_eq (h : Watchable sockets fds) :
    vcomSocketFds2SidFds sockets sids n fds =
      some (.ok (markAll (isSet fds) (sidOf sockets) (fdLoop n) (emptyMarks sids))) :=
  collectSids_eq h (fdLoop n) (emptyMarks sids)

/-- At an id without a bit the loop is undefined. -/
theorem collectSids_beyond (h : ∀ k fd, isSet fds k fd = true → vcomSocketGetSid sockets fd ≠ none)
    {xs : List (FdKind × Nat)} {m : Marks} (hp : ∀ k, present m.sets k = present fds k)
    {k : FdKind} {fd sid : Nat} (hx : (k, fd) ∈ xs) (hs : isSet fds k fd = true)
    (hsid : vcomSocketGetSid sockets fd = some sid) (hge : fdSetSize ≤ sid) :
    collectSids sockets fds xs m = none := by
  induction xs generalizing m with
  | nil => exact absurd hx List.not_mem_nil
  | cons x xs ih =>
    obtain ⟨j, i⟩ := x
    by_cases hj : isSet fds j i = true
    · obtain ⟨sid', hsid'⟩ := Option.ne_none_iff_exists'.mp (h j i hj)
      have hpj : present m.sets j = true := (hp j).trans (isSet_le_present hj)
      simp only [collectSids, hj, hpj, Bool.and_self, if_true, hsid']
      by_cases hlt : sid' < fdSetSize
      · rw [if_pos hlt]
        refine ih (fun k => (present_mark m j k sid').trans (hp k)) ?_
        obtain heq | hx := List.mem_cons.mp hx
        · obtain ⟨-, rfl⟩ := Prod.mk.inj heq
          rw [hsid] at hsid'
          exact absurd (Option.some.inj hsid' ▸ hge) (Nat.not_le.mpr hlt)
        · exact hx
      · rw [if_neg hlt]
    · have hne : (k, fd) ≠ (j, i) := fun heq => hj (by
        obtain ⟨rfl, rfl⟩ := Prod.mk.inj heq
        exact hs)
      simp only [collectSids, hj, Bool.false_and, Bool.false_eq_true, if_false]
      exact ih hp ((List.mem_cons.mp hx).resolve_left hne)

theorem clearIdle_spec (xs : List (FdKind × Nat)) (hp : ∀ k, present sids k = present fds k)
    (hs : Watchable sockets fds) :
    ∃ fds', clearIdle sockets sids xs fds = some (fds', true) ∧
      (∀ k, present fds' k = present fds k) ∧
      ∀ k fd, isSet fds' k fd = true ↔ isSet fds k fd = true ∧
        ((k, fd) ∈ xs → isSet sids k (sidOf sockets fd) = true) := by
  induction xs generalizing fds with
  | nil => exact ⟨fds, rfl, fun _ => rfl, by simp⟩
  | cons x xs ih =>
    obtain ⟨j, i⟩ := x
    by_cases h : isSet fds j i = true
    · have hpj : present sids j = true := by rw [hp, isSet_le_present h]
      obtain ⟨hsid, hlt⟩ := hs.sid h
      by_cases hr : isSet sids j (sidOf sockets i) = true
      · obtain ⟨fds', he, hp', hb⟩ := ih hp hs
        refine ⟨fds', ?_, hp', fun k fd => ?_⟩
        · simp only [clearIdle, h, hpj, Bool.and_self, if_true, hsid, if_pos hlt, hr, he]
        · rw [hb]
          simp only [List.mem_cons, Prod.mk.injEq]
          grind
      · have hs' : Watchable sockets (setBit fds j i false) := by
          apply hs.of_subset
          intro k fd hk
          rw [isSet_setBit] at hk
          split at hk
          · simp at hk
          · exact hk
        obtain ⟨fds', he, hp', hb⟩ := ih (by simpa using hp) hs'
        refine ⟨fds', ?_, fun k => by rw [hp', present_setBit], fun k fd => ?_⟩
        · simp only [clearIdle, h, hpj, Bool.and_self, if_true, hsid, if_pos hlt, hr]
          simpa using he
        · rw [hb, isSet_setBit]
          simp only [List.mem_cons, Prod.mk.injEq, Bool.and_false]
          grind
    · obtain ⟨fds', he, hp', hb⟩ := ih hp hs
      refine ⟨fds', ?_, hp', fun k fd => ?_⟩
      · simp only [clearIdle, h, Bool.false_and, Bool.false_eq_true, if_false, he]
      · rw [hb]
        simp only [List.mem_cons, Prod.mk.injEq]
        grind

theorem countFds_foldl (xs : List (FdKind × Nat)) (m : Marks)
    (hs : ∀ x ∈ xs, isSet fds x.1 x.2 = true → present m.sets x.1 = true) :
    xs.foldl (fun (m : Int × Nat) x =>
      if isSet fds x.1 x.2 then (if (x.2 : Int) > m.1 then (x.2 : Int) else m.1, m.2 + 1) else m)
      (m.maxFd, m.nfd) =
    ((markAll (isSet fds) id xs m).maxFd, (markAll (isSet fds) id xs m).nfd) := by
  induction xs generalizing m with
  | nil => rfl
  | cons x xs ih =>
    rw [List.foldl_cons, markAll_cons]
    by_cases hx : isSet fds x.1 x.2 = true
    · have hp := hs x List.mem_cons_self hx
      rw [if_pos hx, if_pos hx, ← ih]
      · rw [mark, if_pos hp]
        rfl
      · intro y hy hset
        rw [present_mark]
        exact hs y (List.mem_cons_of_mem x hy) hset
    · rw [if_neg hx, if_neg hx]
      exact ih m fun y hy => hs y (List.mem_cons_of_mem x hy)

theorem countFds_eq : countFds n fds =
    ((markAll (isSet fds) id (fdLoop n) (emptyMarks (zeroSets fds))).maxFd,
      (markAll (isSet fds) id (fdLoop n) (emptyMarks (zeroSets fds))).nfd) := by
  refine countFds_foldl (fdLoop n) (emptyMarks (zeroSets fds)) fun x _ hx => ?_
  rw [emptyMarks, present_zeroSets, isSet_le_present hx]

theorem countFds_count : (countFds n fds).2 = bitCount n fds := by
  rw [countFds_eq, nfd_markAll, bitCount]
  simp only [emptyMarks, Nat.zero_add]
  apply List.countP_congr
  intro x _
  rw [present_zeroSets, Bool.and_eq_true]
  exact and_iff_left_of_imp isSet_le_present

/-- What `vcom_socket_select` leaves of the sets when something is ready. -/
def readySids (sockets : Sockets) (fds : SelectSets) (ready : FdKind → Nat → Bool) : SelectSets :=
  restrict fds (fun k fd => ready k (sidOf sockets fd))

/-- The session ids of the sets, as they are handed to `vppcom_select`. -/
def sidMarks (sockets : Sockets) (n : Nat) (fds : SelectSets) : Marks :=
  markAll (isSet fds) (sidOf sockets) (fdLoop n) (emptyMarks (zeroSets fds))

section Sids

variable (hb : Bound sockets n fds)

theorem present_sidMarks (k : FdKind) : present (sidMarks sockets n fds).sets k = present fds k := by
  rw [sidMarks, present_markAll]
  exact present_zeroSets fds k

include hb

theorem isSet_sidMarks (k : FdKind) (i : Nat) : isSet (sidMarks sockets n fds).sets k i = true ↔
    ∃ fd, isSet fds k fd = true ∧ sidOf sockets fd = i := by
  rw [sidMarks, isSet_markAll]
  simp only [emptyMarks, isSet_zeroSets, present_zeroSets, mem_fdLoop]
  constructor
  · rintro (h | ⟨_, fd, _, h, rfl⟩)
    · cases h
    · exact ⟨fd, h, rfl⟩
  · rintro ⟨fd, h, rfl⟩
    exact Or.inr ⟨isSet_le_present h, fd, hb.below k fd h, h, rfl⟩

theorem below_sidMarks :
    Below (nfdsOf (sidMarks sockets n fds).maxFd) (sidMarks sockets n fds).sets := by
  intro k i hi
  obtain ⟨fd, h, rfl⟩ := (isSet_sidMarks hb k i).mp hi
  refine lt_nfdsOf_markAll (mem_fdLoop.mpr (hb.below k fd h)) h ?_
  simpa [emptyMarks] using isSet_le_present h

theorem anySet_sidMarks (ready : FdKind → Nat → Bool) :
    AnySet (restrict (sidMarks sockets n fds).sets ready) ↔
      AnySet (readySids sockets fds ready) := by
  simp only [AnySet, readySids, isSet_restrict, Bool.and_eq_true, isSet_sidMarks hb]
  constructor
  · rintro ⟨k, _, ⟨fd, hfd, rfl⟩, hr⟩
    exact ⟨k, fd, hfd, hr⟩
  · rintro ⟨k, fd, hfd, hr⟩
    exact ⟨k, _, ⟨fd, hfd, rfl⟩, hr⟩

/-- Back from the session ids that are ready to their descriptors. -/
theorem sidFds2Fds_sidMarks (ready : FdKind → Nat → Bool) (newVcomNfds : Nat) :
    ∃ nfds, vcomSocketSidFds2Fds sockets n fds (restrict (sidMarks sockets n fds).sets ready)
      newVcomNfds = some ((bitCount n (readySids sockets fds ready) : Int), nfds,
        readySids sockets fds ready) := by
  have hsids : ∀ k, present (restrict (sidMarks sockets n fds).sets ready) k = present fds k :=
    fun k => by rw [present_restrict, present_sidMarks]
  obtain ⟨fds', hc, hp', hb'⟩ := clearIdle_spec (fdLoop n) hsids hb.sids
  have hfds : fds' = readySids sockets fds ready := by
    refine ext (fun k => by rw [hp', readySids, present_restrict]) fun k fd => ?_
    rw [Bool.eq_iff_iff, hb']
    simp only [readySids, isSet_restrict, Bool.and_eq_true, mem_fdLoop]
    refine and_congr_right fun hk => ?_
    constructor
    · exact fun h => (h (hb.below k fd hk)).2
    · exact fun h _ => ⟨(isSet_sidMarks hb _ _).mpr ⟨fd, hk, rfl⟩, h⟩
  refine ⟨nfdsOf (countFds n (readySids sockets fds ready)).1, ?_⟩
  rw [vcomSocketSidFds2Fds, hc, hfds, ← countFds_count]

end Sids

def SomeSet (s : SelectSets) : Prop := ∃ k, present s k = true

theorem someSet_iff {s : SelectSets} :
    (present s .read || present s .write || present s .except) = true ↔ SomeSet s := by
  rw [Bool.or_eq_true, Bool.or_eq_true]
  constructor
  · rintro ((h | h) | h)
    exacts [⟨_, h⟩, ⟨_, h⟩, ⟨_, h⟩]
  · rintro ⟨k, h⟩
    cases k with
    | read => exact .inl (.inl h)
    | write => exact .inl (.inr h)
    | except => exact .inr h

theorem vcomSocketSelect_spec (hb : Bound sockets n fds)
    {select : Nat → SelectSets → Int × SelectSets} {ready : FdKind → Nat → Bool}
    (hr : Reduces select ready) :
    (AnySet (readySids sockets fds ready) → vcomSocketSelect sockets select n fds =
      some ((bitCount n (readySids sockets fds ready) : Int), readySids sockets fds ready)) ∧
    (SomeSet fds → ¬ AnySet (readySids sockets fds ready) →
      vcomSocketSelect sockets select n fds = some (0, fds)) := by
  have hbelow := below_sidMarks hb
  have hcall := hr _ _ hbelow
  have hpos := bitCount_pos (hbelow.restrict ready)
  rw [anySet_sidMarks hb] at hpos
  rw [vcomSocketSelect, vcomSocketFds2SidFds_eq hb.sids, ← sidMarks]
  simp only [hcall]
  constructor
  · intro ha
    have hlt := hpos.mpr ha
    obtain ⟨k, fd, hset⟩ := ha.of_restrict
    obtain ⟨nfds, hback⟩ := sidFds2Fds_sidMarks hb ready 0
    rw [if_pos (someSet_iff.mpr ⟨k, isSet_le_present hset⟩), if_pos (by exact_mod_cast hlt), hback]
    rfl
  · intro hsome ha
    rw [if_pos (someSet_iff.mpr hsome), Nat.eq_zero_of_not_pos (mt hpos.mp ha)]
    rfl

section Merge

variable {s a b : SelectSets} {na nb : Nat}

theorem isSet_merge (hpa : ∀ k, present a k = present s k) (hpb : ∀ k, present b k = present s k)
    (ha : Below na a) (hb : Below nb b) (k : FdKind) (fd : Nat) :
    isSet (vcomFdSetMerge (zeroSets s) na a nb b).sets k fd = true ↔
      isSet a k fd = true ∨ isSet b k fd = true := by
  simp only [vcomFdSetMerge, fdRweSetsOr, isSet_markAll, present_markAll, emptyMarks,
    isSet_zeroSets, present_zeroSets, mem_fdLoop, id]
  constructor
  · rintro ((h | ⟨_, i, _, h, rfl⟩) | ⟨_, i, _, h, rfl⟩)
    · cases h
    · exact Or.inl h
    · exact Or.inr h
  · rintro (h | h)
    · exact Or.inl (Or.inr ⟨by rw [← hpa, isSet_le_present h], fd, ha k fd h, h, rfl⟩)
    · exact Or.inr ⟨by rw [← hpb, isSet_le_present h], fd, hb k fd h, h, rfl⟩

theorem nfd_merge (hpa : ∀ k, present a k = present s k) (hpb : ∀ k, present b k = present s k)
    (ha : Below na a) (hb : Below nb b) {m : Nat} (hna : na ≤ m) (hnb : nb ≤ m)
    (hdis : ∀ k fd, isSet a k fd = true → isSet b k fd = false) :
    (vcomFdSetMerge (zeroSets s) na a nb b).nfd =
      bitCount m (vcomFdSetMerge (zeroSets s) na a nb b).sets := by
  have hcount : ∀ (x : SelectSets) (nx : Nat), (∀ k, present x k = present s k) → Below nx x →
      nx ≤ m → (fdLoop nx).countP (fun y => isSet x y.1 y.2 && present (zeroSets s) y.1) =
        (fdLoop m).countP (fun y => isSet x y.1 y.2) := by
    intro x nx hp hx hle
    rw [countP_fdLoop_of_le hle fun k fd hfd => ?_]
    · refine List.countP_congr fun y _ => ?_
      rw [present_zeroSets, ← hp, Bool.and_eq_true]
      exact and_iff_left_of_imp isSet_le_present
    · cases h : isSet x k fd with
      | false => rfl
      | true => exact absurd (hx k fd h) (by omega)
  have hor : bitCount m (vcomFdSetMerge (zeroSets s) na a nb b).sets =
      (fdLoop m).countP (fun y => isSet a y.1 y.2 || isSet b y.1 y.2) := by
    refine List.countP_congr fun y _ => ?_
    rw [isSet_merge hpa hpb ha hb, Bool.or_eq_true]
  rw [hor, countP_or _ _ _ fun y _ => hdis y.1 y.2, ← hcount a na hpa ha hna,
    ← hcount b nb hpb hb hnb]
  simp only [vcomFdSetMerge, fdRweSetsOr, nfd_markAll, present_markAll, emptyMarks, Nat.zero_add]

end Merge

/-- What the loop variables owe to the sets that are handed out. -/
structure Fits (w : Watch) (vcom libc : SelectSets) : Prop where
  bound : Bound w.sockets w.vcomNfds vcom
  vcomNone : w.vcomNfds = 0 → ¬ AnySet vcom
  vcomSome : w.vcomNfds ≠ 0 → SomeSet vcom
  below : Below w.libcNfds libc
  libcNone : w.libcNfds = 0 → ¬ AnySet libc

section Round

variable {w : Watch} {vcom libc : SelectSets} {p : Poll} {r : Ready}

theorem vcomCall_ready (hw : Fits w vcom libc) (ha : Answers p r)
    (h : AnySet (readySids w.sockets vcom r.sid)) : w.vcomNfds ≠ 0 ∧ ∃ n : Nat, 0 < n ∧
      vcomCall w p vcom = some ((n : Int), readySids w.sockets vcom r.sid) := by
  have hne : w.vcomNfds ≠ 0 := fun h0 => hw.vcomNone h0 h.of_restrict
  have hpos := (bitCount_pos (hw.bound.below.restrict _)).mpr h
  rw [vcomCall, if_pos hne, (vcomSocketSelect_spec hw.bound ha.vppcom).1 h]
  exact ⟨hne, _, hpos, rfl⟩

theorem vcomCall_idle (hw : Fits w vcom libc) (ha : Answers p r)
    (h : ¬ AnySet (readySids w.sockets vcom r.sid)) : ∃ n : Int, vcomCall w p vcom = some (n, vcom) ∧
      ¬ (w.vcomNfds ≠ 0 ∧ n < 0) ∧ ¬ (w.vcomNfds ≠ 0 ∧ 0 < n) := by
  by_cases hne : w.vcomNfds ≠ 0
  · rw [vcomCall, if_pos hne, (vcomSocketSelect_spec hw.bound ha.vppcom).2 (hw.vcomSome hne) h]
    exact ⟨0, rfl, by simp, by simp⟩
  · rw [vcomCall, if_neg hne]
    exact ⟨-1, rfl, fun h => hne h.1, fun h => hne h.1⟩

theorem libcCall_spec (hw : Fits w vcom libc) (ha : Answers p r) :
    ¬ (w.libcNfds ≠ 0 ∧ (libcCall w p libc).1 < 0) ∧
      (w.libcNfds ≠ 0 ∧ 0 < (libcCall w p libc).1 ↔ AnySet (restrict libc r.fd)) ∧
      (libcCall w p libc).2 = restrict libc r.fd := by
  by_cases hne : w.libcNfds ≠ 0
  · have hpos := bitCount_pos (hw.below.restrict r.fd)
    rw [libcCall, if_pos hne, ha.libc _ _ hw.below, ← hpos]
    refine ⟨fun h => ?_, ?_, rfl⟩
    · have := h.2
      omega
    · simp [hne]
  · have hnone := hw.libcNone (not_not.mp hne)
    rw [libcCall, if_neg hne]
    refine ⟨fun h => hne h.1, ⟨fun h => absurd h.1 hne, fun h => absurd h.of_restrict hnone⟩, ?_⟩
    rw [eq_zeroSets (fun _ => rfl) hnone]
    exact (eq_zeroSets (by simp) fun h => not_anySet_zeroSets libc h.of_restrict).symm

def merged (w : Watch) (vcom' libc' : SelectSets) : Marks :=
  vcomFdSetMerge (zeroSets w.sets) w.vcomNfds vcom' w.libcNfds libc'

theorem pollRound_vcom (hw : Fits w vcom libc) (ha : Answers p r)
    (h : AnySet (readySids w.sockets vcom r.sid)) :
    pollRound w (.polling vcom libc) p = some (.exited
      (merged w (readySids w.sockets vcom r.sid) (restrict libc r.fd)).nfd
      (merged w (readySids w.sockets vcom r.sid) (restrict libc r.fd)).sets false) := by
  obtain ⟨hne, n, hpos, hv⟩ := vcomCall_ready hw ha h
  obtain ⟨hl, _, hlibc⟩ := libcCall_spec hw ha
  have hready : w.vcomNfds ≠ 0 ∧ (0 : Int) < n := ⟨hne, by omega⟩
  have hv' : ¬ (w.vcomNfds ≠ 0 ∧ (n : Int) < 0) := fun h => by
    have := h.2
    omega
  simp only [pollRound, hv, Option.bind_eq_bind, Option.bind_some]
  rw [if_neg hv', if_neg hl, if_pos (Or.inl hready), hlibc]
  rfl

/-- Where only the kernel has something ready, the vcom sets are merged as they
were handed out. -/
theorem pollRound_libc (hw : Fits w vcom libc) (ha : Answers p r)
    (h : ¬ AnySet (readySids w.sockets vcom r.sid)) (h' : AnySet (restrict libc r.fd)) :
    pollRound w (.polling vcom libc) p = some (.exited (merged w vcom (restrict libc r.fd)).nfd
      (merged w vcom (restrict libc r.fd)).sets false) := by
  obtain ⟨n, hv, hv1, _⟩ := vcomCall_idle hw ha h
  obtain ⟨hl, hl', hlibc⟩ := libcCall_spec hw ha
  simp only [pollRound, hv, Option.bind_eq_bind, Option.bind_some]
  rw [if_neg hv1, if_neg hl, if_pos (Or.inr (hl'.mpr h')), hlibc]
  rfl

theorem pollRound_idle (hw : Fits w vcom libc) (ha : Answers p r)
    (h : ¬ AnySet (readySids w.sockets vcom r.sid)) (h' : ¬ AnySet (restrict libc r.fd)) :
    pollRound w (.polling vcom libc) p = some (.polling vcom (zeroSets libc)) ∨
      pollRound w (.polling vcom libc) p = some (.exited 0 w.sets true) := by
  obtain ⟨n, hv, hv1, hv2⟩ := vcomCall_idle hw ha h
  obtain ⟨hl, hl', hlibc⟩ := libcCall_spec hw ha
  obtain ⟨now, hnow⟩ := ha.clock
  have hzero : restrict libc r.fd = zeroSets libc := eq_zeroSets (by simp) h'
  simp only [pollRound, hv, Option.bind_eq_bind, Option.bind_some]
  rw [if_neg hv1, if_neg hl, if_neg (not_or.mpr ⟨hv2, fun h => h' (hl'.mp h)⟩), hlibc, hnow,
    hzero]
  cases w.endTime with
  | none => exact Or.inl rfl
  | some endTime =>
    by_cases hlt : timespecCompare now endTime < 0
    · exact Or.inl (by simp [hlt])
    · exact Or.inr (by simp [hlt])

end Round

end Vppsb.VcomRounds
