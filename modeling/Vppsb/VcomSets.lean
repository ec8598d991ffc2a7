import Vppsb.VcomRounds

namespace Vppsb.VcomSets

open Vppsb.FdSets Vppsb.VcomSelect Vppsb.VcomRounds

/-- The number is one more than the largest one in the sets, or zero where there
is none. -/
def IsNfds (n : Nat) (s : SelectSets) : Prop :=
  Below n s ∧ (n = 0 ∨ ∃ k fd, isSet s k fd = true ∧ n = fd + 1)

section Marks

variable {p : FdKind → Nat → Bool} {t : Nat → Nat} {xs : List (FdKind × Nat)} {s : SelectSets}
  {k : FdKind} {i n : Nat}

theorem isSet_marks : isSet (markAll p t xs (emptyMarks (zeroSets s))).sets k i = true ↔
    present s k = true ∧ ∃ fd, (k, fd) ∈ xs ∧ p k fd = true ∧ t fd = i := by
  rw [isSet_markAll]
  simp [emptyMarks]

theorem isNfds_marks : IsNfds (nfdsOf (markAll p t xs (emptyMarks (zeroSets s))).maxFd)
    (markAll p t xs (emptyMarks (zeroSets s))).sets := by
  constructor
  · intro k i hi
    obtain ⟨hs, fd, hx, hp, rfl⟩ := isSet_marks.mp hi
    apply lt_nfdsOf_markAll hx hp
    simpa [emptyMarks] using hs
  · obtain h | ⟨k, fd, hx, hp, hs, h⟩ := maxFd_markAll_cases p t xs (emptyMarks (zeroSets s))
    · left
      rw [h]
      rfl
    · right
      refine ⟨k, t fd, isSet_marks.mpr ⟨by simpa [emptyMarks] using hs, fd, hx, hp, rfl⟩, ?_⟩
      rw [h, nfdsOf, if_pos (by omega)]
      omega

theorem nfd_marks : (markAll p id (fdLoop n) (emptyMarks (zeroSets s))).nfd =
    bitCount n (markAll p id (fdLoop n) (emptyMarks (zeroSets s))).sets := by
  rw [nfd_markAll, bitCount]
  simp only [emptyMarks, Nat.zero_add]
  apply List.countP_congr
  intro x hx
  rw [← emptyMarks, isSet_marks]
  simp only [present_zeroSets, Bool.and_eq_true, id]
  constructor
  · exact fun h => ⟨h.2, x.2, hx, h.1, rfl⟩
  · rintro ⟨hs, fd, _, hp, rfl⟩
    exact ⟨hp, hs⟩

end Marks

section Split

variable (sockets : Sockets) (n : Nat) (s : SelectSets)

def split : Marks × Marks := vcomFdSetSplit sockets n s (zeroSets s) (zeroSets s)

def mergeBack : Marks :=
  vcomFdSetMerge (zeroSets s) (nfdsOf (split sockets n s).1.maxFd) (split sockets n s).1.sets
    (nfdsOf (split sockets n s).2.maxFd) (split sockets n s).2.sets

theorem split_eq : split sockets n s =
    (markAll (fun k fd => isSet s k fd && isVcomSocketFd sockets fd) id (fdLoop n)
        (emptyMarks (zeroSets s)),
      markAll (fun k fd => isSet s k fd && !isVcomSocketFd sockets fd) id (fdLoop n)
        (emptyMarks (zeroSets s))) := vcomFdSetSplit_eq sockets n s _ _

theorem split_vcom : (split sockets n s).1.sets =
    restrict s (fun _ fd => decide (fd < n) && isVcomSocketFd sockets fd) := by
  rw [split_eq]
  exact markAll_zeroSets s (fun _ fd => isVcomSocketFd sockets fd) n

theorem split_libc : (split sockets n s).2.sets =
    restrict s (fun _ fd => decide (fd < n) && !isVcomSocketFd sockets fd) := by
  rw [split_eq]
  exact markAll_zeroSets s (fun _ fd => !isVcomSocketFd sockets fd) n

theorem mergeBack_isSet (k : FdKind) (fd : Nat) : isSet (mergeBack sockets n s).sets k fd = true ↔
    isSet (split sockets n s).1.sets k fd = true ∨ isSet (split sockets n s).2.sets k fd = true := by
  apply isSet_merge
  · intro k
    rw [split_vcom, present_restrict]
  · intro k
    rw [split_libc, present_restrict]
  · rw [split_eq]
    exact isNfds_marks.1
  · rw [split_eq]
    exact isNfds_marks.1

theorem mergeBack_sets :
    (mergeBack sockets n s).sets = restrict s (fun _ fd => decide (fd < n)) := by
  apply ext
  · intro k
    simp [mergeBack, vcomFdSetMerge, fdRweSetsOr, emptyMarks]
  · intro k fd
    rw [Bool.eq_iff_iff, mergeBack_isSet, split_vcom, split_libc]
    simp only [isSet_restrict]
    cases isVcomSocketFd sockets fd <;> simp

theorem mergeBack_nfd :
    (mergeBack sockets n s).nfd = (split sockets n s).1.nfd + (split sockets n s).2.nfd := by
  have hdis : ∀ k fd, isSet (split sockets n s).1.sets k fd = true →
      isSet (split sockets n s).2.sets k fd = false := by
    intro k fd h
    rw [split_vcom, isSet_restrict] at h
    rw [split_libc, isSet_restrict]
    cases hv : isVcomSocketFd sockets fd <;> simp [hv] at h ⊢
  have hmerge : (mergeBack sockets n s).nfd = bitCount n (mergeBack sockets n s).sets := by
    apply nfd_merge
    · intro k
      rw [split_vcom, present_restrict]
    · intro k
      rw [split_libc, present_restrict]
    · rw [split_eq]
      exact isNfds_marks.1
    · rw [split_eq]
      exact isNfds_marks.1
    · rw [split_eq]
      exact nfdsOf_markAll_le
    · rw [split_eq]
      exact nfdsOf_markAll_le
    · exact hdis
  have hsum : bitCount n (mergeBack sockets n s).sets =
      bitCount n (split sockets n s).1.sets + bitCount n (split sockets n s).2.sets := by
    rw [bitCount, bitCount, bitCount, ← countP_or _ _ _ fun x _ => hdis x.1 x.2]
    apply List.countP_congr
    intro x _
    rw [mergeBack_isSet, Bool.or_eq_true]
  rw [hmerge, hsum, split_eq, nfd_marks, nfd_marks]

/-- The split puts each descriptor of the sets below `n` on its side and nothing
else anywhere, and the merge of the two sides gives back the bits below `n`. -/
theorem split_merge :
    (split sockets n s).1.sets =
      restrict s (fun _ fd => decide (fd < n) && isVcomSocketFd sockets fd) ∧
    (split sockets n s).2.sets =
      restrict s (fun _ fd => decide (fd < n) && !isVcomSocketFd sockets fd) ∧
    IsNfds (nfdsOf (split sockets n s).1.maxFd) (split sockets n s).1.sets ∧
    IsNfds (nfdsOf (split sockets n s).2.maxFd) (split sockets n s).2.sets ∧
    (split sockets n s).1.nfd = bitCount n (split sockets n s).1.sets ∧
    (split sockets n s).2.nfd = bitCount n (split sockets n s).2.sets ∧
    (mergeBack sockets n s).sets = restrict s (fun _ fd => decide (fd < n)) ∧
    (mergeBack sockets n s).nfd = (split sockets n s).1.nfd + (split sockets n s).2.nfd := by
  refine ⟨split_vcom sockets n s, split_libc sockets n s, ?_, ?_, ?_, ?_,
    mergeBack_sets sockets n s, mergeBack_nfd sockets n s⟩
  · rw [split_eq]
    exact isNfds_marks
  · rw [split_eq]
    exact isNfds_marks
  · rw [split_eq]
    exact nfd_marks
  · rw [split_eq]
    exact nfd_marks

end Split

section Sids

variable {sockets : Sockets} {n : Nat} {fds : SelectSets}

def below (n : Nat) (fds : SelectSets) : SelectSets := restrict fds (fun _ fd => decide (fd < n))

theorem marks_below :
    (markAll (isSet fds) id (fdLoop n) (emptyMarks (zeroSets fds))).sets = below n fds := by
  have h := markAll_zeroSets fds (fun _ _ => true) n
  simp only [Bool.and_true] at h
  exact h

theorem countFds_nfds : IsNfds (nfdsOf (countFds n fds).1) (below n fds) := by
  rw [countFds_eq, ← marks_below]
  exact isNfds_marks

theorem sidMarks_isSet (h : Watchable sockets fds) (k : FdKind) (i : Nat) :
    isSet (sidMarks sockets n fds).sets k i = true ↔
      ∃ fd, isSet fds k fd = true ∧ fd < n ∧ vcomSocketGetSid sockets fd = some i := by
  rw [sidMarks, isSet_marks]
  constructor
  · rintro ⟨_, fd, hx, hs, rfl⟩
    exact ⟨fd, hs, mem_fdLoop.mp hx, (h.sid hs).1⟩
  · rintro ⟨fd, hs, hlt, hsid⟩
    refine ⟨isSet_le_present hs, fd, mem_fdLoop.mpr hlt, hs, ?_⟩
    rw [sidOf, hsid]
    rfl

theorem sidMarks_nfd : (sidMarks sockets n fds).nfd = bitCount n fds := by
  rw [← countFds_count, countFds_eq, sidMarks, nfd_markAll, nfd_markAll]

/-- The way from the descriptors to their session ids, and back from those that
are reported ready. -/
theorem sids_and_back (h : Watchable sockets fds) :
    ∃ m, vcomSocketFds2SidFds sockets (zeroSets fds) n fds = some (.ok m) ∧
      (∀ k, present m.sets k = present fds k) ∧
      (∀ k i, isSet m.sets k i = true ↔
        ∃ fd, isSet fds k fd = true ∧ fd < n ∧ vcomSocketGetSid sockets fd = some i) ∧
      m.nfd = bitCount n fds ∧ IsNfds (nfdsOf m.maxFd) m.sets ∧
      ∀ (ready : FdKind → Nat → Bool) (newVcomNfds : Nat), ∃ nfds fds',
        vcomSocketSidFds2Fds sockets n fds (restrict m.sets ready) newVcomNfds =
          some ((bitCount n fds' : Int), nfds, fds') ∧
        IsNfds nfds (below n fds') ∧ (∀ k, present fds' k = present fds k) ∧
        ∀ k fd, isSet fds' k fd = true ↔ isSet fds k fd = true ∧ (fd < n →
          ∃ sid, vcomSocketGetSid sockets fd = some sid ∧
            isSet (restrict m.sets ready) k sid = true) := by
  refine ⟨sidMarks sockets n fds, vcomSocketFds2SidFds_eq h,
    present_sidMarks, sidMarks_isSet h, sidMarks_nfd, isNfds_marks, fun ready old => ?_⟩
  have hp : ∀ k, present (restrict (sidMarks sockets n fds).sets ready) k = present fds k := by
    intro k
    rw [present_restrict, present_sidMarks]
  obtain ⟨fds', hclear, hpresent, hbits⟩ := clearIdle_spec (fdLoop n) hp h
  refine ⟨nfdsOf (countFds n fds').1, fds', ?_, countFds_nfds, hpresent, fun k fd => ?_⟩
  · rw [vcomSocketSidFds2Fds, hclear, ← countFds_count]
  · rw [hbits, mem_fdLoop]
    refine and_congr_right fun hs => forall_congr' fun _ => ?_
    rw [(h.sid hs).1]
    simp

end Sids

def crossedSockets : Sockets := fun fd =>
  if fd = 3 then some ⟨.vppcomBound, some 7⟩
  else if fd = 5 then some ⟨.vppcomBound, some 2⟩ else none

def bothRead : SelectSets := fun k =>
  if k = .read then some (fun fd => fd == 3 || fd == 5) else none

theorem sids_and_back_sample :
    ∃ m, vcomSocketFds2SidFds crossedSockets (zeroSets bothRead) 6 bothRead = some (.ok m) ∧
      isSet m.sets .read 7 = true ∧ m.nfd = 2 ∧
      ∃ nfds fds', vcomSocketSidFds2Fds crossedSockets 6 bothRead
          (restrict m.sets (fun _ sid => sid == 7)) 0 = some ((bitCount 6 fds' : Int), nfds, fds') ∧
        (isSet fds' .read 5 = true ↔ isSet bothRead .read 5 = true ∧ (5 < 6 →
          ∃ sid, vcomSocketGetSid crossedSockets 5 = some sid ∧
            isSet (restrict m.sets (fun _ sid => sid == 7)) .read sid = true)) := by
  have hw : Watchable crossedSockets bothRead := by
    intro k fd hs
    cases k with
    | read =>
      have hor : fd = 3 ∨ fd = 5 := by simpa [isSet, bothRead] using hs
      obtain rfl | rfl := hor
      · exact ⟨7, rfl, by decide⟩
      · exact ⟨2, rfl, by decide⟩
    | write => cases hs
    | except => cases hs
  obtain ⟨m, hm, _, hsids, hn, _, hback⟩ := sids_and_back (n := 6) hw
  obtain ⟨nfds, fds', hrun, _, _, hbits⟩ := hback (fun _ sid => sid == 7) 0
  refine ⟨m, hm, (hsids .read 7).mpr ⟨3, rfl, by decide, rfl⟩, ?_, nfds, fds', hrun, hbits .read 5⟩
  rw [hn]
  decide

end Vppsb.VcomSets
