import Vppsb.VcomEpollSets

namespace Vppsb.VcomEpollReuse

open Vppsb.StepRun Vppsb.PoolStore Vppsb.KeyedPool Vppsb.PoolIndex
open Vppsb.VcomSockets Vppsb.VcomCalls Vppsb.VcomEdits Vppsb.VcomEpollSets

variable {t : Terms} {w w' : World} {s : VcomSocketMain} {epfd fd : Int} {i j : Nat} {a : Act}

def Vacant (s : VcomSocketMain) (epfd : Int) : Prop :=
  ∀ i, Live s.vepitems i → (s.vepitems.elt i).epfd ≠ epfd

structure Purged (s : VcomSocketMain) (epfd : Int) : Prop where
  items : Vacant s epfd
  pairs : ∀ fd, s.epitemidxByEpfdfd (epfd, fd) = none
  byEpfd : s.epitemidxsByEpfd epfd = none
  byFd : ∀ fd, ∀ i ∈ members s.epitemidxsByFd fd, (s.vepitems.elt i).epfd ≠ epfd

theorem members_none {κ : Type} {vecs : κ → Option (List Nat)} {k : κ} (hn : vecs k ≠ some [])
    (hm : members vecs k = []) : vecs k = none := by
  unfold members at hm
  cases hl : vecs k with
  | none => rfl
  | some l =>
    rw [hl, Option.getD_some] at hm
    rw [hl, hm] at hn
    exact absurd rfl hn

theorem Vacant.purged (h : Vacant s epfd) (hi : Items s) : Purged s epfd := by
  refine ⟨h, fun fd => ?_, ?_, fun fd i hm => h i ((hi.byFd.mem fd i).mp hm).1⟩
  · cases hp : s.epitemidxByEpfdfd (epfd, fd) with
    | none => rfl
    | some i =>
      have hk := hi.table.hashed.key_eq hp
      exact absurd (congrArg Prod.fst hk) (h i (hi.table.hashed.live hp))
  · exact members_none (hi.byEpfd.nonempty epfd) (members_eq_nil hi h)

theorem vacant_edit (h : Sound w) (hv : Vacant w.vsm epfd) (ht : ¬ t.grows epfd)
    (he : Edit t w w') : Vacant w'.vsm epfd := by
  intro i hl hi
  obtain ⟨hl, hk⟩ | ⟨hg, _⟩ := item_edit h he hl
  · exact hv i hl ((congrArg Prod.fst hk).symm.trans hi)
  · exact ht (hi ▸ hg)

theorem run_vacant {es : List Act} (h : Sound w) (hv : Vacant w.vsm epfd)
    (hr : run step w es = some w') (hg : ∀ a ∈ es, ¬ Grows a epfd) :
    Sound w' ∧ Vacant w'.vsm epfd :=
  run_keeps (P := fun u => Vacant u.vsm epfd) h hv hr (meets_of_forall hg)
    fun _ _ _ _ hn hu hp he => vacant_edit hu hp hn he

def Manned (s : VcomSocketMain) : Prop := ∀ i, Live s.vepitems i → IsOpen s (s.vepitems.elt i).fd

theorem manned_edit (h : Sound w) (hm : Manned w.vsm) (ht : ¬ t.inSet) (he : Edit t w w') :
    Manned w'.vsm := by
  intro i hl
  obtain ⟨hl, hk⟩ | ⟨_, ho⟩ := item_edit h he hl
  · have hfd : (w'.vsm.vepitems.elt i).fd = (w.vsm.vepitems.elt i).fd := congrArg Prod.snd hk
    rw [hfd]
    obtain ho | hset | hset := isOpen_edit he (hm i hl)
    · exact ho
    · exact absurd rfl (hset i hl)
    · exact absurd hset ht
  · exact ho

theorem run_manned {es : List Act} (hr : run step start es = some w)
    (hd : Meets step FullDuty start es) : Manned w.vsm :=
  (run_keeps (P := fun u => Manned u.vsm) sound_start
    (fun i hi => absurd hi.1 (Nat.not_lt_zero i)) hr hd
    fun _ _ _ _ hduty hu hm he => manned_edit hu hm (not_not.mpr hduty) he).2

/-- The instance has no members and counts none, and it takes the first one that is
added, whatever is done before. -/
structure Blank (w : World) (epfd : Int) : Prop where
  count : ∃ j, w.vsm.epollidxByEpfd epfd = some j ∧ (w.vsm.vepolls.elt j).count = 0
  purged : Purged w.vsm epfd
  takes : ∀ es w' fd event rv, run step w es = some w' → (∀ a ∈ es, ¬ Grows a epfd) →
    w'.vsm.epollidxByEpfd epfd ≠ none → IsOpen w'.vsm fd → 0 ≤ rv →
    (vcomSocketEpollCtl w'.vsm epfd epollCtlAdd fd event rv).2 = 0

theorem add_taken (h : Sound w) (hp : w.vsm.epitemidxByEpfdfd (epfd, fd) = none)
    (he : w.vsm.epollidxByEpfd epfd ≠ none) (ho : IsOpen w.vsm fd) {event : EpollEvent} {rv : Int}
    (hrv : 0 ≤ rv) : (vcomSocketEpollCtl w.vsm epfd epollCtlAdd fd event rv).2 = 0 := by
  obtain ⟨j, hj⟩ := Option.ne_none_iff_exists'.mp he
  obtain ⟨type, hr⟩ := @epollCtl_reaches w fd epfd j h epollCtlAdd event rv hj hrv ho
  rw [hr, vcomSocketCtlVepitem, if_pos rfl, hp]

theorem created_blank (h : Sound w) (hv : Vacant w.vsm epfd) {flags : Int32} {r c : Libc}
    {vepIdx : Int} (hf : Fits w (.epollCreate1 flags r vepIdx c)) (h0 : 0 ≤ epfd)
    (hc : call w (.epollCreate1 flags r vepIdx c) = (w', epfd)) : Blank w' epfd := by
  have hs : Sound w' := by
    have he := call_edits h hf
    rw [hc] at he
    exact h.edits he
  obtain ⟨_, hneg⟩ | ⟨_, _, _, he⟩ := @epollCreate1_cases w vepIdx flags r c hf.1
  · rw [call] at hc
    rw [hc] at hneg
    exact absurd h0 (Int.not_le.mpr hneg)
  · rw [call, he, Prod.mk.injEq] at hc
    obtain ⟨rfl, rfl⟩ := hc
    refine ⟨⟨fresh w.vsm.vepolls, Function.update_self _ _ _, ?_⟩,
      Vacant.purged (s := addVepoll w.vsm r.rv vepIdx flags) hv hs.items, ?_⟩
    · rw [addVepoll, elt_insert_fresh]
    · intro es w₂ fd event rv hr hg hne ho hrv
      obtain ⟨hs₂, hv₂⟩ := run_vacant hs hv hr hg
      exact add_taken hs₂ ((hv₂.purged hs₂.items).pairs fd) hne ho hrv

/-- Of an instance that is closed nothing is left in every run in which sockets are
removed from all instances before they are closed, and neither is it left as a member
of others if it is removed from them as well. The next instance with its number
starts without members. -/
theorem run_purged {es : List Act} (hr : run step start es = some w)
    (hd : Meets step Duty start es) (hc : w.vsm.epollidxByEpfd epfd = none) :
    Purged w.vsm epfd ∧
      (Meets step FullDuty start es → w.vsm.sockidxByFd epfd = none →
        InNoSet w.vsm epfd ∧ w.vsm.epitemidxsByFd epfd = none) ∧
      ∀ flags r vepIdx c w', Fits w (.epollCreate1 flags r vepIdx c) → 0 ≤ epfd →
        call w (.epollCreate1 flags r vepIdx c) = (w', epfd) → Blank w' epfd := by
  have h := run_sound hr
  have hcount := run_counted hr hd
  have hv : Vacant w.vsm epfd := by
    intro i hl hi
    obtain ⟨j, hj⟩ := hcount.hosted i hl
    rw [hi, hc] at hj
    cases hj
  refine ⟨hv.purged h.items, fun hfull hs => ?_, fun flags r vepIdx c w' hf h0 he =>
    created_blank h hv hf h0 he⟩
  have hset : InNoSet w.vsm epfd := by
    intro i hl hi
    have ho := run_manned hr hfull i hl
    rw [hi] at ho
    exact ho.elim (fun hne => hne hs) (fun hne => hne hc)
  refine ⟨hset, members_none (h.items.byFd.nonempty epfd) ?_⟩
  apply List.eq_nil_iff_forall_not_mem.mpr
  intro i hm
  obtain ⟨hl, hi⟩ := (h.items.byFd.mem epfd i).mp hm
  exact hset i hl hi

def takenOut : List Act :=
  [.socket afInet sockStream ⟨3, 0⟩ 0 ⟨0, 0⟩, .epollCreate1 0 ⟨4, 0⟩ 1 ⟨0, 0⟩,
    .epollCtl 4 epollCtlAdd 3 noEvent 0, .epollCtl 4 epollCtlDel 3 noEvent 0,
    .close 4 (fun _ => ⟨0, 0⟩)]

theorem run_purged_sample :
    ∃ w, run step start takenOut = some w ∧ w.fds = [3] ∧ Purged w.vsm 4 := by
  have hd : Meets step Duty start takenOut := by
    refine ⟨trivial, fun _ h₁ => ⟨trivial, fun _ h₂ => ⟨trivial, fun _ h₃ => ⟨trivial,
      fun t h₄ => ⟨fun hv => ?_, fun _ _ => trivial⟩⟩⟩⟩⟩
    obtain rfl := Option.some.inj h₁
    obtain rfl := Option.some.inj h₂
    obtain rfl := Option.some.inj h₃
    obtain rfl := Option.some.inj h₄
    -- the number is not that of a socket
    exact absurd hv Bool.false_ne_true
  exact ⟨_, rfl, rfl, (run_purged rfl hd rfl).1⟩

/-- A closed instance goes with the close of the socket in it. The next socket and
the next instance get their numbers, and the one is refused by the other. -/
theorem stale_member_refused :
    ∃ w, run step start [.socket afInet sockStream ⟨3, 0⟩ 0 ⟨0, 0⟩,
        .epollCreate1 0 ⟨4, 0⟩ 1 ⟨0, 0⟩, .epollCtl 4 epollCtlAdd 3 noEvent 0,
        .close 4 (fun _ => ⟨0, 0⟩), .close 3 (fun _ => ⟨0, 0⟩),
        .socket afInet sockStream ⟨3, 0⟩ 2 ⟨0, 0⟩, .epollCreate1 0 ⟨4, 0⟩ 3 ⟨0, 0⟩] = some w ∧
      w.vsm.epollidxByEpfd 4 = some 0 ∧ (w.vsm.vepolls.elt 0).count = 0 ∧
      w.vsm.epitemidxByEpfdfd (4, 3) = some 0 ∧
      (vcomSocketEpollCtl w.vsm 4 epollCtlAdd 3 noEvent 0).2 = -eexist :=
  ⟨_, rfl, rfl, rfl, rfl, rfl⟩

end Vppsb.VcomEpollReuse
