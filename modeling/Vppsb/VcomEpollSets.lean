import Vppsb.VcomEdits

namespace Vppsb.VcomEpollSets

open Vppsb.StepRun Vppsb.PoolStore Vppsb.KeyedPool Vppsb.PoolIndex
open Vppsb.VcomSockets Vppsb.VcomCalls Vppsb.VcomEdits

/-- Every item has an epoll instance, which counts its items. -/
structure Counted (s : VcomSocketMain) : Prop where
  hosted : ∀ i, Live s.vepitems i → ∃ j, s.epollidxByEpfd (s.vepitems.elt i).epfd = some j
  count : ∀ epfd j, s.epollidxByEpfd epfd = some j →
    (s.vepolls.elt j).count = (members s.epitemidxsByEpfd epfd).length

variable {t : Terms} {w w' : World} {s : VcomSocketMain} {epfd fd : Int} {i j : Nat}

theorem counted_start : Counted start.vsm :=
  ⟨fun i hi => absurd hi.1 (Nat.not_lt_zero i), fun _ _ hj => nomatch hj⟩

theorem members_eq_nil (hi : Items s)
    (h : ∀ i, Live s.vepitems i → (s.vepitems.elt i).epfd ≠ epfd) :
    members s.epitemidxsByEpfd epfd = [] := by
  apply List.eq_nil_iff_forall_not_mem.mpr
  intro i hm
  obtain ⟨hl, he⟩ := (hi.byEpfd.mem epfd i).mp hm
  exact h i hl he

theorem Counted.fresh_nil (h : Counted s) (hi : Items s) (hn : s.epollidxByEpfd epfd = none) :
    members s.epitemidxsByEpfd epfd = [] := by
  apply members_eq_nil hi
  rintro i hl rfl
  obtain ⟨j, hj⟩ := h.hosted i hl
  rw [hn] at hj
  cases hj

theorem Counted.recount {s t : VcomSocketMain} (h : Counted s) {v : VcomEpoll}
    (ht : Table VcomEpoll.epfd epollBound s.vepolls s.epollidxByEpfd)
    (hj : s.epollidxByEpfd epfd = some j) (hidx : t.epollidxByEpfd = s.epollidxByEpfd)
    (hv : t.vepolls = s.vepolls)
    (hh : ∀ i, Live t.vepitems i → ∃ k, s.epollidxByEpfd (t.vepitems.elt i).epfd = some k)
    (hc : v.count = (members t.epitemidxsByEpfd epfd).length)
    (hm : ∀ e, e ≠ epfd → members t.epitemidxsByEpfd e = members s.epitemidxsByEpfd e) :
    Counted (setVepoll t j v) := by
  refine ⟨fun i hl => ?_, fun e k hk => ?_⟩
  · rw [setVepoll, hidx]
    exact hh i hl
  · rw [setVepoll, hidx] at hk
    rw [setVepoll, hv]
    by_cases he : e = epfd
    · subst he
      obtain rfl := Option.some.inj (hk.symm.trans hj)
      rw [elt_set_self]
      exact hc
    · rw [elt_set_of_ne (ht.hashed.index_ne hk hj he), hm e he]
      exact h.count e k hk

theorem Counted.opened (hc : Counted w.vsm) (h : Sound w) (hfree : w.vsm.epollidxByEpfd epfd = none)
    (vepIdx : Int) (flags : Int32) : Counted (addVepoll w.vsm epfd vepIdx flags) := by
  refine ⟨fun i hi => ?_, fun e k hk => ?_⟩
  · obtain ⟨j, hj⟩ := hc.hosted i hi
    have hne : (w.vsm.vepitems.elt i).epfd ≠ epfd := by
      intro he
      rw [he, hfree] at hj
      cases hj
    exact ⟨j, (Function.update_of_ne hne _ _).trans hj⟩
  · by_cases he : e = epfd
    · subst he
      obtain rfl := Option.some.inj ((Function.update_self e _ _).symm.trans hk)
      have hcount : ((addVepoll w.vsm e vepIdx flags).vepolls.elt (fresh w.vsm.vepolls)).count =
          0 := by rw [addVepoll, elt_insert_fresh]
      rw [hcount]
      exact (congrArg (fun l => (List.length l : Int)) (hc.fresh_nil h.items hfree)).symm
    · have hk := (Function.update_of_ne he _ _).symm.trans hk
      have hold : (addVepoll w.vsm epfd vepIdx flags).vepolls.elt k = w.vsm.vepolls.elt k :=
        elt_insert_old (h.epolls.hashed.live hk)
      rw [hold]
      exact hc.count e k hk

theorem Counted.dropped (hc : Counted w.vsm) (h : Sound w) (hj : w.vsm.epollidxByEpfd epfd = some j)
    (h0 : (w.vsm.vepolls.elt j).count = 0) (r : Libc) : Counted (dropVepoll w epfd j r).1.vsm := by
  have hlen := hc.count epfd j hj
  have hnil : members w.vsm.epitemidxsByEpfd epfd = [] := by
    apply List.eq_nil_of_length_eq_zero
    omega
  refine ⟨fun i hi => ?_, fun e k hk => ?_⟩
  · have hne : (w.vsm.vepitems.elt i).epfd ≠ epfd := by
      intro he
      have hm := (h.items.byEpfd.mem epfd i).mpr ⟨hi, he⟩
      rw [hnil] at hm
      exact List.not_mem_nil hm
    obtain ⟨k, hk⟩ := hc.hosted i hi
    exact ⟨k, (Function.update_of_ne hne _ _).trans hk⟩
  · rw [epollidx_dropVepoll] at hk
    by_cases he : e = epfd
    · rw [he, Function.update_self] at hk
      cases hk
    · rw [Function.update_of_ne he] at hk
      rw [vepolls_dropVepoll, elt_remove_of_ne (h.epolls.hashed.index_ne hk hj he)]
      exact hc.count e k hk

theorem counted_edit (h : Sound w) (hc : Counted w.vsm) (ht : ¬ t.forced) (he : Edit t w w') :
    Counted w'.vsm := by
  cases he with
  | addVsock fd sid hfd hn hs => exact ⟨hc.hosted, hc.count⟩
  | addVepoll epfd vepIdx flags hfd hn hs => exact hc.opened h (h.epoll_free hfd) vepIdx flags
  | loseSession sid hl => exact hc
  | addVepitem x j hx hj hi hg ho =>
    apply hc.recount (t := addVepitem w.vsm x) h.epolls hj rfl rfl
    · intro i hl
      cases (live_insert h.items.table.wf i).mp hl with
      | inl hl =>
        have hold : (insert w.vsm.vepitems x).elt i = w.vsm.vepitems.elt i := elt_insert_old hl
        rw [addVepitem, hold]
        exact hc.hosted i hl
      | inr hl =>
        rw [addVepitem, hl, elt_insert_fresh]
        exact ⟨j, hj⟩
    · change (w.vsm.vepolls.elt j).count + 1 = _
      rw [addVepitem, members_addIndex, if_pos rfl, List.length_append, hc.count x.epfd j hj]
      rfl
    · intro e he
      rw [addVepitem, members_addIndex, if_neg he]
  | setVepitem i x hi hx =>
    refine ⟨fun k hk => ?_, hc.count⟩
    have hfst : x.epfd = (w.vsm.vepitems.elt i).epfd := congrArg Prod.fst hx
    have hkey : ((set w.vsm.vepitems i x).elt k).epfd = (w.vsm.vepitems.elt k).epfd :=
      key_set hfst k
    rw [hkey]
    exact hc.hosted k hk
  | delVepitem i j byEpfd byFd hi hj he hf hclose =>
    have hm := (h.items.byEpfd.mem _ i).mpr ⟨hi, rfl⟩
    obtain ⟨hp, _, hother⟩ := delIndex_members hm he
    apply hc.recount (t := delVepitem w.vsm i byEpfd byFd) h.epolls hj rfl rfl
    · intro k hl
      obtain ⟨hl, hne⟩ := live_remove.mp hl
      have hold : (remove w.vsm.vepitems i vepitemInit).elt k = w.vsm.vepitems.elt k :=
        elt_remove_of_ne hne
      rw [delVepitem, hold]
      exact hc.hosted k hl
    · have hlen := hp.length_eq.trans (List.length_erase_of_mem hm)
      have hpos := List.length_pos_of_mem hm
      have hcount := hc.count _ j hj
      change (w.vsm.vepolls.elt j).count - 1 = ((members byEpfd _).length : Int)
      omega
    · intro e he
      change (byEpfd e).getD [] = _
      rw [hother e he, members]
  | markClosed j hj hcount =>
    have hfind := h.epolls.hashed.find hj
    exact hc.recount h.epolls hfind rfl rfl hc.hosted (hc.count _ j hfind) fun _ _ => rfl
  | lower j hj hcount hf => exact absurd hf ht
  | dropVsock fd i r hi hm => exact ⟨hc.hosted, hc.count⟩
  | dropVepoll epfd j r hj hf hset => exact hc.dropped h hj (hf.resolve_right ht) r

theorem run_counted {es : List Act} (hr : run step start es = some w)
    (hd : Meets step Duty start es) : Counted w.vsm :=
  (run_keeps (P := fun u => Counted u.vsm) sound_start counted_start hr hd
    fun _ _ _ _ hduty hu hc he => counted_edit hu hc (not_not.mpr hduty) he).2

/-- The pool of items and its three indexes hold the same pairs, each of them once,
for epoll instances that are open and count their pairs. -/
structure Described (s : VcomSocketMain) : Prop where
  pairs : ∀ epfd fd i, s.epitemidxByEpfdfd (epfd, fd) = some i ↔
    Live s.vepitems i ∧ (s.vepitems.elt i).epfd = epfd ∧ (s.vepitems.elt i).fd = fd
  byEpfd : ∀ epfd, s.epitemidxsByEpfd epfd ≠ some [] ∧
    (members s.epitemidxsByEpfd epfd).Nodup ∧ ∀ i, i ∈ members s.epitemidxsByEpfd epfd ↔
      Live s.vepitems i ∧ (s.vepitems.elt i).epfd = epfd
  byFd : ∀ fd, s.epitemidxsByFd fd ≠ some [] ∧
    (members s.epitemidxsByFd fd).Nodup ∧ ∀ i, i ∈ members s.epitemidxsByFd fd ↔
      Live s.vepitems i ∧ (s.vepitems.elt i).fd = fd
  hosted : ∀ i, Live s.vepitems i → ∃ j,
    s.epollidxByEpfd (s.vepitems.elt i).epfd = some j ∧ Live s.vepolls j
  count : ∀ epfd j, s.epollidxByEpfd epfd = some j →
    (s.vepolls.elt j).count = (members s.epitemidxsByEpfd epfd).length

theorem described (h : Sound w) (hc : Counted w.vsm) : Described w.vsm := by
  refine ⟨fun epfd fd i => ?_, fun epfd => ?_, fun fd => ?_, fun i hi => ?_, hc.count⟩
  · rw [h.items.table.hashed, VcomEpitem.epfdfd, Prod.mk.injEq]
  · exact ⟨h.items.byEpfd.nonempty epfd, h.items.byEpfd.nodup epfd, h.items.byEpfd.mem epfd⟩
  · exact ⟨h.items.byFd.nonempty fd, h.items.byFd.nodup fd, h.items.byFd.mem fd⟩
  · obtain ⟨j, hj⟩ := hc.hosted i hi
    exact ⟨j, hj, h.epolls.hashed.live hj⟩

/-- The tables of the epoll instances agree in every run in which sockets are taken
out of all instances before they are closed, and `EPOLL_CTL_DEL` comes to its end
when it finds the pair. -/
theorem run_described {es : List Act} (hr : run step start es = some w)
    (hd : Meets step Duty start es) : Described w.vsm ∧
      ∀ epfd fd event j type, w.vsm.epitemidxByEpfdfd (epfd, fd) ≠ none →
        (vcomSocketCtlVepitem w.vsm epfd epollCtlDel fd event j type).2 = 0 := by
  have h := run_sound hr
  refine ⟨described h (run_counted hr hd), fun epfd fd event j type hk => ?_⟩
  obtain ⟨i, hi⟩ := Option.ne_none_iff_exists'.mp hk
  obtain ⟨byEpfd, byFd, he, hf⟩ := h.items.deletable hi
  rw [ctlDel_found h.items hi he hf]

/-- A socket is put into an instance and taken out again before it is closed. -/
def inAndOut : List Act :=
  [.socket afInet sockStream ⟨3, 0⟩ 0 ⟨0, 0⟩, .epollCreate1 0 ⟨4, 0⟩ 1 ⟨0, 0⟩,
    .epollCtl 4 epollCtlAdd 3 noEvent 0, .epollCtl 4 epollCtlDel 3 noEvent 0,
    .close 3 (fun _ => ⟨0, 0⟩)]

theorem run_described_sample :
    ∃ w, run step start inAndOut = some w ∧ Described w.vsm ∧
      w.vsm.epollidxByEpfd 4 = some 0 ∧ w.fds = [4] := by
  have hd : Meets step Duty start inAndOut := by
    refine ⟨trivial, fun _ h₁ => ⟨trivial, fun _ h₂ => ⟨trivial, fun _ h₃ => ⟨trivial,
      fun t h₄ => ⟨fun _ x hx => ?_, fun _ _ => trivial⟩⟩⟩⟩⟩
    obtain rfl := Option.some.inj h₁
    obtain rfl := Option.some.inj h₂
    obtain rfl := Option.some.inj h₃
    obtain rfl := Option.some.inj h₄
    -- the only item is free again
    have hlt : x < 1 := hx.1
    have hfree : x ∉ [0] := hx.2
    simp at hfree
    omega
  exact ⟨_, rfl, (run_described rfl hd).1, rfl, rfl⟩

end Vppsb.VcomEpollSets
