import Mathlib.Logic.Relation
import Vppsb.VcomCalls

namespace Vppsb.VcomEdits

open Vppsb.StepRun Vppsb.PoolStore Vppsb.KeyedPool Vppsb.PoolIndex Vppsb.VcomSockets Vppsb.VcomCalls

/-- The end of a successful `EPOLL_CTL_DEL`, but for the count. -/
def delVepitem (s : VcomSocketMain) (i : Nat) (byEpfd byFd : Int → Option (List Nat)) :
    VcomSocketMain :=
  { s with
    epitemidxByEpfdfd := Function.update s.epitemidxByEpfdfd (s.vepitems.elt i).epfdfd none
    epitemidxsByEpfd := byEpfd
    epitemidxsByFd := byFd
    vepitems := remove s.vepitems i vepitemInit }

def InNoSet (s : VcomSocketMain) (fd : Int) : Prop :=
  ∀ x, Live s.vepitems x → (s.vepitems.elt x).fd ≠ fd

def IsOpen (s : VcomSocketMain) (fd : Int) : Prop :=
  s.sockidxByFd fd ≠ none ∨ s.epollidxByEpfd fd ≠ none

/-- What may happen: a session is lost, an epoll instance is changed by the close of a
member, a descriptor is closed that is in an instance, the count of a closed instance
becomes zero, a member is added to an instance. -/
structure Terms where
  lost : Prop
  forced : Prop
  inSet : Prop
  idle : Prop
  grows : Int → Prop

/-- The elementary changes that the calls consist of. -/
inductive Edit (t : Terms) (w : World) : World → Prop
  | addVsock (fd sid : Int) (hfd : fd ∉ w.fds) (hn : sid ∉ w.sessions) (hs : 0 ≤ sid) :
      Edit t w ⟨addVsock w.vsm fd sid, fd :: w.fds, sid :: w.sessions⟩
  | addVepoll (epfd vepIdx : Int) (flags : Int32) (hfd : epfd ∉ w.fds)
      (hn : vepIdx ∉ w.sessions) (hs : 0 ≤ vepIdx) :
      Edit t w
        ⟨addVepoll w.vsm epfd vepIdx flags, epfd :: w.fds, vepIdx :: w.sessions⟩
  | loseSession (sid : Int) (hl : t.lost) : Edit t w (openSession w sid)
  | addVepitem (x : VcomEpitem) (j : Nat) (hx : w.vsm.epitemidxByEpfdfd x.epfdfd = none)
      (hj : w.vsm.epollidxByEpfd x.epfd = some j)
      (hi : (w.vsm.vepolls.elt j).close = true → (w.vsm.vepolls.elt j).count = -1 → t.idle)
      (hg : t.grows x.epfd) (ho : IsOpen w.vsm x.fd) :
      Edit t w { w with
        vsm := setVepoll (addVepitem w.vsm x) j
          { w.vsm.vepolls.elt j with count := (w.vsm.vepolls.elt j).count + 1 } }
  | setVepitem (i : Nat) (x : VcomEpitem) (hi : Live w.vsm.vepitems i)
      (hx : x.epfdfd = (w.vsm.vepitems.elt i).epfdfd) :
      Edit t w { w with vsm := { w.vsm with vepitems := set w.vsm.vepitems i x } }
  | delVepitem (i j : Nat) (byEpfd byFd : Int → Option (List Nat)) (hi : Live w.vsm.vepitems i)
      (hj : w.vsm.epollidxByEpfd (w.vsm.vepitems.elt i).epfd = some j)
      (he : delIndex w.vsm.epitemidxsByEpfd (w.vsm.vepitems.elt i).epfd i = some byEpfd)
      (hf : delIndex w.vsm.epitemidxsByFd (w.vsm.vepitems.elt i).fd i = some byFd)
      (hc : (w.vsm.vepolls.elt j).close = true → (w.vsm.vepolls.elt j).count = 1 → t.idle) :
      Edit t w { w with
        vsm := setVepoll (delVepitem w.vsm i byEpfd byFd) j
          { w.vsm.vepolls.elt j with count := (w.vsm.vepolls.elt j).count - 1 } }
  | markClosed (j : Nat) (hj : Live w.vsm.vepolls j) (hc : (w.vsm.vepolls.elt j).count ≠ 0) :
      Edit t w { w with
        vsm := setVepoll w.vsm j { w.vsm.vepolls.elt j with close := true } }
  | lower (j : Nat) (hj : Live w.vsm.vepolls j) (hc : (w.vsm.vepolls.elt j).count ≠ 1)
      (hf : t.forced) :
      Edit t w { w with
        vsm := setVepoll w.vsm j
          { w.vsm.vepolls.elt j with count := (w.vsm.vepolls.elt j).count - 1 } }
  | dropVsock (fd : Int) (i : Nat) (r : Libc) (hi : w.vsm.sockidxByFd fd = some i)
      (hm : InNoSet w.vsm fd ∨ t.inSet) :
      Edit t w (dropVsock w fd i r).1
  | dropVepoll (epfd : Int) (j : Nat) (r : Libc) (hj : w.vsm.epollidxByEpfd epfd = some j)
      (hf : (w.vsm.vepolls.elt j).count = 0 ∨ t.forced) (hm : InNoSet w.vsm epfd ∨ t.inSet) :
      Edit t w (dropVepoll w epfd j r).1

def Edits (t : Terms) : World → World → Prop := Relation.ReflTransGen (Edit t)

def sockBound (v : VcomSocket) : Prop := v.type = .vppcomBound ∧ 0 ≤ v.sid
def epollBound (v : VcomEpoll) : Prop := v.type = .vppcomBound ∧ 0 ≤ v.vepIdx

/-- The pool of items and its three indexes agree. -/
structure Items (s : VcomSocketMain) : Prop where
  table : Table VcomEpitem.epfdfd (fun _ => True) s.vepitems s.epitemidxByEpfdfd
  byEpfd : Indexed VcomEpitem.epfd s.vepitems s.epitemidxsByEpfd
  byFd : Indexed VcomEpitem.fd s.vepitems s.epitemidxsByFd

structure Sound (w : World) : Prop where
  socks : Table VcomSocket.fd sockBound w.vsm.vsockets w.vsm.sockidxByFd
  epolls : Table VcomEpoll.epfd epollBound w.vsm.vepolls w.vsm.epollidxByEpfd
  fds : Owned w.fds (column VcomSocket.fd w.vsm.vsockets) (column VcomEpoll.epfd w.vsm.vepolls)
  items : Items w.vsm

variable {t : Terms} {w w' : World} {fd epfd sid : Int} {i j : Nat}

theorem sound_start : Sound start :=
  ⟨table_empty _, table_empty _, ⟨List.nodup_nil, List.Perm.nil⟩,
    table_empty _, indexed_empty _, indexed_empty _⟩

theorem Sound.sock_free (h : Sound w) (hfd : fd ∉ w.fds) : w.vsm.sockidxByFd fd = none := by
  apply h.socks.hashed.none_of_notMem
  intro hm
  exact hfd (h.fds.perm.mem_iff.mpr (List.mem_append_left _ hm))

theorem Sound.epoll_free (h : Sound w) (hfd : fd ∉ w.fds) : w.vsm.epollidxByEpfd fd = none := by
  apply h.epolls.hashed.none_of_notMem
  intro hm
  exact hfd (h.fds.perm.mem_iff.mpr (List.mem_append_right _ hm))

theorem Sound.setVepoll (h : Sound w) {v : VcomEpoll} (he : v.epfd = (w.vsm.vepolls.elt j).epfd)
    (hb : epollBound v) : Sound { w with vsm := setVepoll w.vsm j v } := by
  have hc : column VcomEpoll.epfd (set w.vsm.vepolls j v) = column VcomEpoll.epfd w.vsm.vepolls :=
    column_set he
  refine ⟨h.socks, h.epolls.set he hb, ?_, h.items.table, h.items.byEpfd, h.items.byFd⟩
  have hf := h.fds
  rw [← hc] at hf
  exact hf

theorem Items.add {s : VcomSocketMain} (h : Items s) {x : VcomEpitem}
    (hx : s.epitemidxByEpfdfd x.epfdfd = none) : Items (addVepitem s x) :=
  ⟨h.table.insert hx trivial, h.byEpfd.insert h.table.wf, h.byFd.insert h.table.wf⟩

theorem Items.set {s : VcomSocketMain} (h : Items s) {x : VcomEpitem}
    (hx : x.epfdfd = (s.vepitems.elt i).epfdfd) :
    Items { s with vepitems := set s.vepitems i x } :=
  ⟨h.table.set hx trivial, h.byEpfd.set (congrArg Prod.fst hx), h.byFd.set (congrArg Prod.snd hx)⟩

theorem Items.del {s : VcomSocketMain} (h : Items s) (hi : Live s.vepitems i)
    {byEpfd byFd : Int → Option (List Nat)}
    (he : delIndex s.epitemidxsByEpfd (s.vepitems.elt i).epfd i = some byEpfd)
    (hf : delIndex s.epitemidxsByFd (s.vepitems.elt i).fd i = some byFd) :
    Items (delVepitem s i byEpfd byFd) :=
  ⟨h.table.remove (h.table.hashed.find hi), h.byEpfd.remove hi he, h.byFd.remove hi hf⟩

theorem Sound.edit (h : Sound w) (he : Edit t w w') : Sound w' := by
  obtain ⟨hsocks, hepolls, hfds, hitems⟩ := h
  have h : Sound w := ⟨hsocks, hepolls, hfds, hitems⟩
  obtain ⟨ht, hbe, hbf⟩ := hitems
  cases he with
  | addVsock fd sid hfd hn hs =>
    refine ⟨hsocks.insert (h.sock_free hfd) ⟨rfl, hs⟩, hepolls, ?_, ht, hbe, hbf⟩
    exact hfds.cons hfd (column_insert _ hsocks.wf)
  | addVepoll epfd vepIdx flags hfd hn hs =>
    refine ⟨hsocks, hepolls.insert (h.epoll_free hfd) ⟨rfl, hs⟩, ?_, ht, hbe, hbf⟩
    exact (hfds.symm.cons hfd (column_insert _ hepolls.wf)).symm
  | loseSession sid hl => exact ⟨hsocks, hepolls, hfds, ht, hbe, hbf⟩
  | addVepitem x j hx hj hi hg ho =>
    have hs := h.setVepoll (v := { w.vsm.vepolls.elt j with
      count := (w.vsm.vepolls.elt j).count + 1 }) rfl (hepolls.found hj)
    have hadd := h.items.add hx
    exact ⟨hs.socks, hs.epolls, hs.fds, hadd.table, hadd.byEpfd, hadd.byFd⟩
  | setVepitem i x hi hx => exact ⟨hsocks, hepolls, hfds, h.items.set hx⟩
  | delVepitem i j byEpfd byFd hi hj he hf hc =>
    have hs := h.setVepoll (v := { w.vsm.vepolls.elt j with
      count := (w.vsm.vepolls.elt j).count - 1 }) rfl (hepolls.found hj)
    have hdel := h.items.del hi he hf
    exact ⟨hs.socks, hs.epolls, hs.fds, hdel.table, hdel.byEpfd, hdel.byFd⟩
  | markClosed j hj hc => exact h.setVepoll rfl (hepolls.good j hj)
  | lower j hj hc hf => exact h.setVepoll rfl (hepolls.good j hj)
  | dropVsock fd i r hi hm =>
    refine ⟨hsocks.remove hi, hepolls, ?_, ht, hbe, hbf⟩
    exact hfds.erase (column_remove _ (hsocks.hashed.live hi))
  | dropVepoll epfd j r hj hf hm =>
    refine ⟨hsocks, hepolls.remove hj, ?_, ht, hbe, hbf⟩
    exact (hfds.symm.erase (column_remove _ (hepolls.hashed.live hj))).symm

theorem item_edit (h : Sound w) (he : Edit t w w') (hl : Live w'.vsm.vepitems i) :
    (Live w.vsm.vepitems i ∧ (w'.vsm.vepitems.elt i).epfdfd = (w.vsm.vepitems.elt i).epfdfd) ∨
      (t.grows (w'.vsm.vepitems.elt i).epfd ∧ IsOpen w'.vsm (w'.vsm.vepitems.elt i).fd) := by
  cases he with
  | addVepitem x j hx hj hi hg ho =>
    rw [setVepoll, addVepitem] at hl ⊢
    cases (live_insert h.items.table.wf i).mp hl with
    | inl hl => exact Or.inl ⟨hl, by rw [elt_insert_old hl]⟩
    | inr hl =>
      rw [hl, elt_insert_fresh]
      exact Or.inr ⟨hg, ho⟩
  | setVepitem k x hi hx => exact Or.inl ⟨hl, key_set hx i⟩
  | delVepitem k j byEpfd byFd hi hj he hf hc =>
    rw [setVepoll, delVepitem] at hl ⊢
    obtain ⟨hl, hne⟩ := live_remove.mp hl
    exact Or.inl ⟨hl, by rw [elt_remove_of_ne hne]⟩
  | _ => exact Or.inl ⟨hl, rfl⟩

theorem isOpen_edit (he : Edit t w w') (ho : IsOpen w.vsm fd) :
    IsOpen w'.vsm fd ∨ InNoSet w.vsm fd ∨ t.inSet := by
  have hadd : ∀ {hash : Int → Option Nat} {e : Int} {n : Nat}, hash fd ≠ none →
      Function.update hash e (some n) fd ≠ none := by
    intro hash e n hk
    by_cases hke : fd = e
    · rw [hke, Function.update_self]
      exact Option.some_ne_none n
    · rwa [Function.update_of_ne hke]
  cases he with
  | addVsock e sid hfd hn hs => exact Or.inl (ho.imp_left hadd)
  | addVepoll e vepIdx flags hfd hn hs => exact Or.inl (ho.imp_right hadd)
  | dropVsock e i r hi hset =>
    by_cases hfe : fd = e
    · exact Or.inr (hfe ▸ hset)
    · refine Or.inl (ho.imp_left fun hs => ?_)
      rwa [sockidx_dropVsock, Function.update_of_ne hfe]
  | dropVepoll e j r hj hf hset =>
    by_cases hfe : fd = e
    · exact Or.inr (hfe ▸ hset)
    · refine Or.inl (ho.imp_right fun hs => ?_)
      rwa [epollidx_dropVepoll, Function.update_of_ne hfe]
  | _ => exact Or.inl ho

theorem Sound.edits (h : Sound w) (he : Edits t w w') : Sound w' := by
  induction he with
  | refl => exact h
  | tail _ he ih => exact ih.edit he

/-- What every elementary change keeps is kept by all of them. -/
theorem edits_keep {P : World → Prop} (h : Sound w) (hp : P w) (he : Edits t w w')
    (hkeep : ∀ u v, Sound u → P u → Edit t u v → P v) : P w' := by
  induction he with
  | refl => exact hp
  | tail hs he ih => exact hkeep _ _ (h.edits hs) ih he

theorem Edit.edits (he : Edit t w w') : Edits t w w' :=
  Relation.ReflTransGen.single he

theorem edits_refl : Edits t w w := Relation.ReflTransGen.refl

theorem Sound.getVepoll (h : Sound w) (epfd : Int) :
    vcomSocketGetVepIdxAndVepoll w.vsm epfd = w.vsm.epollidxByEpfd epfd := by
  unfold vcomSocketGetVepIdxAndVepoll
  cases hj : w.vsm.epollidxByEpfd epfd with
  | none => rfl
  | some j =>
    obtain ⟨ht, hv⟩ := h.epolls.found hj
    have hne : (w.vsm.vepolls.elt j).vepIdx ≠ invalidVepIdx := by
      rw [invalidVepIdx, invalidSessionId]
      omega
    exact if_pos ⟨ht, hne⟩

theorem Sound.getVsock (h : Sound w) (fd : Int) :
    vcomSocketGetSidAndVsock w.vsm fd = w.vsm.sockidxByFd fd := by
  unfold vcomSocketGetSidAndVsock
  cases hi : w.vsm.sockidxByFd fd with
  | none => rfl
  | some i =>
    obtain ⟨ht, hs⟩ := h.socks.found hi
    have hne : (w.vsm.vsockets.elt i).sid ≠ invalidSessionId := by
      rw [invalidSessionId]
      omega
    exact if_pos ⟨ht, hne⟩

theorem Sound.isVcomFd (h : Sound w) (fd : Int) :
    vcomSocketIsVcomFd w.vsm fd = (w.vsm.sockidxByFd fd).isSome := by
  unfold vcomSocketIsVcomFd
  cases hi : w.vsm.sockidxByFd fd with
  | none => rfl
  | some i => exact decide_eq_true (h.socks.found hi).1

variable {closes : Int → Libc}

theorem closeVepoll_dropped (h : Sound w) (hj : w.vsm.epollidxByEpfd epfd = some j)
    (hc : (w.vsm.vepolls.elt j).count = 0) : vcomSocketCloseVepoll w epfd closes =
      dropVepoll w epfd j (closes (w.vsm.vepolls.elt j).epfd) := by
  unfold vcomSocketCloseVepoll
  rw [hj]
  dsimp only
  rw [if_neg (not_not.mpr (h.epolls.found hj).1), if_neg (not_not.mpr hc)]

theorem closeVepoll_edits (h : Sound w) (hm : InNoSet w.vsm epfd ∨ t.inSet) :
    Edits t w (vcomSocketCloseVepoll w epfd closes).1 := by
  cases hj : w.vsm.epollidxByEpfd epfd with
  | none =>
    unfold vcomSocketCloseVepoll
    rw [hj]
    exact edits_refl
  | some j =>
    by_cases hc : (w.vsm.vepolls.elt j).count = 0
    · rw [closeVepoll_dropped h hj hc]
      exact (Edit.dropVepoll epfd j _ hj (Or.inl hc) hm).edits
    · unfold vcomSocketCloseVepoll
      rw [hj]
      dsimp only
      rw [if_neg (not_not.mpr (h.epolls.found hj).1), if_pos hc]
      split
      · exact edits_refl
      · exact (Edit.markClosed j (h.epolls.hashed.live hj) hc).edits

/-- The count that is forced to zero does not show afterwards. -/
theorem dropVepoll_forced (r : Libc) : (dropVepoll { w with
    vsm := setVepoll w.vsm j { w.vsm.vepolls.elt j with count := 0 } } epfd j r).1 =
      (dropVepoll w epfd j r).1 := by
  simp only [dropVepoll, setVepoll, vcomSocketCloseEpoll, libcClose, vppcomSessionClose,
    elt_set_self, remove_set]

theorem closeEpitem_edits (h : Sound w) {x : Nat} (hf : (w.vsm.vepitems.elt x).fd = fd →
    (w.vsm.vepitems.elt x).type = .vcomSocket → t.forced)
    (hm : t.forced → t.inSet) : Edits t w (closeEpitem fd closes w x) ∧
      (closeEpitem fd closes w x).vsm.vepitems = w.vsm.vepitems := by
  unfold closeEpitem
  dsimp only
  rw [h.getVepoll]
  split
  · rename_i hx
    have hf := hf hx.1 hx.2
    cases hj : w.vsm.epollidxByEpfd (w.vsm.vepitems.elt x).epfd with
    | none => exact ⟨edits_refl, rfl⟩
    | some j =>
      have hl := h.epolls.hashed.live hj
      dsimp only
      split
      · split
        · rename_i hclose hone
          have hs := h.setVepoll (v := { w.vsm.vepolls.elt j with count := 0 }) rfl
            (h.epolls.good j hl)
          have hfind := h.epolls.hashed.find hl
          rw [closeVepoll_dropped hs hfind (by rw [setVepoll, elt_set_self]), dropVepoll_forced]
          exact ⟨(Edit.dropVepoll _ j _ hfind (Or.inr hf) (Or.inr (hm hf))).edits, rfl⟩
        · rename_i hclose hne
          exact ⟨(Edit.lower j hl hne hf).edits, rfl⟩
      · exact ⟨edits_refl, rfl⟩
  · exact ⟨edits_refl, rfl⟩

theorem closeEpitems_edits (h : Sound w) {l : List Nat} (hf : ∀ x ∈ l,
    (w.vsm.vepitems.elt x).fd = fd → (w.vsm.vepitems.elt x).type = .vcomSocket → t.forced)
    (hm : t.forced → t.inSet) : Edits t w (l.foldl (closeEpitem fd closes) w) := by
  induction l generalizing w with
  | nil => exact edits_refl
  | cons x l ih =>
    obtain ⟨he, hs⟩ : Edits t w (closeEpitem fd closes w x) ∧ _ :=
      closeEpitem_edits h (hf x List.mem_cons_self) hm
    have hl := ih (h.edits he) fun y hy => by
      rw [hs]
      exact hf y (List.mem_cons_of_mem x hy)
    exact Relation.ReflTransGen.trans he hl

theorem closeVsock_edits (h : Sound w) (hf : vcomSocketIsVcomFd w.vsm fd = true →
    ∀ x, Live w.vsm.vepitems x → (w.vsm.vepitems.elt x).fd = fd →
      (w.vsm.vepitems.elt x).type = .vcomSocket → t.forced)
    (hfm : t.forced → t.inSet) (hm : InNoSet w.vsm fd ∨ t.inSet) :
    Edits t w (vcomSocketCloseVsock w fd closes).1 := by
  unfold vcomSocketCloseVsock
  cases hi : w.vsm.sockidxByFd fd with
  | none => exact edits_refl
  | some i =>
    have hd : Edit t w (dropVsock w fd i (closes (w.vsm.vsockets.elt i).fd)).1 :=
      Edit.dropVsock fd i _ hi hm
    dsimp only
    rw [if_neg (not_not.mpr (h.socks.found hi).1)]
    refine hd.edits.trans (closeEpitems_edits (h.edit hd) (fun x hx => ?_) hfm)
    have hl := ((h.items.byFd.mem fd x).mp hx).1
    exact hf (by rw [h.isVcomFd, hi, Option.isSome_some]) x hl

theorem close_edits (h : Sound w) (hf : vcomSocketIsVcomFd w.vsm fd = true →
    ∀ x, Live w.vsm.vepitems x → (w.vsm.vepitems.elt x).fd = fd →
      (w.vsm.vepitems.elt x).type = .vcomSocket → t.forced)
    (hfm : t.forced → t.inSet) (hm : InNoSet w.vsm fd ∨ t.inSet) :
    Edits t w (vcomSocketClose w fd closes).1 := by
  unfold vcomSocketClose
  split
  · exact closeVsock_edits h hf hfm hm
  · split
    · exact closeVepoll_edits h hm
    · exact edits_refl

/-- An item of the pair is in the tables, so the exits of `EPOLL_CTL_DEL` after its
key was removed are not taken. -/
theorem Items.deletable {s : VcomSocketMain} (h : Items s)
    (hi : s.epitemidxByEpfdfd (epfd, fd) = some i) :
    ∃ byEpfd byFd, delIndex s.epitemidxsByEpfd epfd i = some byEpfd ∧
      delIndex s.epitemidxsByFd fd i = some byFd := by
  have hl := h.table.hashed.live hi
  have hk := h.table.hashed.key_eq hi
  obtain ⟨es, hes⟩ := delIndex_defined ((h.byEpfd.mem epfd i).mpr ⟨hl, congrArg Prod.fst hk⟩)
  obtain ⟨fs, hfs⟩ := delIndex_defined ((h.byFd.mem fd i).mpr ⟨hl, congrArg Prod.snd hk⟩)
  exact ⟨es, fs, hes, hfs⟩

theorem ctlDel_found {s : VcomSocketMain} {event : EpollEvent} {type : VcomFdType}
    {byEpfd byFd : Int → Option (List Nat)} (h : Items s)
    (hi : s.epitemidxByEpfdfd (epfd, fd) = some i)
    (he : delIndex s.epitemidxsByEpfd epfd i = some byEpfd)
    (hf : delIndex s.epitemidxsByFd fd i = some byFd) :
    vcomSocketCtlVepitem s epfd epollCtlDel fd event j type =
      (setVepoll (delVepitem s i byEpfd byFd) j
        { s.vepolls.elt j with count := (s.vepolls.elt j).count - 1 }, 0) := by
  have hadd : epollCtlDel ≠ epollCtlAdd := by decide
  have hmod : epollCtlDel ≠ epollCtlMod := by decide
  unfold vcomSocketCtlVepitem
  dsimp only
  rw [if_neg hadd, if_neg hmod, if_pos rfl, hi]
  dsimp only
  rw [he]
  dsimp only
  rw [hf, delVepitem, h.table.hashed.key_eq hi]

/-- A member is added to a closed instance with count -1, or the last one is taken
from a closed instance with count 1. -/
def EmptiesAt (s : VcomSocketMain) (epfd op fd : Int) (j : Nat) : Prop :=
  (s.vepolls.elt j).close = true ∧
    (op = epollCtlAdd ∧ s.epitemidxByEpfdfd (epfd, fd) = none ∧ (s.vepolls.elt j).count = -1 ∨
      op = epollCtlDel ∧ s.epitemidxByEpfdfd (epfd, fd) ≠ none ∧ (s.vepolls.elt j).count = 1)

theorem ctlVepitem_edits (h : Sound w) {op : Int} {event : EpollEvent} {type : VcomFdType}
    (hj : w.vsm.epollidxByEpfd epfd = some j) (hc : EmptiesAt w.vsm epfd op fd j → t.idle)
    (hg : op = epollCtlAdd → t.grows epfd) (ho : IsOpen w.vsm fd) :
    Edits t w
      { w with vsm := (vcomSocketCtlVepitem w.vsm epfd op fd event j type).1 } := by
  cases hi : w.vsm.epitemidxByEpfdfd (epfd, fd) with
  | none =>
    unfold vcomSocketCtlVepitem
    rw [hi]
    dsimp only
    split
    · rename_i hop
      refine (Edit.addVepitem ⟨epfd, fd, fd, fd, type, event, noEvent⟩ j hi hj ?_ (hg hop)
        ho).edits
      exact fun hclose hcount => hc ⟨hclose, Or.inl ⟨hop, hi, hcount⟩⟩
    · split
      · exact edits_refl
      · split <;> exact edits_refl
  | some i =>
    have hl := h.items.table.hashed.live hi
    have hk := h.items.table.hashed.key_eq hi
    by_cases hdel : op = epollCtlDel
    · obtain ⟨byEpfd, byFd, he, hf⟩ := h.items.deletable hi
      have hepfd : (w.vsm.vepitems.elt i).epfd = epfd := congrArg Prod.fst hk
      have hfd : (w.vsm.vepitems.elt i).fd = fd := congrArg Prod.snd hk
      rw [hdel, ctlDel_found h.items hi he hf]
      rw [← hepfd] at hj he
      rw [← hfd] at hf
      refine (Edit.delVepitem i j byEpfd byFd hl hj he hf fun hclose hcount => ?_).edits
      exact hc ⟨hclose, Or.inr ⟨hdel, by rw [hi]; exact Option.some_ne_none i, hcount⟩⟩
    · unfold vcomSocketCtlVepitem
      rw [hi]
      dsimp only
      split
      · exact edits_refl
      · split
        · exact (Edit.setVepitem i { w.vsm.vepitems.elt i with event, revent := noEvent } hl
            rfl).edits
        · exact edits_refl

/-- `accept` gets a session and no socket for it. -/
def Loses (w : World) : Act → Prop
  | .accept fd _ _ o => Obtains w fd 0 o ∧ ¬ Connects 0 o
  | .accept4 fd _ _ flags o => Obtains w fd flags o ∧ ¬ Connects flags o
  | _ => False

/-- A socket is removed from all epoll instances before it is closed. -/
def Duty (w : World) : Act → Prop
  | .close fd _ => vcomSocketIsVcomFd w.vsm fd = true → ∀ x, Live w.vsm.vepitems x →
      (w.vsm.vepitems.elt x).fd = fd → (w.vsm.vepitems.elt x).type ≠ .vcomSocket
  | _ => True

/-- Whatever is closed is removed from all epoll instances before. -/
def FullDuty (w : World) : Act → Prop
  | .close fd _ => InNoSet w.vsm fd
  | _ => True

theorem FullDuty.duty {a : Act} (h : FullDuty w a) : Duty w a := by
  cases a with
  | close fd closes => exact fun _ x hx hfd => absurd hfd (h x hx)
  | _ => exact h

/-- The count of a closed instance becomes zero. -/
def Empties (w : World) : Act → Prop
  | .epollCtl epfd op fd _ rv => ∃ j, w.vsm.epollidxByEpfd epfd = some j ∧
      EmptiesAt w.vsm epfd op fd j ∧ 0 ≤ rv ∧ IsOpen w.vsm fd
  | _ => False

def Grows : Act → Int → Prop
  | .epollCtl epfd op _ _ _, e => op = epollCtlAdd ∧ e = epfd
  | _, _ => False

def termsOf (w : World) (a : Act) : Terms :=
  ⟨Loses w a, ¬ Duty w a, ¬ FullDuty w a, Empties w a, Grows a⟩

theorem accept_edits {o : AcceptCalls} {flags : Int32} {addr addrLen : Bool} (hf : o.Fits w)
    (hl : Obtains w fd flags o ∧ ¬ Connects flags o → t.lost) :
    Edits t w (vcomSocketAcceptFlags w fd addr addrLen flags o).world := by
  by_cases ho : Obtains w fd flags o
  · by_cases hc : Connects flags o
    · obtain ⟨_, hfd⟩ := opens_new hf.1 hc.2.2.2.2
      have hs : 0 ≤ o.accept := sessionAccept_eq ho.2.2.2 ▸ ho.2.2.2
      rw [acceptFlags_made hf ho hc, acceptAnswer_world]
      exact (Edit.addVsock _ _ hfd hf.2.1 hs).edits
    · rw [(acceptFlags_lost hf ho hc).1]
      exact (Edit.loseSession _ (hl ⟨ho, hc⟩)).edits
  · rw [(acceptFlags_refused ho).1]
    exact edits_refl

theorem epollCtl_reaches (h : Sound w) {op : Int} {event : EpollEvent} {rv : Int}
    (hj : w.vsm.epollidxByEpfd epfd = some j) (hrv : 0 ≤ rv)
    (hfd : IsOpen w.vsm fd) :
    ∃ type, vcomSocketEpollCtl w.vsm epfd op fd event rv =
      vcomSocketCtlVepitem w.vsm epfd op fd event j type := by
  unfold vcomSocketEpollCtl
  rw [h.getVepoll, h.getVepoll, h.getVsock, hj]
  dsimp only
  cases hs : w.vsm.sockidxByFd fd with
  | some i =>
    rw [Option.isSome_some, if_pos rfl]
    exact ⟨_, if_neg (Int.not_lt.mpr hrv)⟩
  | none =>
    obtain ⟨k, hk⟩ := Option.ne_none_iff_exists'.mp (hfd.resolve_left (not_not.mpr hs))
    rw [hk]
    exact ⟨_, if_neg (Int.not_lt.mpr hrv)⟩

theorem epollCtl_stops (h : Sound w) {op : Int} {event : EpollEvent} {rv : Int}
    (hn : ¬ (w.vsm.epollidxByEpfd epfd ≠ none ∧ 0 ≤ rv ∧ IsOpen w.vsm fd)) :
    (vcomSocketEpollCtl w.vsm epfd op fd event rv).1 = w.vsm := by
  unfold vcomSocketEpollCtl
  rw [h.getVepoll, h.getVepoll, h.getVsock]
  cases hj : w.vsm.epollidxByEpfd epfd with
  | none => rfl
  | some j =>
    have hn : 0 ≤ rv → w.vsm.sockidxByFd fd = none ∧ w.vsm.epollidxByEpfd fd = none := by
      intro hrv
      rw [hj] at hn
      by_contra hfd
      rw [not_and_or] at hfd
      exact hn ⟨Option.some_ne_none j, hrv, hfd⟩
    dsimp only
    by_cases hrv : rv < 0
    · split
      · rfl
      · rw [if_pos hrv]
    · obtain ⟨hs, he⟩ := hn (Int.not_lt.mp hrv)
      rw [hs, he]
      rfl

theorem epollCtl_edits (h : Sound w) {op : Int} {event : EpollEvent} {rv : Int}
    (hi : Empties w (.epollCtl epfd op fd event rv) → t.idle)
    (hg : op = epollCtlAdd → t.grows epfd) :
    Edits t w { w with vsm := (vcomSocketEpollCtl w.vsm epfd op fd event rv).1 } := by
  by_cases hn : w.vsm.epollidxByEpfd epfd ≠ none ∧ 0 ≤ rv ∧ IsOpen w.vsm fd
  · obtain ⟨hj, hrv, hfd⟩ := hn
    obtain ⟨j, hj⟩ := Option.ne_none_iff_exists'.mp hj
    obtain ⟨type, he⟩ := @epollCtl_reaches w fd epfd j h op event rv hj hrv hfd
    rw [he]
    exact ctlVepitem_edits h hj (fun he => hi ⟨j, hj, he, hrv, hfd⟩) hg hfd
  · rw [epollCtl_stops h hn]
    exact edits_refl

theorem call_edits (h : Sound w) {a : Act} (hf : Fits w a) :
    Edits (termsOf w a) w (call w a).1 := by
  cases a with
  | socket domain type r sid c =>
    by_cases ho : Opened domain type r ∧ 0 ≤ sid
    · rw [call, socket_made hf.1 ho.1 ho.2]
      exact (Edit.addVsock _ _ (opens_new hf.1 ho.1.2).2 hf.2 ho.2).edits
    · rw [call, (socket_failed hf.1 ho).1]
      exact edits_refl
  | accept fd addr addrLen o => exact accept_edits hf id
  | accept4 fd addr addrLen flags o => exact accept_edits hf id
  | epollCreate1 flags r vepIdx c =>
    obtain ⟨hw, _⟩ | ⟨_, hfd, hv, he⟩ := @epollCreate1_cases w vepIdx flags r c hf.1
    · rw [call, hw]
      exact edits_refl
    · rw [call, he]
      exact (Edit.addVepoll _ _ _ hfd hf.2 hv).edits
  | epollCtl epfd op fd event rv => exact epollCtl_edits h id fun hop => ⟨hop, rfl⟩
  | close fd closes =>
    refine close_edits h (fun hv x hx hxfd ht => ?_) (mt FullDuty.duty) ?_
    · exact fun hduty => hduty hv x hx hxfd ht
    · exact Classical.em (InNoSet w.vsm fd)

/-- An invariant of the elementary changes holds in every run from a sound state
whose calls all meet the condition. -/
theorem run_keeps {P : World → Prop} {cond : World → Act → Prop} {es : List Act} (h : Sound w)
    (hp : P w) (hr : run step w es = some w') (hc : Meets step cond w es)
    (hkeep : ∀ s a u v, cond s a → Sound u → P u → Edit (termsOf s a) u v → P v) :
    Sound w' ∧ P w' := by
  apply invariant_of_meets (P := fun u => Sound u ∧ P u) ?_ ⟨h, hp⟩ hc hr
  intro u a v hu hcond hv
  obtain ⟨hf, rfl⟩ := step_eq_some.mp hv
  have he := call_edits hu.1 hf
  exact ⟨hu.1.edits he, edits_keep hu.1 hu.2 he fun x y => hkeep u a x y hcond⟩

theorem run_sound {es : List Act} (hr : run step start es = some w) : Sound w :=
  (run_keeps (P := fun _ => True) sound_start trivial hr (meets_of_forall (fun _ _ => trivial))
    (fun _ _ _ _ _ _ _ _ => trivial)).1

end Vppsb.VcomEdits
