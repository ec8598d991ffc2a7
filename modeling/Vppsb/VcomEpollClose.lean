import Vppsb.VcomEpollSets

namespace Vppsb.VcomEpollClose

open Vppsb.StepRun Vppsb.PoolStore Vppsb.KeyedPool Vppsb.PoolIndex
open Vppsb.VcomSockets Vppsb.VcomCalls Vppsb.VcomEdits Vppsb.VcomEpollSets

/-- No instance that was closed is left without members. -/
def Awake (s : VcomSocketMain) : Prop :=
  ∀ j, Live s.vepolls j → (s.vepolls.elt j).close = true → (s.vepolls.elt j).count ≠ 0

variable {t : Terms} {w w' : World} {s : VcomSocketMain} {epfd fd : Int} {j : Nat} {a : Act}

theorem awake_start : Awake start.vsm := fun j hj => absurd hj.1 (Nat.not_lt_zero j)

theorem Awake.setVepoll (h : Awake s) {v : VcomEpoll} (hv : v.close = true → v.count ≠ 0) :
    Awake (setVepoll s j v) := by
  intro k hk
  by_cases hkj : k = j
  · rw [VcomSockets.setVepoll, hkj, elt_set_self]
    exact hv
  · rw [VcomSockets.setVepoll, elt_set_of_ne hkj]
    exact h k hk

theorem awake_edit (h : Sound w) (hw : Awake w.vsm) (ht : ¬ t.idle) (he : Edit t w w') :
    Awake w'.vsm := by
  cases he with
  | addVsock fd sid hfd hn hs => exact hw
  | addVepoll epfd vepIdx flags hfd hn hs =>
    intro k hk
    rw [addVepoll] at hk ⊢
    cases (live_insert h.epolls.wf k).mp hk with
    | inl hk =>
      rw [elt_insert_old hk]
      exact hw k hk
    | inr hk =>
      rw [hk, elt_insert_fresh]
      exact fun hclose => absurd hclose Bool.false_ne_true
  | loseSession sid hl => exact hw
  | addVepitem x j hx hj hi hg ho =>
    apply Awake.setVepoll (s := addVepitem w.vsm x) hw
    intro hclose hcount
    have hcount : (w.vsm.vepolls.elt j).count + 1 = 0 := hcount
    exact ht (hi hclose (by omega))
  | setVepitem i x hi hx => exact hw
  | delVepitem i j byEpfd byFd hi hj he hf hc =>
    apply Awake.setVepoll (s := delVepitem w.vsm i byEpfd byFd) hw
    intro hclose hcount
    exact ht (hc hclose (Int.sub_eq_zero.mp hcount))
  | markClosed j hj hc => exact hw.setVepoll fun _ => hc
  | lower j hj hc hf => exact hw.setVepoll fun _ hcount => hc (Int.sub_eq_zero.mp hcount)
  | dropVsock fd i r hi hm => exact hw
  | dropVepoll epfd j r hj hf hset =>
    intro k hk
    rw [vepolls_dropVepoll] at hk ⊢
    obtain ⟨hk, hne⟩ := live_remove.mp hk
    rw [elt_remove_of_ne hne]
    exact hw k hk

/-- The count of the instance becomes zero where the condition is not met. -/
theorem ctlVepitem_empties (h : Sound w) {op : Int} {event : EpollEvent} {type : VcomFdType}
    (he : EmptiesAt w.vsm epfd op fd j) :
    (vcomSocketCtlVepitem w.vsm epfd op fd event j type).1.vepolls =
      set w.vsm.vepolls j { w.vsm.vepolls.elt j with count := 0 } := by
  obtain ⟨_, ⟨rfl, hx, hcount⟩ | ⟨rfl, hx, hcount⟩⟩ := he
  · unfold vcomSocketCtlVepitem
    dsimp only
    rw [if_pos rfl, hx, hcount]
    rfl
  · obtain ⟨i, hi⟩ := Option.ne_none_iff_exists'.mp hx
    obtain ⟨byEpfd, byFd, he, hf⟩ := h.items.deletable hi
    rw [ctlDel_found h.items hi he hf, hcount]
    rfl

theorem awake_call_iff (h : Sound w) (hw : Awake w.vsm) (hf : Fits w a) :
    Awake (call w a).1.vsm ↔ ¬ Empties w a := by
  constructor
  · intro hc he
    cases a with
    | epollCtl epfd op fd event rv =>
      obtain ⟨j, hj, he, hrv, hfd⟩ := he
      obtain ⟨type, hr⟩ := @epollCtl_reaches w fd epfd j h op event rv hj hrv hfd
      have hv : (call w (.epollCtl epfd op fd event rv)).1.vsm.vepolls =
          set w.vsm.vepolls j { w.vsm.vepolls.elt j with count := 0 } := by
        rw [call, hr]
        exact ctlVepitem_empties h he
      have hl : Live w.vsm.vepolls j := h.epolls.hashed.live hj
      have hzero := hc j
      rw [hv, elt_set_self] at hzero
      exact hzero hl he.1 rfl
    | _ => exact he
  · intro hn
    exact edits_keep (P := fun u => Awake u.vsm) h hw (call_edits h hf)
      fun _ _ hu hp he => awake_edit hu hp hn he

/-- A closed instance goes with its last member in every run in which that is not
taken by `epoll_ctl`. -/
theorem run_awake {es : List Act} (hr : run step start es = some w)
    (hc : Meets step (fun w a => ¬ Empties w a) start es) : Awake w.vsm ∧
      ∀ a, Fits w a → (Awake (call w a).1.vsm ↔ ¬ Empties w a) := by
  obtain ⟨hs, hw⟩ := run_keeps (P := fun u => Awake u.vsm) sound_start awake_start hr hc
    fun _ _ _ _ hn hu hp he => awake_edit hu hp hn he
  exact ⟨hw, fun a hf => awake_call_iff hs hw hf⟩

def closedFull : List Act :=
  [.socket afInet sockStream ⟨3, 0⟩ 0 ⟨0, 0⟩, .epollCreate1 0 ⟨4, 0⟩ 1 ⟨0, 0⟩,
    .epollCtl 4 epollCtlAdd 3 noEvent 0, .close 4 (fun _ => ⟨0, 0⟩)]

theorem run_awake_sample :
    ∃ w, run step start (closedFull ++ [.close 3 (fun _ => ⟨0, 0⟩)]) = some w ∧ Awake w.vsm ∧
      w.fds = [] ∧ w.sessions = [] := by
  have hc : Meets step (fun w a => ¬ Empties w a) start
      (closedFull ++ [.close 3 (fun _ => ⟨0, 0⟩)]) := by
    refine ⟨id, fun _ h₁ => ⟨id, fun _ h₂ => ⟨?_, fun _ _ => ⟨id, fun _ _ => ⟨id, fun _ _ => trivial⟩⟩⟩⟩⟩
    obtain rfl := Option.some.inj h₁
    obtain rfl := Option.some.inj h₂
    rintro ⟨j, hj, ⟨hclose, _⟩, _⟩
    obtain rfl := Option.some.inj hj
    cases hclose
  exact ⟨_, rfl, (run_awake rfl hc).1, rfl, rfl⟩

/-- `epoll_ctl` takes the socket out instead: the instance stays, with its
descriptor and its session. -/
theorem emptied_stays :
    ∃ w, run step start (closedFull ++ [.epollCtl 4 epollCtlDel 3 noEvent 0]) = some w ∧
      Live w.vsm.vepolls 0 ∧ (w.vsm.vepolls.elt 0).close = true ∧
      (w.vsm.vepolls.elt 0).count = 0 ∧ w.fds = [4, 3] ∧ w.sessions = [1, 0] :=
  ⟨_, rfl, by decide +kernel, rfl, rfl, rfl, rfl⟩

end Vppsb.VcomEpollClose
