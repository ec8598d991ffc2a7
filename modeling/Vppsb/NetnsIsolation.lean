import Mathlib.Data.List.Perm.Basic
import Vppsb.NetnsWorld
import Vppsb.StepRun

namespace Vppsb.NetnsIsolation

open Vppsb.StepRun Vppsb.PoolStore Vppsb.KeyedPool Vppsb.NetnsTables Vppsb.RtnlStream
  Vppsb.NetnsWorld

def subscribers (w : World) (j : Nat) : Nat :=
  w.held.countP (fun h => decide ((w.handles.elt h).netnsIndex = j))

/-- The handles that callers hold refer to namespaces that count them. -/
structure Subscribed (w : World) : Prop where
  handles : WF w.handles
  netnss : WF w.netnss
  nodup : w.held.Nodup
  held : ∀ h ∈ w.held, Live w.handles h
  refers : ∀ h ∈ w.held, Live w.netnss (w.handles.elt h).netnsIndex
  counted : ∀ j, Live w.netnss j → (w.netnss.elt j).subscriberCount = subscribers w j

/-- Every namespace but the given one has a subscriber. -/
def UsedBut (w : World) (except : Option Nat) : Prop :=
  ∀ j, Live w.netnss j → some j ≠ except → 0 < (w.netnss.elt j).subscriberCount

def Open (w : World) (i : Nat) : Prop := Live w.streams i ∧ (w.streams.elt i).closing = false

instance (w : World) (i : Nat) : Decidable (Open w i) := inferInstanceAs (Decidable (_ ∧ _))

/-- Each namespace has its open stream, which knows it, and there are no others. -/
structure Linked (w : World) : Prop where
  streams : WF w.streams
  serves : ∀ j, Live w.netnss j → Open w (w.netnss.elt j).rtnlHandle ∧
    (w.streams.elt (w.netnss.elt j).rtnlHandle).streamOpaque = j ∧
    (w.streams.elt (w.netnss.elt j).rtnlHandle).owner = (w.netnss.elt j).serial
  served : ∀ i, Open w i → Live w.netnss (w.streams.elt i).streamOpaque ∧
    (w.netnss.elt (w.streams.elt i).streamOpaque).rtnlHandle = i
  closings : ∀ i, .closed i ∈ w.pending → Live w.streams i ∧ (w.streams.elt i).closing = true
  once : ∀ i, w.pending.count (.closed i) ≤ 1

def linkOf (ns : NetnsP) : Nat × Nat := (ns.rtnlHandle, ns.serial)

def roleOf (x : Stream) : Nat × Nat × Bool := (x.streamOpaque, x.owner, x.closing)

variable {w u : World} {now : Rat} {i j : Nat} {e : Event}

theorem Linked.frame (h : Linked w) (hw : WF u.streams)
    (hn : ∀ j, Live u.netnss j ↔ Live w.netnss j)
    (hj : ∀ j, Live u.netnss j → linkOf (u.netnss.elt j) = linkOf (w.netnss.elt j))
    (hs : ∀ i, Live u.streams i → Live w.streams i)
    (hk : ∀ i, Live w.streams i → (w.streams.elt i).closing = false ∨ .closed i ∈ u.pending →
      Live u.streams i)
    (hi : ∀ i, Live u.streams i → roleOf (u.streams.elt i) = roleOf (w.streams.elt i))
    (hp : ∀ i, u.pending.count (.closed i) ≤ w.pending.count (.closed i)) : Linked u := by
  have hmem : ∀ i, .closed i ∈ u.pending → .closed i ∈ w.pending := fun i hm =>
    List.count_pos_iff.mp (Nat.lt_of_lt_of_le (List.count_pos_iff.mpr hm) (hp i))
  have hlink : ∀ j, Live u.netnss j → (u.netnss.elt j).rtnlHandle = (w.netnss.elt j).rtnlHandle ∧
      (u.netnss.elt j).serial = (w.netnss.elt j).serial :=
    fun j hl => Prod.mk.inj (hj j hl)
  have hrole : ∀ i, Live u.streams i →
      (u.streams.elt i).streamOpaque = (w.streams.elt i).streamOpaque ∧
        (u.streams.elt i).owner = (w.streams.elt i).owner ∧
        (u.streams.elt i).closing = (w.streams.elt i).closing := by
    intro i hl
    obtain ⟨h1, h2⟩ := Prod.mk.inj (hi i hl)
    exact ⟨h1, Prod.mk.inj h2⟩
  refine ⟨hw, fun j hl => ?_, fun i hl => ?_, fun i hm => ?_, fun i => Nat.le_trans (hp i) (h.once i)⟩
  · obtain ⟨ho, h1, h2⟩ := h.serves j ((hn j).mp hl)
    obtain ⟨hh, hv⟩ := hlink j hl
    have hl' : Live u.streams (w.netnss.elt j).rtnlHandle := hk _ ho.1 (Or.inl ho.2)
    obtain ⟨r1, r2, r3⟩ := hrole _ hl'
    rw [hh, hv]
    exact ⟨⟨hl', r3.trans ho.2⟩, r1.trans h1, r2.trans h2⟩
  · obtain ⟨r1, _, r3⟩ := hrole i hl.1
    obtain ⟨hv, hh⟩ := h.served i ⟨hs i hl.1, r3.symm.trans hl.2⟩
    rw [r1]
    exact ⟨(hn _).mpr hv, (hlink _ ((hn _).mpr hv)).1.trans hh⟩
  · obtain ⟨hl, hc⟩ := h.closings i (hmem i hm)
    have hl := hk i hl (Or.inr hm)
    exact ⟨hl, (hrole i hl).2.2.trans hc⟩

theorem live_process (k : Nat) : Live (processStream w now i e).streams k ↔
    Live w.streams k ∧ ¬ (closes (w.streams.elt i).ns e = true ∧ k = i) := by
  unfold processStream
  dsimp only
  cases hc : closes (w.streams.elt i).ns e with
  | false =>
    rw [if_neg Bool.false_ne_true]
    exact ⟨fun h => ⟨h, fun hf => Bool.noConfusion hf.1⟩, And.left⟩
  | true =>
    rw [if_pos rfl, live_put]
    exact ⟨fun h => ⟨h.1, fun hk => h.2 hk.2⟩, fun h => ⟨h.1, fun hk => h.2 ⟨rfl, hk⟩⟩⟩

theorem wf_process (hw : WF w.streams) (hi : closes (w.streams.elt i).ns e = true → Live w.streams i) :
    WF (processStream w now i e).streams := by
  unfold processStream
  dsimp only
  split
  · rename_i hc
    exact wf_put (wf_set hw _ _) (hi hc)
  · exact wf_set hw _ _

/-- The event that closes a stream is handled once, after the stream was closed. -/
theorem Linked.process (h : Linked w)
    (hc : closes (w.streams.elt i).ns e = true →
      Live w.streams i ∧ (w.streams.elt i).closing = true ∧ .closed i ∉ w.pending) :
    Linked (processStream w now i e) := by
  apply h.frame (wf_process h.streams fun hv => (hc hv).1)
  · exact fun _ => Iff.rfl
  · exact fun _ _ => process_netns linkOf fun _ _ => rfl
  · exact fun k hk => ((live_process k).mp hk).1
  · intro k hk hn
    refine (live_process k).mpr ⟨hk, ?_⟩
    rintro ⟨hv, rfl⟩
    obtain ⟨_, ht, hp⟩ := hc hv
    cases hn with
    | inl hf => exact Bool.noConfusion (ht.symm.trans hf)
    | inr hm => exact hp hm
  · exact fun _ _ => process_stream roleOf fun _ _ => rfl
  · exact fun _ => Nat.le_refl _

theorem Subscribed.frame (h : Subscribed w) (hh : u.handles = w.handles) (hl : u.held = w.held)
    (hw : WF u.netnss) (hn : ∀ j, Live u.netnss j ↔ Live w.netnss j)
    (hj : ∀ j, Live u.netnss j →
      (u.netnss.elt j).subscriberCount = (w.netnss.elt j).subscriberCount) : Subscribed u := by
  obtain ⟨h1, _, h3, h4, h5, h6⟩ := h
  refine ⟨hh ▸ h1, hw, hl ▸ h3, ?_, ?_, fun j hv => ?_⟩
  · rw [hh, hl]
    exact h4
  · rw [hh, hl]
    exact fun k hk => (hn _).mpr (h5 k hk)
  · rw [hj j hv, h6 j ((hn j).mp hv), subscribers, subscribers, hh, hl]

theorem UsedBut.frame {x : Option Nat} (h : UsedBut w x)
    (hn : ∀ j, Live u.netnss j ↔ Live w.netnss j)
    (hj : ∀ j, Live u.netnss j →
      (u.netnss.elt j).subscriberCount = (w.netnss.elt j).subscriberCount) : UsedBut u x := by
  intro j hl hne
  rw [hj j hl]
  exact h j ((hn j).mp hl) hne

theorem Subscribed.process (h : Subscribed w) : Subscribed (processStream w now i e) :=
  h.frame rfl rfl (wf_set h.netnss _ _) (fun _ => Iff.rfl)
    fun _ _ => process_netns NetnsP.subscriberCount fun _ _ => rfl

theorem UsedBut.process {x : Option Nat} (h : UsedBut w x) :
    UsedBut (processStream w now i e) x :=
  h.frame (fun _ => Iff.rfl) fun _ _ => process_netns NetnsP.subscriberCount fun _ _ => rfl

structure Sound (w : World) : Prop where
  subscribed : Subscribed w
  used : UsedBut w none
  linked : Linked w

theorem Sound.process (h : Sound w)
    (hc : closes (w.streams.elt i).ns e = true →
      Live w.streams i ∧ (w.streams.elt i).closing = true ∧ .closed i ∉ w.pending) :
    Sound (processStream w now i e) :=
  ⟨h.subscribed.process, h.used.process, h.linked.process hc⟩

theorem Sound.pending {ps : List Signal} (h : Sound w)
    (hp : ∀ i, ps.count (.closed i) ≤ w.pending.count (.closed i)) :
    Sound { w with pending := ps } := by
  refine ⟨h.subscribed.frame rfl rfl h.subscribed.netnss (fun _ => Iff.rfl) fun _ _ => rfl,
    h.used.frame (fun _ => Iff.rfl) fun _ _ => rfl, ?_⟩
  exact h.linked.frame h.linked.streams (fun _ => Iff.rfl) (fun _ _ => rfl) (fun _ hl => hl)
    (fun _ hl _ => hl) (fun _ _ => rfl) hp

theorem clock_sound {now : Rat} {outcome : Nat → OpenOutcome} {ok : Nat → Bool} (is : List Nat)
    (h : Sound w) :
    Sound (is.foldl (fun w i => processStream w now i (.clock (outcome i) (ok i))) w) := by
  induction is generalizing w with
  | nil => exact h
  | cons i is ih => exact ih (h.process fun hv => Bool.noConfusion hv)

theorem deliver_sound {k : Nat} {s : Signal} {rest : List Signal} {buffers : List Buffer}
    (h : Sound w) (ht : takes w.pending k = some (s, rest)) :
    Sound (processStream { w with pending := rest } now s.stream (s.event buffers)) := by
  have hcount : ∀ i, rest.count (.closed i) + (if s = .closed i then 1 else 0) =
      w.pending.count (.closed i) := by
    intro i
    rw [← (takes_perm ht).count_eq, List.count_cons]
    simp only [beq_iff_eq]
  apply (h.pending fun i => Nat.le_of_add_right_le (Nat.le_of_eq (hcount i))).process
  cases s with
  | opened i => exact fun hv => Bool.noConfusion hv
  | read i owner => exact fun hv => Bool.noConfusion hv
  | closed i =>
    intro _
    have hm : .closed i ∈ w.pending := (takes_perm ht).subset List.mem_cons_self
    obtain ⟨hl, hc⟩ := h.linked.closings i hm
    refine ⟨hl, hc, fun hr => ?_⟩
    have h1 := h.linked.once i
    have h0 := hcount i
    have hr : 0 < rest.count (.closed i) := List.count_pos_iff.mpr hr
    rw [if_pos rfl] at h0
    omega

theorem link_setCount {p : Pool NetnsP} {c : Nat} (k : Nat) :
    linkOf ((set p j { p.elt j with subscriberCount := c }).elt k) = linkOf (p.elt k) := by
  have hk : linkOf { p.elt j with subscriberCount := c } = linkOf (p.elt j) := rfl
  exact key_set hk k

structure Got (w : World) (r : Option Nat) : Prop where
  subscribed : Subscribed w
  used : UsedBut w r
  linked : Linked w
  live : ∀ j, r = some j → Live w.netnss j

theorem Sound.got (h : Sound w) {r : Option Nat} (hr : ∀ j, r = some j → Live w.netnss j) :
    Got w r :=
  ⟨h.subscribed, fun j hl _ => h.used j hl (Option.some_ne_none j), h.linked, hr⟩

theorem Got.sound (h : Got w none) : Sound w := ⟨h.subscribed, h.used, h.linked⟩

theorem Sound.reput (h : Sound w) :
    Sound { w with netnss := put (get w.netnss) (fresh w.netnss) } := by
  have hl := live_put_get h.subscribed.netnss
  have he : (put (get w.netnss) (fresh w.netnss)).elt = w.netnss.elt := elt_get _
  have hj : ∀ j, (put (get w.netnss) (fresh w.netnss)).elt j = w.netnss.elt j := congrFun he
  exact ⟨h.subscribed.frame rfl rfl (wf_put_get h.subscribed.netnss) hl fun j _ => by rw [hj],
    h.used.frame hl fun j _ => by rw [hj],
    h.linked.frame h.linked.streams hl (fun j _ => by rw [hj]) (fun _ hl => hl)
      (fun _ hl _ => hl) (fun _ _ => rfl) (fun _ => Nat.le_refl _)⟩

def created (w : World) (name : List UInt8) : World :=
  { w with
    netnss := insert w.netnss ⟨name, emptyNetns, fresh w.streams, 0, w.made⟩
    streams := insert w.streams
      ⟨{ (w.streams.elt (fresh w.streams)).ns with state := .init }, fresh w.netnss, w.made, false⟩
    pending := w.pending ++ [.opened (fresh w.streams)]
    made := w.made + 1 }

theorem created_linked (h : Linked w) (hn : WF w.netnss) (name : List UInt8) :
    Linked (created w name) := by
  have hopen : ∀ i, Open (created w name) i ↔ Open w i ∨ i = fresh w.streams := by
    intro i
    unfold Open created
    dsimp only
    rw [live_insert h.streams]
    constructor
    · rintro ⟨hl | hi, hc⟩
      · rw [elt_insert_old hl] at hc
        exact Or.inl ⟨hl, hc⟩
      · exact Or.inr hi
    · rintro (⟨hl, hc⟩ | rfl)
      · rw [elt_insert_old hl]
        exact ⟨Or.inl hl, hc⟩
      · rw [elt_insert_fresh]
        exact ⟨Or.inr rfl, rfl⟩
  refine ⟨wf_insert h.streams, fun j hj => ?_, fun i hi => ?_, fun i hm => ?_, fun i => ?_⟩
  · cases (live_insert hn j).mp hj with
    | inl hj =>
      obtain ⟨ho, hx⟩ := h.serves j hj
      simp only [created]
      rw [elt_insert_old hj, elt_insert_old ho.1]
      exact ⟨(hopen _).mpr (Or.inl ho), hx⟩
    | inr hj =>
      rw [hj]
      simp only [created]
      rw [elt_insert_fresh, elt_insert_fresh]
      exact ⟨(hopen _).mpr (Or.inr rfl), rfl, rfl⟩
  · cases (hopen i).mp hi with
    | inl hi =>
      obtain ⟨hl, hh⟩ := h.served i hi
      simp only [created]
      rw [elt_insert_old hi.1, elt_insert_old hl]
      exact ⟨(live_insert hn _).mpr (Or.inl hl), hh⟩
    | inr hi =>
      rw [hi]
      simp only [created]
      rw [elt_insert_fresh, elt_insert_fresh]
      exact ⟨(live_insert hn _).mpr (Or.inr rfl), rfl⟩
  · have hm : .closed i ∈ w.pending := by simpa [created] using hm
    obtain ⟨hl, hc⟩ := h.closings i hm
    simp only [created]
    rw [elt_insert_old hl]
    exact ⟨(live_insert h.streams _).mpr (Or.inl hl), hc⟩
  · simpa [created] using h.once i

theorem created_got (h : Sound w) (name : List UInt8) :
    Got (created w name) (some (fresh w.netnss)) := by
  have hn := h.subscribed.netnss
  have hlive : ∀ j, Live (created w name).netnss j ↔ Live w.netnss j ∨ j = fresh w.netnss :=
    live_insert hn
  have hold : ∀ j, Live w.netnss j → (created w name).netnss.elt j = w.netnss.elt j :=
    fun j hj => elt_insert_old hj
  refine ⟨?_, ?_, created_linked h.linked hn name, ?_⟩
  · refine ⟨h.subscribed.handles, wf_insert hn, h.subscribed.nodup, h.subscribed.held, ?_, ?_⟩
    · exact fun k hk => (hlive _).mpr (Or.inl (h.subscribed.refers k hk))
    · intro j hj
      cases (hlive j).mp hj with
      | inl hj =>
        rw [hold j hj]
        exact h.subscribed.counted j hj
      | inr hj =>
        -- nobody can refer to a slot that was free
        have h0 : subscribers w j = 0 := by
          apply List.countP_eq_zero.mpr
          intro k hk he
          have hl := h.subscribed.refers k hk
          rw [of_decide_eq_true he, hj] at hl
          exact not_live_fresh hl
        rw [hj] at h0 ⊢
        have he : (created w name).netnss.elt (fresh w.netnss) = _ := elt_insert_fresh
        rw [he]
        exact h0.symm
  · intro j hj hne
    cases (hlive j).mp hj with
    | inl hj =>
      rw [hold j hj]
      exact h.used j hj (Option.some_ne_none j)
    | inr hj => exact absurd (congrArg some hj) hne
  · intro j hj
    obtain rfl := Option.some.inj hj
    exact (hlive _).mpr (Or.inr rfl)

theorem netnsGet_got (h : Sound w) (name : List UInt8) (opens : Bool) :
    Got (netnsGet w name opens).1 (netnsGet w name opens).2 := by
  unfold netnsGet
  cases hf : findLive (fun ns => decide (ns.name = name)) w.netnss with
  | some j =>
    apply h.got
    intro k hk
    obtain rfl := Option.some.inj hk
    exact (findLive_some hf).1
  | none =>
    by_cases hlen : name.length > rtnlNetnsNamelen
    · simp only [if_pos hlen]
      exact h.got fun _ => nofun
    · simp only [if_neg hlen]
      cases opens with
      | false => exact h.reput.got fun _ => nofun
      | true => exact created_got h name

theorem Got.subscribe (h : Got w (some j)) (notify : Bool) :
    Sound { w with
      handles := insert w.handles ⟨notify, j⟩
      netnss := set w.netnss j
        { w.netnss.elt j with subscriberCount := (w.netnss.elt j).subscriberCount + 1 }
      held := fresh w.handles :: w.held } := by
  obtain ⟨⟨hh, hn, hnd, hheld, href, hcount⟩, hu, hl, hj⟩ := h
  have hj := hj j rfl
  have hold : ∀ k ∈ w.held, (insert w.handles ⟨notify, j⟩).elt k = w.handles.elt k :=
    fun k hk => elt_insert_old (hheld k hk)
  refine ⟨⟨wf_insert hh, wf_set hn _ _, ?_, ?_, ?_, fun k hk => ?_⟩, fun k hk _ => ?_, ?_⟩
  · exact List.nodup_cons.mpr ⟨fun hm => not_live_fresh (hheld _ hm), hnd⟩
  · intro k hk
    cases List.mem_cons.mp hk with
    | inl hk => exact (live_insert hh _).mpr (Or.inr hk)
    | inr hk => exact (live_insert hh _).mpr (Or.inl (hheld k hk))
  · intro k hk
    cases List.mem_cons.mp hk with
    | inl hk =>
      rw [hk]
      dsimp only
      rw [elt_insert_fresh]
      exact hj
    | inr hk =>
      dsimp only
      rw [hold k hk]
      exact href k hk
  · have hs : w.held.countP (fun h => decide (((insert w.handles ⟨notify, j⟩).elt h).netnsIndex = k)) =
        subscribers w k := by
      apply List.countP_congr
      intro x hx
      rw [hold x hx]
    have hk := hcount k hk
    unfold subscribers
    dsimp only
    rw [List.countP_cons, hs, ← hk, elt_insert_fresh]
    by_cases he : k = j
    · rw [he, elt_set_self]
      simp
    · rw [elt_set_of_ne he]
      simp [Ne.symm he]
  · dsimp only
    by_cases he : k = j
    · rw [he, elt_set_self]
      exact Nat.succ_pos _
    · rw [elt_set_of_ne he]
      exact hu k hk fun hs => he (Option.some.inj hs)
  · exact hl.frame hl.streams (fun _ => Iff.rfl) (fun k _ => link_setCount k) (fun _ hl => hl)
      (fun _ hl _ => hl) (fun _ _ => rfl) (fun _ => Nat.le_refl _)

theorem open_sound (h : Sound w) (name : List UInt8) (notify opens : Bool) :
    Sound (netnsOpen w name notify opens).1 := by
  have hg := netnsGet_got h name opens
  unfold netnsOpen
  cases hr : (netnsGet w name opens).2 with
  | none =>
    rw [hr] at hg
    simp only [hr]
    exact hg.sound
  | some j =>
    rw [hr] at hg
    simp only [hr]
    exact hg.subscribe notify

section Destroy

theorem elt_destroy_netnss {k : Nat} (hk : k ≠ j) :
    (netnsDestroy w j).netnss.elt k = w.netnss.elt k := elt_set_of_ne hk

theorem live_destroy_netnss (k : Nat) : Live (netnsDestroy w j).netnss k ↔ Live w.netnss k ∧ k ≠ j :=
  live_put _ _ _

theorem elt_destroy_streams (hi : i ≠ (w.netnss.elt j).rtnlHandle) :
    (netnsDestroy w j).streams.elt i = w.streams.elt i := elt_set_of_ne hi

theorem elt_destroy_self : (netnsDestroy w j).streams.elt (w.netnss.elt j).rtnlHandle =
    { w.streams.elt (w.netnss.elt j).rtnlHandle with closing := true } := elt_set_self

theorem Subscribed.destroy (h : Subscribed w) (hj : Live w.netnss j) (h0 : subscribers w j = 0) :
    Subscribed (netnsDestroy w j) := by
  refine ⟨h.handles, wf_put (wf_set h.netnss _ _) hj, h.nodup, h.held, fun k hk => ?_, fun k hk => ?_⟩
  · refine (live_destroy_netnss _).mpr ⟨h.refers k hk, fun he => ?_⟩
    exact List.countP_eq_zero.mp h0 k hk (decide_eq_true he)
  · obtain ⟨hk, hne⟩ := (live_destroy_netnss k).mp hk
    rw [elt_destroy_netnss hne]
    exact h.counted k hk

theorem Linked.destroy (hl : Linked w) (hj : Live w.netnss j) : Linked (netnsDestroy w j) := by
  obtain ⟨ho, hopaque, _⟩ := hl.serves j hj
  have hnone : .closed (w.netnss.elt j).rtnlHandle ∉ w.pending :=
    fun hm => Bool.noConfusion ((hl.closings _ hm).2.symm.trans ho.2)
  have hlives : ∀ i, Live (netnsDestroy w j).streams i ↔ Live w.streams i := fun _ => Iff.rfl
  have hpending : (netnsDestroy w j).pending = w.pending ++ [.closed (w.netnss.elt j).rtnlHandle] :=
    rfl
  refine ⟨wf_set hl.streams _ _, fun k hk => ?_, fun i hi => ?_, fun i hm => ?_, fun i => ?_⟩
  · obtain ⟨hk, hne⟩ := (live_destroy_netnss k).mp hk
    obtain ⟨hko, hkx, hkw⟩ := hl.serves k hk
    have hi : (w.netnss.elt k).rtnlHandle ≠ (w.netnss.elt j).rtnlHandle := by
      intro he
      rw [he, hopaque] at hkx
      exact hne hkx.symm
    unfold Open
    rw [elt_destroy_netnss hne, elt_destroy_streams hi]
    exact ⟨hko, hkx, hkw⟩
  · have hi' : i ≠ (w.netnss.elt j).rtnlHandle := by
      rintro rfl
      have hc := hi.2
      rw [elt_destroy_self] at hc
      exact Bool.noConfusion hc
    unfold Open at hi
    rw [elt_destroy_streams hi'] at hi
    obtain ⟨hk, hh⟩ := hl.served i hi
    have hne : (w.streams.elt i).streamOpaque ≠ j := by
      intro he
      rw [he] at hh
      exact hi' hh.symm
    rw [elt_destroy_streams hi', elt_destroy_netnss hne]
    exact ⟨(live_destroy_netnss _).mpr ⟨hk, hne⟩, hh⟩
  · by_cases hi : i = (w.netnss.elt j).rtnlHandle
    · rw [hi, elt_destroy_self]
      exact ⟨(hlives _).mpr ho.1, rfl⟩
    · rw [elt_destroy_streams hi]
      have hm : .closed i ∈ w.pending := by
        cases List.mem_append.mp hm with
        | inl hm => exact hm
        | inr hm =>
          have hs := List.mem_singleton.mp hm
          exact absurd (Signal.closed.inj hs) hi
      exact hl.closings i hm
  · rw [hpending, List.count_append]
    by_cases hi : i = (w.netnss.elt j).rtnlHandle
    · rw [hi, List.count_eq_zero.mpr hnone]
      simp
    · have hs : [Signal.closed (w.netnss.elt j).rtnlHandle].count (.closed i) = 0 := by
        simp [Ne.symm hi]
      rw [hs]
      exact hl.once i

theorem destroy_sound (h : Subscribed w) (hu : UsedBut w (some j)) (hl : Linked w)
    (hj : Live w.netnss j) (h0 : subscribers w j = 0) : Sound (netnsDestroy w j) := by
  refine ⟨h.destroy hj h0, fun k hk _ => ?_, hl.destroy hj⟩
  obtain ⟨hk, hne⟩ := (live_destroy_netnss k).mp hk
  rw [elt_destroy_netnss hne]
  exact hu k hk fun hs => hne (Option.some.inj hs)

end Destroy

section Close

variable {k : Nat}

def unsubscribed (w : World) (k : Nat) : World :=
  let j := (w.handles.elt k).netnsIndex
  let ns := w.netnss.elt j
  { w with
    handles := put w.handles k
    netnss := set w.netnss j { ns with subscriberCount := ns.subscriberCount - 1 }
    held := w.held.erase k }

theorem netnsClose_eq_some : netnsClose w k = some u ↔ k = 0 ∧
    u = if (w.netnss.elt (w.handles.elt k).netnsIndex).subscriberCount - 1 = 0
      then netnsDestroy (unsubscribed w k) (w.handles.elt k).netnsIndex else unsubscribed w k := by
  rw [netnsClose, poolPutSwapped]
  by_cases h0 : k = 0
  · rw [if_pos h0, Option.map_some, Option.some_inj]
    subst h0
    exact ⟨fun h => ⟨rfl, h.symm⟩, fun h => h.2.symm⟩
  · rw [if_neg h0]
    exact iff_of_false (Option.some_ne_none _ ∘ Eq.symm) fun h => h0 h.1

theorem elt_unsubscribed (w : World) (k x : Nat) :
    (unsubscribed w k).handles.elt x = w.handles.elt x := rfl

theorem count_unsubscribed (w : World) (k i : Nat) :
    ((unsubscribed w k).netnss.elt i).subscriberCount =
      if i = (w.handles.elt k).netnsIndex then (w.netnss.elt i).subscriberCount - 1
      else (w.netnss.elt i).subscriberCount := by
  unfold unsubscribed
  dsimp only
  split
  · rename_i hi
    rw [hi, elt_set_self]
  · rename_i hi
    rw [elt_set_of_ne hi]

theorem subscribers_unsubscribed (hk : k ∈ w.held) (i : Nat) : subscribers w i =
    subscribers (unsubscribed w k) i + if (w.handles.elt k).netnsIndex = i then 1 else 0 := by
  have hc : subscribers (unsubscribed w k) i =
      (w.held.erase k).countP (fun x => decide ((w.handles.elt x).netnsIndex = i)) := by
    apply List.countP_congr
    intro x _
    rw [elt_unsubscribed]
  rw [hc, subscribers, (List.perm_cons_erase hk).countP_eq, List.countP_cons]
  simp only [decide_eq_true_eq]

theorem Subscribed.unsubscribed (h : Subscribed w) (hk : k ∈ w.held) :
    Subscribed (unsubscribed w k) := by
  have hne : ∀ x ∈ w.held.erase k, x ≠ k ∧ x ∈ w.held :=
    fun x hx => (h.nodup.mem_erase_iff).mp hx
  refine ⟨wf_put h.handles (h.held k hk), wf_set h.netnss _ _, h.nodup.erase k, ?_, ?_,
    fun i hi => ?_⟩
  · exact fun x hx => (live_put _ _ _).mpr ⟨h.held x (hne x hx).2, (hne x hx).1⟩
  · intro x hx
    rw [elt_unsubscribed]
    exact h.refers x (hne x hx).2
  · have hi := h.counted i hi
    rw [subscribers_unsubscribed hk i] at hi
    rw [count_unsubscribed]
    by_cases he : i = (w.handles.elt k).netnsIndex
    · rw [if_pos he.symm] at hi
      rw [if_pos he]
      exact Nat.sub_eq_of_eq_add hi
    · rw [if_neg (Ne.symm he)] at hi
      rw [if_neg he]
      exact hi

theorem close_sound (h : Sound w) (hk : k ∈ w.held) (hu : netnsClose w k = some u) : Sound u := by
  obtain ⟨_, rfl⟩ := netnsClose_eq_some.mp hu
  have hj := h.subscribed.refers k hk
  have hs : Subscribed (unsubscribed w k) := h.subscribed.unsubscribed hk
  have hl : Linked (unsubscribed w k) :=
    h.linked.frame h.linked.streams (fun _ => Iff.rfl) (fun i _ => link_setCount i)
      (fun _ hl => hl) (fun _ hl _ => hl) (fun _ _ => rfl) fun _ => Nat.le_refl _
  have hu : UsedBut (unsubscribed w k) (some (w.handles.elt k).netnsIndex) := by
    intro i hi hne
    rw [count_unsubscribed, if_neg fun he => hne (congrArg some he)]
    exact h.used i hi (Option.some_ne_none i)
  by_cases h0 : (w.netnss.elt (w.handles.elt k).netnsIndex).subscriberCount - 1 = 0
  · rw [if_pos h0]
    refine destroy_sound hs hu hl hj ?_
    rw [← hs.counted _ hj, count_unsubscribed, if_pos rfl, h0]
  · rw [if_neg h0]
    refine ⟨hs, fun i hi _ => ?_, hl⟩
    by_cases he : i = (w.handles.elt k).netnsIndex
    · rw [count_unsubscribed, if_pos he, he]
      exact Nat.pos_of_ne_zero h0
    · exact hu i hi fun hs => he (Option.some.inj hs)

end Close

theorem step_sound {a : Act} (h : Sound w) (ht : step w a = some u) : Sound u := by
  cases a with
  | netnsOpen name notify opens =>
    obtain rfl := Option.some.inj ht
    exact open_sound h name notify opens
  | netnsClose k =>
    rw [step] at ht
    split at ht
    · rename_i hk
      exact close_sound h hk ht
    · cases ht
  | readReady i =>
    rw [step] at ht
    split at ht
    · obtain rfl := Option.some.inj ht
      exact h.pending fun k => by simp [List.count_append]
    · cases ht
  | deliver k now buffers =>
    obtain ⟨p, hp, rfl⟩ := Option.map_eq_some_iff.mp ht
    exact deliver_sound h hp
  | clock now outcome ok =>
    obtain rfl := Option.some.inj ht
    exact clock_sound _ h

theorem start_sound : Sound start := by
  have hno : ∀ {α : Type} (a : α) i, ¬ Live (empty a) i := fun a i hl => Nat.not_lt_zero i hl.1
  have hlive : ∀ j, ¬ Live start.netnss j := hno _
  have hopen : ∀ i, ¬ Open start i := fun i hi => hno _ i hi.1
  exact ⟨⟨wf_empty _, wf_empty _, List.nodup_nil, fun _ => nofun, fun _ => nofun,
      fun j hj => absurd hj (hlive j)⟩, fun j hj => absurd hj (hlive j),
    ⟨wf_empty _, fun j hj => absurd hj (hlive j), fun i hi => absurd hi (hopen i),
      fun _ => nofun, fun _ => Nat.zero_le _⟩⟩

theorem run_sound {as : List Act} (hr : run step start as = some w) : Sound w :=
  invariant (fun _ _ _ h ht => step_sound h ht) start_sound hr

/-- No tables change but those of one namespace, while it exists. -/
def Isolated (w : World) (owner : Nat) (u : World) : Prop :=
  ∀ j, (u.netnss.elt j).netns ≠ (w.netnss.elt j).netns →
    Live w.netnss j ∧ (w.netnss.elt j).serial = owner

/-- The namespace that the stream of an event was opened for. -/
def ownerOf (w : World) : Signal → Nat
  | .read _ owner => owner
  | s => (w.streams.elt s.stream).owner

/-- Nothing of interest is read for a stream after it was closed. -/
def Prompt (w : World) : Act → Prop
  | .deliver k _ buffers => ∀ i owner rest, takes w.pending k = some (.read i owner, rest) →
    (Open w i ∧ (w.streams.elt i).owner = owner) ∨ Objectless buffers
  | _ => True

theorem process_isolated {owner : Nat} (h : Linked w)
    (he : (Open w i ∧ (w.streams.elt i).owner = owner) ∨ Silent e) :
    Isolated w owner (processStream w now i e) := by
  intro j hj
  have hne : (processStream w now i e).netnss.elt j ≠ w.netnss.elt j :=
    fun heq => hj (congrArg NetnsP.netns heq)
  obtain ⟨rfl, hs⟩ := process_tables hne
  obtain ⟨hopen, rfl⟩ := he.resolve_right hs
  obtain ⟨hl, hh⟩ := h.served i hopen
  have ho := (h.serves _ hl).2.2
  rw [hh] at ho
  exact ⟨hl, ho.symm⟩

/-- As long as no stream is read after it was closed, what is read for a stream
changes the tables of no other namespace than the one it was opened for, and none
once that is gone. -/
theorem run_isolated {as : List Act} {a : Act} (hc : Meets step Prompt start (as ++ [a]))
    (hr : run step start as = some w) (ht : step w a = some u) :
    ∀ k now buffers s rest, a = .deliver k now buffers → takes w.pending k = some (s, rest) →
      Isolated w (ownerOf w s) u := by
  rintro k now buffers s rest rfl hs
  have hp : Prompt w (.deliver k now buffers) := ((meets_append.mp hc).2 w hr).1
  rw [step, hs] at ht
  obtain rfl := Option.some.inj ht
  -- taking the event from the queue touches no table
  have hl : Sound { w with pending := rest } := by
    apply (run_sound hr).pending
    intro i
    rw [← (takes_perm hs).count_eq]
    exact List.count_le_count_cons
  apply process_isolated hl.linked
  cases s with
  | opened i => exact Or.inr trivial
  | closed i => exact Or.inr trivial
  | read i owner => exact hp i owner rest hs

def linkMessage : RtnlMsg := ⟨⟨32, rtmNewlink, fun _ => 0, none⟩, 0, 0⟩

def bothReady : List Act :=
  [.netnsOpen [97] true true, .netnsOpen [98] true true, .deliver 0 0 [], .deliver 0 0 [],
    .clock 1 (fun _ => .opened) (fun _ => true), .readReady 1, .readReady 0]

def readLink : Act := .deliver 0 2 [⟨[⟨linkMessage, true⟩], false⟩]

/-- What is read for the second namespace is not of the first. -/
theorem run_isolated_sample :
    ∃ w u, run step start bothReady = some w ∧ step w readLink = some u ∧
      (takes w.pending 0).map Prod.fst = some (.read 1 1) ∧ Isolated w 1 u ∧
      (u.netnss.elt 1).netns ≠ (w.netnss.elt 1).netns := by
  have hc : Meets step Prompt start (bothReady ++ [readLink]) := by
    refine ⟨trivial, fun w hw => ⟨trivial, fun w₁ h₁ => ⟨?_, fun w₂ h₂ => ⟨?_, fun w₃ h₃ =>
      ⟨trivial, fun w₄ h₄ => ⟨trivial, fun w₅ h₅ => ⟨trivial, fun w₆ h₆ => ⟨?_,
        fun _ _ => trivial⟩⟩⟩⟩⟩⟩⟩⟩
    · intro i owner rest ht
      obtain rfl := Option.some.inj hw
      obtain rfl := Option.some.inj h₁
      cases ht
    · intro i owner rest ht
      obtain rfl := Option.some.inj hw
      obtain rfl := Option.some.inj h₁
      obtain rfl := Option.some.inj h₂
      cases ht
    · intro i owner rest ht
      obtain rfl := Option.some.inj hw
      obtain rfl := Option.some.inj h₁
      obtain rfl := Option.some.inj h₂
      obtain rfl := Option.some.inj h₃
      obtain rfl := Option.some.inj h₄
      obtain rfl := Option.some.inj h₅
      obtain rfl := Option.some.inj h₆
      obtain ⟨hi, _⟩ := Prod.mk.inj (Option.some.inj ht)
      obtain ⟨rfl, rfl⟩ := Signal.read.inj hi
      exact Or.inl (by decide +kernel)
  refine ⟨_, _, rfl, rfl, rfl, run_isolated hc rfl rfl 0 2 _ (.read 1 1) [.read 0 0] rfl rfl, ?_⟩
  intro h
  have hl := congrArg (fun ns => ns.links.len) h
  exact absurd hl (by decide +kernel)

def openedAndReady : List Act :=
  [.netnsOpen [97] true true, .deliver 0 0 [], .clock 1 (fun _ => .opened) (fun _ => true),
    .readReady 0]

/-- The namespace is closed while the event is pending, and another one takes
its slot. -/
theorem stale_read_changes_other :
    ∃ w u, run step start (openedAndReady ++ [.netnsClose 0, .netnsOpen [98] true true]) = some w ∧
      step w readLink = some u ∧ (takes w.pending 0).map Prod.fst = some (.read 0 0) ∧
      (w.netnss.elt 0).serial = 1 ∧ (u.netnss.elt 0).netns ≠ (w.netnss.elt 0).netns := by
  refine ⟨_, _, rfl, rfl, rfl, rfl, fun h => ?_⟩
  have hl := congrArg (fun ns => ns.links.len) h
  exact absurd hl (by decide +kernel)

end Vppsb.NetnsIsolation
