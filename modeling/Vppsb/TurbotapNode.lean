import Vppsb.TurbotapBuffers
import Vppsb.TurbotapSlots

namespace Vppsb.TurbotapNode

open Vppsb.StepRun Vppsb.NextFrames Vppsb.VlibBuffer Vppsb.TurbotapRx
open Vppsb.Turbotap (Interface ActiveAt clibBitmapSet clibBitmapGet)
open Vppsb.TurbotapBuffers (Received Served)

/-- The interfaces of the plugin, the buffers that wait, and `rx_ready` of each slot. -/
structure Plane where
  st : Turbotap.State
  main : RxMain
  rxReady : Nat → Nat

/-- A turn of the loop of `turbotap_rx`, for the interface in a slot. -/
def ifaceStep (lengths size : Nat) (p : Plane) (e : Nat × Call) : Option Plane := do
  let st := { p.st with pendingReadBitmap := clibBitmapSet p.st.pendingReadBitmap e.1 false }
  let ti ← st.turbotapInterfaces[e.1]?
  let r ← turbotapRxIface lengths size e.2 ti p.main (p.rxReady e.1)
  some ⟨st, r.main, Function.update p.rxReady e.1 r.rxReady⟩

def readyInterfaceIndices (p : Plane) : List Nat :=
  (List.range p.st.pendingReadBitmap.length).filter (clibBitmapGet p.st.pendingReadBitmap)

/-- The `k`-th interface that is ready gets the `k`-th call. -/
def turns (calls : Nat → Call) (ready : List Nat) : List (Nat × Call) :=
  ready.zipIdx.map (fun e => (e.1, calls e.2))

def turbotapRx (lengths size : Nat) (calls : Nat → Call) (p : Plane) : Option Plane :=
  run (ifaceStep lengths size) p (turns calls (readyInterfaceIndices p))

/-- What a connect leaves: a slot that is registered asks for as many messages as there can be. -/
def connect (p : Plane) (o : Turbotap.Outcome) : Plane :=
  let r := Turbotap.vnetTurbotapConnect p.st o
  match r.2 with
  | .error _ => { p with st := r.1 }
  | .ok sw =>
    { p with
      st := r.1
      rxReady := fun i =>
        if r.1.turbotapInterfaceIndexBySwIfIndex sw = some i then maxRecv else p.rxReady i }

/-- `others` is what the other nodes do with the buffers. -/
inductive Event where
  | connect (o : Turbotap.Outcome)
  | delete (swIfIndex : Nat)
  | flagChange (devInstance maxPacketBytes : Nat) (flags : Turbotap.EthernetFlags)
      (getFlags setFlags : Bool)
  | readReady (fileDescriptor : Int)
  | rx (calls : Nat → Call)
  | others (buffers : Nat → Buffer)

def step (lengths size : Nat) (p : Plane) : Event → Option Plane
  | .connect o => some (connect p o)
  | .delete sw => (Turbotap.step p.st (.delete sw)).map (fun s => { p with st := s })
  | .flagChange i maxPacketBytes flags getFlags setFlags =>
    (Turbotap.step p.st (.flagChange i maxPacketBytes flags getFlags setFlags)).map
      (fun s => { p with st := s })
  | .readReady fd => some { p with st := Turbotap.turbotapReadReady p.st fd }
  | .rx calls => turbotapRx lengths size calls p
  | .others buffers => some { p with main := { p.main with buffers := buffers } }

def start (isDisabled : Bool) (mtuBytes bufferSize : Nat) (devices : String → BitVec 16)
    (buffers : Nat → Buffer) : Plane :=
  ⟨Turbotap.start isDisabled mtuBytes bufferSize devices, ⟨[], [], buffers⟩, fun _ => 0⟩

def TurnPossible (size : Nat) (p : Plane) (e : Nat × Call) : Prop :=
  ∀ ti, p.st.turbotapInterfaces[e.1]? = some ti →
    TurbotapBuffers.Possible size e.2 ti p.main (p.rxReady e.1)

def Fair (lengths size : Nat) (p : Plane) : Event → Prop
  | .connect o => Turbotap.Possible p.st (.connect o)
  | .delete _ | .readReady _ => True
  | .flagChange i maxPacketBytes flags getFlags setFlags =>
    Turbotap.Possible p.st (.flagChange i maxPacketBytes flags getFlags setFlags)
  | .rx calls =>
    Meets (ifaceStep lengths size) (TurnPossible size) p (turns calls (readyInterfaceIndices p))
  | .others buffers => ∀ b ∈ p.main.rxBuffers, buffers b = p.main.buffers b

/-- What a turn does: as many messages as find a slot in the frame go out, each whole in its own
chain, from the interface whose socket they were read from; a reply to that interface finds
the same slot. -/
def TurnReceives (lengths size : Nat) (p : Plane) (e : Nat × Call) : Prop :=
  ∃ ti r chains, p.st.turbotapInterfaces[e.1]? = some ti ∧
    turbotapRxIface lengths size e.2 ti p.main (p.rxReady e.1) = some r ∧
    Received size e.2 ti p.main (p.rxReady e.1) r chains ∧
    chains.length = min e.2.messages.length (freeSlots e.2 ti) ∧
    (∀ bs ∈ chains, (r.main.buffers (bs.headD 0)).swIfIndexRx = ti.swIfIndex) ∧
    (ti.active = true → p.st.turbotapInterfaceIndexBySwIfIndex ti.swIfIndex = some e.1)

/-- A run of the node serves each interface that is ready once, and leaves none ready. -/
def Receives (lengths size : Nat) (p : Plane) : Event → Prop
  | .rx calls => ∃ q, turbotapRx lengths size calls p = some q ∧
      (∀ i, clibBitmapGet q.st.pendingReadBitmap i = false) ∧
      (∀ i, i ∈ readyInterfaceIndices p ↔ clibBitmapGet p.st.pendingReadBitmap i = true) ∧
      (readyInterfaceIndices p).Nodup ∧
      Meets (ifaceStep lengths size) (TurnReceives lengths size) p
        (turns calls (readyInterfaceIndices p))
  | _ => True

section Marks

variable {lengths size swIfIndex : Nat} {m : Nat → Buffer} {ti : Interface} {c : Call}

theorem update_rx {k : Nat} {x : Buffer} (h : x.swIfIndexRx = (m k).swIfIndexRx) (b : Nat) :
    (Function.update m k x b).swIfIndexRx = (m b).swIfIndexRx := by
  by_cases hb : b = k
  · rw [hb, Function.update_self, h]
  · rw [Function.update_of_ne hb]

theorem addToChain_rx (bi first prev b : Nat) :
    (bufferAddToChain m bi first prev b).swIfIndexRx = (m b).swIfIndexRx := by
  rw [bufferAddToChain]
  refine (update_rx ?_ b).trans ((update_rx ?_ b).trans (update_rx ?_ b)) <;> rfl

theorem grabBuffers_keeps (free : List Nat) (n : Nat) (g : Building) (m : Nat → Buffer) (b : Nat)
    (hb : (m b).swIfIndexRx = swIfIndex) :
    ((grabBuffers lengths size swIfIndex free n g m).2.2 b).swIfIndexRx = swIfIndex := by
  induction free generalizing n g m with
  | nil => exact hb
  | cons bi free ih =>
    rw [grabBuffers]
    split
    · exact hb
    · dsimp only
      have hlen : ∀ len, (Function.update m bi { m bi with currentLength := len } b).swIfIndexRx =
          swIfIndex := by
        intro len
        refine (update_rx ?_ b).trans hb
        rfl
      split
      · refine ih _ _ _ ?_
        by_cases hbb : b = bi
        · rw [hbb, Function.update_self]
        · rw [Function.update_of_ne hbb]
          exact hlen _
      · refine ih _ _ _ ?_
        rw [addToChain_rx]
        exact hlen _

theorem grabBuffers_first (free : List Nat) (n : Nat) (g : Building) (m : Nat → Buffer)
    (hg : g.bytesAlreadyPut ≠ 0) :
    (grabBuffers lengths size swIfIndex free n g m).1.firstBi0 = g.firstBi0 := by
  induction free generalizing n g m with
  | nil => rfl
  | cons bi free ih =>
    rw [grabBuffers]
    split
    · rfl
    · exact ih _ _ _ (by dsimp only; omega)

theorem grabBuffers_marks (hsize : 0 < size) {free : List Nat} (hfree : free ≠ []) {n : Nat}
    (hn : 0 < n) (m : Nat → Buffer) :
    ((grabBuffers lengths size swIfIndex free n ⟨0, 0, 0, 0⟩ m).2.2
      (grabBuffers lengths size swIfIndex free n ⟨0, 0, 0, 0⟩ m).1.firstBi0).swIfIndexRx =
        swIfIndex := by
  obtain ⟨bi, free, rfl⟩ := List.exists_cons_of_ne_nil hfree
  have hput : (if size < n then size else n) ≠ 0 := by split <;> omega
  rw [grabBuffers, if_neg (Nat.ne_of_gt hn)]
  dsimp only
  rw [if_pos rfl, grabBuffers_first _ _ _ _ hput]
  refine grabBuffers_keeps _ _ _ _ _ ?_
  rw [Function.update_self]

def Marked (ti : Interface) (s : RxLoop) : Prop :=
  ∀ e ∈ placed s.frames, (s.buffers e.2).swIfIndexRx = ti.swIfIndex

theorem rxMessage_marked (hsize : 0 < size) (hmtu : 1 ≤ ti.mtuBuffers) {s s' : RxLoop}
    {msg : List UInt8} (hmsg : 0 < msg.length) (h : Marked ti s)
    (hr : rxMessage lengths size c ti s msg = some s') : Marked ti s' := by
  simp only [rxMessage] at hr
  split at hr
  · cases hr
  · rename_i hspare
    obtain rfl := Option.some.inj hr
    have hfree : s.free ≠ [] := by
      intro hnil
      rw [hnil] at hspare
      exact hspare (Nat.lt_of_lt_of_le Nat.one_pos hmtu)
    intro e he
    rw [placed_validate_write] at he
    rcases List.mem_append.mp he with he | he
    · exact grabBuffers_keeps _ _ _ _ _ (h e he)
    · rw [List.mem_singleton.mp he]
      exact grabBuffers_marks hsize hfree hmsg s.buffers

theorem rxLoop_marked (hsize : 0 < size) (hmtu : 1 ≤ ti.mtuBuffers) {msgs : List (List UInt8)}
    (hmsgs : ∀ msg ∈ msgs, 1 ≤ msg.length) {s s' : RxLoop} (h : Marked ti s)
    (hr : rxLoop lengths size c ti msgs s = some s') : Marked ti s' := by
  induction msgs generalizing s with
  | nil =>
    obtain rfl := Option.some.inj hr
    exact h
  | cons msg msgs ih =>
    rw [rxLoop] at hr
    split at hr
    · obtain rfl := Option.some.inj hr
      exact h
    · obtain ⟨s₁, hm, hr⟩ := Option.bind_eq_some_iff.mp hr
      have h₁ := rxMessage_marked hsize hmtu (hmsgs msg List.mem_cons_self) h hm
      exact ih (fun m hm => hmsgs m (List.mem_cons_of_mem msg hm)) h₁ hr

theorem rxIface_marked (hsize : 0 < size) (hmtu : 1 ≤ ti.mtuBuffers) {tr : RxMain} {rxReady : Nat}
    (hmsgs : ∀ msg ∈ c.messages, 1 ≤ msg.length) {r : RxResult}
    (hr : turbotapRxIface lengths size c ti tr rxReady = some r) :
    ∀ e ∈ enqueued r.sent, (r.main.buffers e.2).swIfIndexRx = ti.swIfIndex := by
  by_cases hnil : c.messages = []
  · simp only [turbotapRxIface, if_pos hnil] at hr
    obtain rfl := Option.some.inj hr
    exact fun e he => absurd he List.not_mem_nil
  · simp only [turbotapRxIface, if_neg hnil, Option.bind_eq_bind] at hr
    obtain ⟨s, hl, hr⟩ := Option.bind_eq_some_iff.mp hr
    obtain rfl := Option.some.inj hr
    rw [enqueued_putNextFrame]
    refine rxLoop_marked hsize hmtu hmsgs (fun e he => ?_) hl
    rw [placed_get] at he
    exact absurd he List.not_mem_nil

end Marks

/-- The slots that may be read: those in use, and those whose bit is set. -/
def Used (s : Turbotap.State) (i : Nat) : Prop :=
  clibBitmapGet s.pendingReadBitmap i = true ∨ ∃ ti, ActiveAt s.turbotapInterfaces i ti

structure Good (p : Plane) : Prop where
  sound : TurbotapSlots.Sound p.st
  main : TurbotapBuffers.Sound p.main
  ready : ∀ i, Used p.st i → 1 ≤ p.rxReady i ∧ p.rxReady i ≤ maxRecv

section Turns

variable {lengths size : Nat} {p q : Plane} {i k : Nat} {calls : Nat → Call}

def served (s : Turbotap.State) (i : Nat) : Turbotap.State :=
  { s with pendingReadBitmap := clibBitmapSet s.pendingReadBitmap i false }

theorem served_bit (s : Turbotap.State) (i j : Nat) :
    clibBitmapGet (served s i).pendingReadBitmap j = true ↔
      j ≠ i ∧ clibBitmapGet s.pendingReadBitmap j = true := by
  rw [served, TurbotapSlots.clibBitmapGet_set]
  by_cases hj : j = i <;> simp [hj]

theorem served_sound (hs : TurbotapSlots.Sound p.st) (i : Nat) :
    TurbotapSlots.Sound (served p.st i) :=
  TurbotapSlots.bitmap_sound hs fun j hj => hs.pending j ((served_bit p.st i j).mp hj).2

/-- A turn for an interface that is ready. -/
theorem turn_receives (hsize : 0 < size) (hfits : size < lengths) (hg : Good p)
    (hi : clibBitmapGet p.st.pendingReadBitmap i = true) {c : Call}
    (hp : TurnPossible size p (i, c)) :
    ∃ q, ifaceStep lengths size p (i, c) = some q ∧ Good q ∧ q.st = served p.st i ∧
      TurnReceives lengths size p (i, c) := by
  have hti := List.getElem?_eq_getElem (hg.sound.pending i hi)
  obtain ⟨ti, hslot⟩ : ∃ ti, p.st.turbotapInterfaces[i]? = some ti := ⟨_, hti⟩
  have hpos := hp ti hslot
  have hready := hg.ready i (Or.inl hi)
  obtain ⟨r, chains, hr, hrec, hmain⟩ :=
    TurbotapBuffers.rxIface_spec hsize hfits hready hg.main hpos
  have hmarked := rxIface_marked hsize hpos.mtuBuffers (fun msg hm => (hpos.lengths msg hm).1) hr
  rw [hrec.entries] at hmarked
  refine ⟨⟨served p.st i, r.main, Function.update p.rxReady i r.rxReady⟩, ?_, ?_, rfl,
    ti, r, chains, hslot, hr, hrec, hrec.serves, fun bs hbs => ?_, fun hact => ?_⟩
  · simp only [ifaceStep, served, hslot, hr, Option.bind_eq_bind, Option.bind_some]
  · refine ⟨served_sound hg.sound i, hmain, fun j hj => ?_⟩
    by_cases hji : j = i
    · subst hji
      dsimp only
      rw [Function.update_self]
      exact hrec.ready
    · dsimp only
      rw [Function.update_of_ne hji]
      exact hg.ready j (hj.imp_left fun h => ((served_bit p.st i j).mp h).2)
  · exact hmarked _ (List.mem_map_of_mem hbs)
  · exact (hg.sound.found i ti ⟨hslot, hact⟩).1

theorem turns_receive (hsize : 0 < size) (hfits : size < lengths) (hg : Good p) {ready : List Nat}
    (hn : ready.Nodup) (hready : ∀ i ∈ ready, clibBitmapGet p.st.pendingReadBitmap i = true)
    (hp : Meets (ifaceStep lengths size) (TurnPossible size) p
      ((ready.zipIdx k).map (fun e => (e.1, calls e.2)))) :
    ∃ q, run (ifaceStep lengths size) p ((ready.zipIdx k).map (fun e => (e.1, calls e.2))) = some q ∧
      Good q ∧ (∀ i, clibBitmapGet q.st.pendingReadBitmap i = true ↔
        i ∉ ready ∧ clibBitmapGet p.st.pendingReadBitmap i = true) ∧
      Meets (ifaceStep lengths size) (TurnReceives lengths size) p
        ((ready.zipIdx k).map (fun e => (e.1, calls e.2))) := by
  induction ready generalizing p k with
  | nil => exact ⟨p, rfl, hg, fun i => ⟨fun h => ⟨List.not_mem_nil, h⟩, fun h => h.2⟩, trivial⟩
  | cons i ready ih =>
    rw [List.zipIdx_cons, List.map_cons] at hp ⊢
    obtain ⟨hi, hn'⟩ := List.nodup_cons.mp hn
    obtain ⟨u, hu, hgu, hst, hrec⟩ :=
      turn_receives hsize hfits hg (hready i List.mem_cons_self) hp.1
    have hready' : ∀ j ∈ ready, clibBitmapGet u.st.pendingReadBitmap j = true := by
      intro j hj
      rw [hst, served_bit]
      refine ⟨?_, hready j (List.mem_cons_of_mem i hj)⟩
      rintro rfl
      exact hi hj
    obtain ⟨q, hq, hgq, hbits, hmeets⟩ := ih hgu hn' hready' (hp.2 u hu)
    refine ⟨q, run_cons_eq_some.mpr ⟨u, hu, hq⟩, hgq, fun j => ?_, hrec, fun t ht => ?_⟩
    · rw [hbits, hst, served_bit, List.mem_cons, not_or]
      exact ⟨fun h => ⟨⟨h.2.1, h.1⟩, h.2.2⟩, fun h => ⟨h.1.2, h.1.1, h.2⟩⟩
    · obtain rfl := Option.some.inj (hu.symm.trans ht)
      exact hmeets

theorem mem_readyInterfaceIndices : i ∈ readyInterfaceIndices p ↔
    clibBitmapGet p.st.pendingReadBitmap i = true := TurbotapSlots.mem_ready

theorem readyInterfaceIndices_nodup (p : Plane) : (readyInterfaceIndices p).Nodup :=
  List.nodup_range.filter _

theorem rx_receives (hsize : 0 < size) (hfits : size < lengths) (hg : Good p)
    (hp : Fair lengths size p (.rx calls)) : ∃ q, turbotapRx lengths size calls p = some q ∧ Good q ∧
      Receives lengths size p (.rx calls) := by
  have hn := readyInterfaceIndices_nodup p
  obtain ⟨q, hq, hgq, hbits, hmeets⟩ := turns_receive (k := 0) hsize hfits hg hn
    (fun i hi => mem_readyInterfaceIndices.mp hi) hp
  refine ⟨q, hq, hgq, q, hq, fun i => ?_, fun i => mem_readyInterfaceIndices, hn, hmeets⟩
  refine Bool.eq_false_iff.mpr fun h => ?_
  obtain ⟨hnot, hbit⟩ := (hbits i).mp h
  exact hnot (mem_readyInterfaceIndices.mpr hbit)

end Turns

section Control

variable {lengths size : Nat} {p : Plane} {s t : Turbotap.State} {i : Nat}

theorem Good.control (hg : Good p) (ht : TurbotapSlots.Sound t)
    (hused : ∀ i, Used t i → Used p.st i) : Good { p with st := t } :=
  ⟨ht, hg.main, fun i hi => hg.ready i (hused i hi)⟩

theorem used_edit {k : Nat} {f : Interface → Interface} (h : Used (s.edit k f) i)
    (hf : ∀ tj : Interface, (f tj).active = tj.active) : Used s i := by
  refine h.imp_right fun h => ?_
  obtain ⟨tj, hget, hact⟩ := h
  rw [Turbotap.State.edit, List.getElem?_modify] at hget
  obtain ⟨ti, hti, heq⟩ := Option.map_eq_some_iff.mp hget
  refine ⟨ti, hti, ?_⟩
  rw [← heq] at hact
  split at hact
  · exact (hf ti).symm.trans hact
  · exact hact

theorem stepped_used {e : Turbotap.Event} (hst : TurbotapSlots.Stepped s e t)
    (he : ∀ o, e ≠ .connect o) (h : Used t i) : Used s i := by
  cases hst with
  | connect hend => exact absurd rfl (he _)
  | unknown _ => exact h
  | deleted _ hti =>
    refine h.imp_right fun h => ?_
    obtain ⟨tj, htj⟩ := h
    exact ⟨tj, ((TurbotapSlots.deleted_activeAt hti i tj).mp htj).2⟩
  | resized _ _ => exact used_edit h fun _ => rfl
  | kept _ _ => exact h
  | switched _ => exact used_edit h fun _ => rfl
  | ignored _ => exact h
  | ready hti =>
    rcases h with h | h
    · rw [TurbotapSlots.clibBitmapGet_set] at h
      split at h
      · next hj => exact Or.inr ⟨_, hj ▸ hti⟩
      · exact Or.inl h
    · exact Or.inr h
  | rx hbits =>
    refine h.imp_left fun h => ?_
    exact absurd ((hbits i).symm.trans h) Bool.false_ne_true

theorem connect_used (hs : TurbotapSlots.Sound s) {o : Turbotap.Outcome}
    (hp : Turbotap.Possible s (.connect o)) (h : Used (Turbotap.vnetTurbotapConnect s o).1 i) :
    Used s i ∨ ∃ sw, (Turbotap.vnetTurbotapConnect s o).2 = .ok sw ∧
      (Turbotap.vnetTurbotapConnect s o).1.turbotapInterfaceIndexBySwIfIndex sw = some i := by
  have hend := TurbotapSlots.connect_end hs hp
  generalize Turbotap.vnetTurbotapConnect s o = r at hend h
  cases hend with
  | undone e devices => exact Or.inl h
  | leaked e => exact Or.inl h
  | late e devices slots list k f _ _ _ htaken hf =>
    refine Or.inl (h.imp_right fun h => ?_)
    obtain ⟨tj, htj⟩ := h
    exact ⟨tj, (htaken.activeAt ((hf _).trans htaken.slot.2) i tj).mp htj⟩
  | done devices slots list k f new hw sw _ _ _ htaken _ _ hf =>
    rcases h with h | h
    · exact Or.inl (Or.inl h)
    · obtain ⟨tj, htj⟩ := h
      rcases (htaken.activeAt_done (hf _).1 i tj).mp htj with ⟨hik, _⟩ | ⟨_, hold⟩
      · refine Or.inr ⟨sw, rfl, ?_⟩
        rw [hik]
        exact Function.update_self _ _ _
      · exact Or.inl (Or.inr ⟨tj, hold⟩)

theorem connect_good (hg : Good p) {o : Turbotap.Outcome}
    (hp : Turbotap.Possible p.st (.connect o)) : Good (connect p o) := by
  have hsound : TurbotapSlots.Sound (Turbotap.vnetTurbotapConnect p.st o).1 :=
    (TurbotapSlots.connect_end hg.sound hp).sound hg.sound hp
  have hused := fun i => connect_used (i := i) hg.sound hp
  rw [connect]
  generalize Turbotap.vnetTurbotapConnect p.st o = r at hsound hused ⊢
  obtain ⟨s, res⟩ := r
  cases res with
  | error e =>
    refine hg.control hsound fun i hi => (hused i hi).resolve_right ?_
    rintro ⟨sw, hsw, _⟩
    cases hsw
  | ok sw =>
    refine ⟨hsound, hg.main, fun i hi => ?_⟩
    dsimp only
    split
    · exact ⟨by decide, Nat.le_refl _⟩
    · rename_i hne
      refine hg.ready i ((hused i hi).resolve_right ?_)
      rintro ⟨sw', hsw, hfound⟩
      cases hsw
      exact hne hfound

theorem Good.stepped (hg : Good p) {e : Turbotap.Event} (hp : Turbotap.Possible p.st e)
    (he : ∀ o, e ≠ .connect o) :
    ∃ t, Turbotap.step p.st e = some t ∧ Good { p with st := t } := by
  obtain ⟨t, ht, hst⟩ := TurbotapSlots.step_spec hg.sound hp
  exact ⟨t, ht, hg.control (hst.sound hg.sound hp) fun i hi => stepped_used hst he hi⟩

theorem Good.step (hsize : 0 < size) (hfits : size < lengths) (hg : Good p) {e : Event}
    (hf : Fair lengths size p e) : ∃ q, TurbotapNode.step lengths size p e = some q ∧ Good q ∧
      Receives lengths size p e := by
  cases e with
  | connect o => exact ⟨_, rfl, connect_good hg hf, trivial⟩
  | delete sw =>
    obtain ⟨t, ht, hgt⟩ := hg.stepped (e := .delete sw) trivial fun _ => Turbotap.Event.noConfusion
    exact ⟨_, by rw [TurbotapNode.step, ht]; rfl, hgt, trivial⟩
  | flagChange i maxPacketBytes flags getFlags setFlags =>
    obtain ⟨t, ht, hgt⟩ := hg.stepped
      (e := .flagChange i maxPacketBytes flags getFlags setFlags) hf fun _ =>
      Turbotap.Event.noConfusion
    exact ⟨_, by rw [TurbotapNode.step, ht]; rfl, hgt, trivial⟩
  | readReady fd =>
    obtain ⟨t, ht, hgt⟩ := hg.stepped (e := .readReady fd) trivial
      fun _ => Turbotap.Event.noConfusion
    obtain rfl := Option.some.inj ht
    exact ⟨_, rfl, hgt, trivial⟩
  | rx calls => exact rx_receives hsize hfits hg hf
  | others buffers =>
    refine ⟨_, rfl, ⟨hg.sound, ⟨fun b hb => ?_, hg.main.unused⟩, hg.ready⟩, trivial⟩
    show (buffers b).nextPresent = false
    rw [hf b hb]
    exact hg.main.clear b hb

end Control

theorem start_good (isDisabled : Bool) (mtuBytes bufferSize : Nat) (devices : String → BitVec 16)
    (buffers : Nat → Buffer) : Good (start isDisabled mtuBytes bufferSize devices buffers) := by
  refine ⟨TurbotapSlots.start_sound, ⟨fun _ hb => absurd hb List.not_mem_nil, rfl⟩, fun i hi => ?_⟩
  rcases hi with h | ⟨ti, hti⟩
  · exact absurd h Bool.false_ne_true
  · exact absurd hti.1 (Option.some_ne_none ti).symm

theorem run_good {lengths size : Nat} (hsize : 0 < size) (hfits : size < lengths) {p : Plane}
    (hg : Good p) {events : List Event}
    (hf : Meets (step lengths size) (Fair lengths size) p events) :
    ∃ q, run (step lengths size) p events = some q ∧
      Meets (step lengths size) (Receives lengths size) p events := by
  induction events generalizing p with
  | nil => exact ⟨p, rfl, trivial⟩
  | cons e events ih =>
    obtain ⟨t, ht, hgt, hrec⟩ := hg.step hsize hfits hf.1
    obtain ⟨q, hq, hmeets⟩ := ih hgt (hf.2 t ht)
    refine ⟨q, run_cons_eq_some.mpr ⟨t, ht, hq⟩, hrec, fun u hu => ?_⟩
    obtain rfl := Option.some.inj (ht.symm.trans hu)
    exact hmeets

/-- However interfaces are connected, deleted, changed and become ready between them, every run
of the node serves each interface that is ready once, and what is received leaves whole, from
the interface that it was received on, without a buffer lost or used twice. -/
theorem run_serves (lengths size : Nat) (hsize : 0 < size) (hfits : size < lengths)
    (isDisabled : Bool) (mtuBytes bufferSize : Nat) (devices : String → BitVec 16)
    (buffers : Nat → Buffer) (events : List Event)
    (hf : Meets (step lengths size) (Fair lengths size)
      (start isDisabled mtuBytes bufferSize devices buffers) events) :
    ∃ q, run (step lengths size) (start isDisabled mtuBytes bufferSize devices buffers) events =
        some q ∧
      Meets (step lengths size) (Receives lengths size)
        (start isDisabled mtuBytes bufferSize devices buffers) events :=
  run_good hsize hfits (start_good isDisabled mtuBytes bufferSize devices buffers) hf

def emptyBuffer : Buffer := ⟨fun _ => 0, 0, 0, false, false, 0, 0, 0, 0⟩

def shortMessage : Call := ⟨[1, 2, 3, 4], false, fun _ => 255, [[7, 8, 9]], false⟩

def oneInterface : List Event :=
  [.connect (TurbotapSlots.allDone 3 "tap0" 7 9), .readReady 4, .rx (fun _ => shortMessage)]

theorem run_serves_sample : ∃ q,
    run (step 0x10000 2048) (start false 1500 2048 (fun _ => 0) (fun _ => emptyBuffer))
        oneInterface = some q ∧
      Meets (step 0x10000 2048) (Receives 0x10000 2048)
        (start false 1500 2048 (fun _ => 0) (fun _ => emptyBuffer)) oneInterface := by
  refine run_serves 0x10000 2048 (by decide) (by decide) false 1500 2048 (fun _ => 0)
    (fun _ => emptyBuffer) oneInterface ⟨⟨by decide, fun hw sw _ i ti h => nomatch h⟩,
      fun s hs => ⟨trivial, fun t ht => ⟨?_, fun _ _ => trivial⟩⟩⟩
  obtain rfl := Option.some.inj hs
  obtain rfl := Option.some.inj ht
  refine ⟨fun ti hti => ?_, fun _ _ => trivial⟩
  obtain rfl := Option.some.inj hti
  constructor
  case mtuBuffers => decide
  case distinct => decide
  case clear => exact fun _ _ => rfl
  case count => decide
  case lengths => decide

end Vppsb.TurbotapNode
