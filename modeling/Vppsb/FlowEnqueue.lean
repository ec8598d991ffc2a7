import Vppsb.FlowLimit
import Vppsb.NextFrames

namespace Vppsb.FlowEnqueue

open Vppsb.StepRun Vppsb.PoolStore Vppsb.LinkedRing Vppsb.FlowSignature Vppsb.FlowTable
  Vppsb.FlowProcess Vppsb.FlowInvariant Vppsb.FlowExpire Vppsb.FlowWheel Vppsb.FlowLookup
  Vppsb.FlowRun Vppsb.FlowIdentity Vppsb.FlowFull Vppsb.FlowLimit Vppsb.NextFrames

/-- Both loops over the buffers of a frame, each with its index, and the frames
that they fill. After a failed allocation `to_next` and `from` stay where they
are, and the buffer is validated all the same. -/
def enqueueLoop (cmp : AddressCompare) (room : Nat → Nat) (now : Nat) :
    Nat → Nat → FlowtableMain → Frames Nat → List (Nat × Arrival) →
      Option (FlowtableMain × Frames Nat)
  | _, _, fm, l, [] => some (fm, putNextFrame l)
  | 0, _, _, _, _ :: _ => none
  | n + 1, k, fm, l, (pi0, a) :: rest => do
    let l := withRoom room l
    let r ← processPacket cmp now fm a.buffer (a.stack k)
    match r with
    | (fm, b, none) =>
      enqueueLoop cmp room now n (k + 1) fm (validateBufferEnqueue room l pi0 ftNextEthernetInput)
        ((pi0, ⟨b, a.stack⟩) :: rest)
    | (fm, _, some sent) =>
      enqueueLoop cmp room now n 0 fm (validateBufferEnqueue room (write l pi0) pi0 sent.next0) rest

/-- `flowtable_process` with the frames that it puts, none if it gets no buffer. -/
def flowtableFrames (cmp : AddressCompare) (room : Nat → Nat) (passes now cachedNextIndex : Nat)
    (fm : FlowtableMain) (frame : List (Nat × Arrival)) :
    Option (FlowtableMain × List (Nat × List Nat) × Nat) := do
  let fm ← timerWheelIndexUpdate fm now
  let l := getNextFrame room noFrames cachedNextIndex
  let r ← if frame = [] then some (fm, noFrames) else enqueueLoop cmp room now passes 0 fm l frame
  let r' ← flowtableTimerExpire r.1
  some (r'.1, r.2.sent, r'.2)

/-- The call comes to an end, and each buffer is in the frames that it has put
just once. -/
def EnqueuesOnce (cmp : AddressCompare) (room : Nat → Nat) (now cachedNextIndex : Nat)
    (fm : FlowtableMain) (frame : List (Nat × Arrival)) : Prop :=
  ∃ passes r, flowtableFrames cmp room passes now cachedNextIndex fm frame = some r ∧
    ((enqueued r.2.1).map Prod.snd).Perm (frame.map Prod.fst)

/-- An IP packet whose signature is not in the table, and the limit is exceeded. -/
def NeedsFlow (cmp : AddressCompare) (fm : FlowtableMain) (b : Buffer) (stack : Bytes) : Prop :=
  ∃ sigLen p,
    parsePacket cmp (ethernetType b) (vlibBufferAdvance b sizeofEthernetHeader) = some (sigLen, p) ∧
      fmPoolCount < fm.flowsCpt ∧ NotInTable fm p.hash stack sigLen

/-- From a table, a next index and a number of lookups made for the first
buffer: no buffer needs a flow that it cannot get, except while the frame for
`FT_NEXT_ETHERNET_INPUT` is filled, and then not for ever. -/
inductive Smooth (cmp : AddressCompare) (now : Nat) :
    Nat → Nat → FlowtableMain → List (Nat × Arrival) → Prop
  | done (next k : Nat) (fm : FlowtableMain) : Smooth cmp now next k fm []
  | served (next k : Nat) (fm fm' : FlowtableMain) (pi0 : Nat) (a : Arrival)
      (xs : List (Nat × Arrival)) (b : Buffer) (sent : Sent)
      (flow : ¬ NeedsFlow cmp fm a.buffer (a.stack k))
      (pass : processPacket cmp now fm a.buffer (a.stack k) = some (fm', b, some sent))
      (rest : Smooth cmp now sent.next0 0 fm' xs) : Smooth cmp now next k fm ((pi0, a) :: xs)
  | retried (k : Nat) (fm fm' : FlowtableMain) (pi0 : Nat) (a : Arrival)
      (xs : List (Nat × Arrival)) (b : Buffer)
      (flow : NeedsFlow cmp fm a.buffer (a.stack k))
      (pass : processPacket cmp now fm a.buffer (a.stack k) = some (fm', b, none))
      (rest : Smooth cmp now ftNextEthernetInput (k + 1) fm' ((pi0, ⟨b, a.stack⟩) :: xs)) :
      Smooth cmp now ftNextEthernetInput k fm ((pi0, a) :: xs)

section Passes

variable {cmp : AddressCompare} {now : Nat} {fm : FlowtableMain} {b : Buffer} {stack : Bytes}

theorem lookupCreate_hit {lines : BitVec 64 → List Nat} {slots : Nat → List Nat}
    (hi : Inv fm lines slots) {key : BitVec 64} {sig : Bytes} {sigLen : Nat}
    (hin : ¬ NotInTable fm key sig sigLen) (now : Nat) :
    ∃ f, flowtableEntryLookupCreate fm key sig sigLen now = some (fm, some f, false) := by
  rw [NotInTable] at hin
  push Not at hin
  obtain ⟨f, hf, rfl, hm⟩ := hin
  have hmem := (mem_lineFlows hi).mpr ⟨hf, rfl⟩
  obtain ⟨hline, _, hk⟩ := hi.flowLine f hf
  obtain hl | ⟨hnil, _⟩ := lookupLine_spec hi hk sig sigLen
  · obtain ⟨g, hg⟩ : ∃ g, (lineFlows fm (lines (fm.flows.elt f).sigHash)).find?
        (matchesSig fm sig sigLen) = some g := by
      rw [← Option.isSome_iff_exists, List.find?_isSome]
      exact ⟨f, hmem, hm⟩
    rw [hg] at hl
    refine ⟨g, ?_⟩
    simp only [flowtableEntryLookupCreate, hk, hl]
  · rw [hnil] at hline
    exact absurd hline List.not_mem_nil

theorem lookup_none_iff {lines : BitVec 64 → List Nat} {slots : Nat → List Nat}
    (hi : Inv fm lines slots) {key : BitVec 64} {sig : Bytes} {sigLen : Nat}
    {q : FlowtableMain × Option Nat × Bool}
    (hq : flowtableEntryLookupCreate fm key sig sigLen now = some q)
    (hl : Looked fm key sig sigLen now q) :
    q.2.1 = none ↔ fmPoolCount < fm.flowsCpt ∧ NotInTable fm key sig sigLen := by
  constructor
  · intro hnone
    refine ⟨?_, ?_⟩
    · cases hl with
      | hit => exact absurd hnone (Option.some_ne_none _)
      | made => exact absurd hnone (Option.some_ne_none _)
      | full _ hlim => exact hlim
    · by_contra hin
      obtain ⟨f, hf⟩ := lookupCreate_hit hi hin now
      obtain rfl := Option.some.inj (hf.symm.trans hq)
      exact absurd hnone (Option.some_ne_none f)
  · rintro ⟨hlim, hno⟩
    cases hk : fm.flowsHt key with
    | none =>
      obtain rfl := Option.some.inj ((lookupCreate_new hk hlim sig sigLen now).symm.trans hq)
      rfl
    | some head =>
      by_cases hlink : (fm.htLines.elt head).next = none
      · simp only [flowtableEntryLookupCreate, hk, hlink, lookupLine] at hq
        exact absurd hq.symm (Option.some_ne_none q)
      · have href := (refuses_iff hi hlim hno now).mpr ⟨head, hk, hlink⟩
        obtain rfl := Option.some.inj (href.symm.trans hq)
        rfl

theorem pass_iff (hs : Linked fm) {r : FlowtableMain × Buffer × Option Sent}
    (hr : processPacket cmp now fm b stack = some r) :
    r.2.2 = none ↔ NeedsFlow cmp fm b stack := by
  obtain ⟨lines, slots, hi⟩ := hs
  cases hp : parsePacket cmp (ethernetType b) (vlibBufferAdvance b sizeofEthernetHeader) with
  | none =>
    simp only [processPacket, hp] at hr
    obtain rfl := Option.some.inj hr
    apply iff_of_false
    · exact Option.some_ne_none _
    · rintro ⟨sigLen, p, hp', _⟩
      rw [hp] at hp'
      exact absurd hp'.symm (Option.some_ne_none _)
  | some sp =>
    obtain ⟨sigLen, p⟩ := sp
    obtain ⟨r', q, hr', hq, hl, hpass, _⟩ | ⟨_, hn⟩ := processPacket_ip cmp now b stack hp hi
    · obtain rfl := Option.some.inj (hr'.symm.trans hr)
      have hflow : r'.2.2 = none ↔ q.2.1 = none := by
        cases hf : q.2.1 with
        | none => exact iff_of_true (hpass.full hf).1 rfl
        | some f =>
          obtain ⟨s, hs, _⟩ := hpass.found f hf
          rw [hs]
          exact iff_of_false (Option.some_ne_none s) (Option.some_ne_none f)
      rw [hflow, lookup_none_iff hi hq hl]
      constructor
      · exact fun h => ⟨sigLen, p, hp, h⟩
      · rintro ⟨sigLen', p', hp', h⟩
        obtain ⟨rfl, rfl⟩ := Prod.mk.inj (Option.some.inj (hp.symm.trans hp'))
        exact h
    · rw [hn] at hr
      exact absurd hr.symm (Option.some_ne_none r)

theorem pass_linked (hs : Linked fm) {r : FlowtableMain × Buffer × Option Sent}
    (hr : processPacket cmp now fm b stack = some r) :
    Linked r.1 ∧ r.1.timeIndex = fm.timeIndex := by
  obtain ⟨lines, slots, hi⟩ := hs
  cases hp : parsePacket cmp (ethernetType b) (vlibBufferAdvance b sizeofEthernetHeader) with
  | none =>
    simp only [processPacket, hp] at hr
    obtain rfl := Option.some.inj hr
    exact ⟨⟨lines, slots, hi⟩, rfl⟩
  | some sp =>
    obtain ⟨r', q, hr', _, _, _, hx, lines', slots', hi', _⟩ | ⟨_, hn⟩ :=
      processPacket_ip cmp now b stack hp hi
    · obtain rfl := Option.some.inj (hr'.symm.trans hr)
      exact ⟨⟨lines', slots', hi'⟩, hx⟩
    · rw [hn] at hr
      exact absurd hr.symm (Option.some_ne_none r)

end Passes

section Loop

variable {cmp : AddressCompare} {room : Nat → Nat} {now : Nat}

/-- A buffer that has been placed twice, or a failed buffer that stands in the
frame it is validated for already. -/
def Doubled (l : Frames Nat) (xs : List (Nat × Arrival)) : Prop :=
  (∃ y, 2 ≤ ((placed l).map Prod.snd).count y) ∨
    l.nextIndex = ftNextEthernetInput ∧ ∃ pi0 a rest, xs = (pi0, a) :: rest ∧
      pi0 ∈ (placed l).map Prod.snd

theorem Doubled.done {l : Frames Nat} (hd : Doubled l []) :
    ∃ y, 2 ≤ ((enqueued (putNextFrame l).sent).map Prod.snd).count y := by
  obtain h | ⟨_, pi0, a, rest, hxs, _⟩ := hd
  · rwa [enqueued_putNextFrame]
  · exact absurd hxs.symm (List.cons_ne_nil _ _)

theorem doubled_retried {l : Frames Nat} {pi0 : Nat} {a a' : Arrival} {rest : List (Nat × Arrival)}
    (hd : l.nextIndex = ftNextEthernetInput → Doubled l ((pi0, a) :: rest)) :
    Doubled (validateBufferEnqueue room l pi0 ftNextEthernetInput) ((pi0, a') :: rest) := by
  by_cases hnext : l.nextIndex = ftNextEthernetInput
  · rw [← hnext, validate_same]
    obtain h | ⟨_, pi0', a'', rest', hxs, hmem⟩ := hd hnext
    · exact Or.inl h
    · obtain ⟨hx, _⟩ := List.cons.inj hxs
      obtain ⟨rfl, _⟩ := Prod.mk.inj hx
      exact Or.inr ⟨hnext, pi0, a', rest, rfl, hmem⟩
  · refine Or.inr ⟨nextIndex_validate, pi0, a', rest, rfl, ?_⟩
    exact List.mem_map.mpr ⟨_, mem_placed_validate (Ne.symm hnext), rfl⟩

theorem Doubled.served {l : Frames Nat} {pi0 : Nat} {a : Arrival} {rest : List (Nat × Arrival)}
    (hd : Doubled l ((pi0, a) :: rest)) (next0 : Nat) :
    Doubled (validateBufferEnqueue room (write l pi0) pi0 next0) rest := by
  left
  rw [placed_validate_write, List.map_append]
  obtain ⟨y, hy⟩ | ⟨_, pi0', a', rest', hxs, hmem⟩ := hd
  · refine ⟨y, ?_⟩
    rw [List.count_append]
    omega
  · obtain ⟨hx, _⟩ := List.cons.inj hxs
    obtain ⟨rfl, _⟩ := Prod.mk.inj hx
    refine ⟨pi0, ?_⟩
    have hone := List.count_pos_iff.mpr hmem
    rw [List.count_append, List.map_singleton, List.count_singleton_self]
    omega

theorem Doubled.withRoom {l : Frames Nat} {xs : List (Nat × Arrival)} (hd : Doubled l xs) :
    Doubled (NextFrames.withRoom room l) xs := by
  rwa [Doubled, placed_withRoom, nextIndex_withRoom]

/-- The loop never makes up for a buffer that has been enqueued too early. -/
theorem doubled_stays (n : Nat) {k : Nat} {fm : FlowtableMain} {l : Frames Nat}
    {xs : List (Nat × Arrival)} {r : FlowtableMain × Frames Nat} (hd : Doubled l xs)
    (hr : enqueueLoop cmp room now n k fm l xs = some r) :
    ∃ y, 2 ≤ ((enqueued r.2.sent).map Prod.snd).count y := by
  induction n generalizing k fm l xs with
  | zero =>
    cases xs with
    | nil =>
      obtain rfl := Option.some.inj hr
      exact hd.done
    | cons x rest => cases hr
  | succ n ih =>
    cases xs with
    | nil =>
      obtain rfl := Option.some.inj hr
      exact hd.done
    | cons x rest =>
      obtain ⟨pi0, a⟩ := x
      simp only [enqueueLoop, Option.bind_eq_bind] at hr
      obtain ⟨⟨fm', b, os⟩, hp, hr⟩ := Option.bind_eq_some_iff.mp hr
      have hd' : Doubled (NextFrames.withRoom room l) ((pi0, a) :: rest) := hd.withRoom
      cases os with
      | none => exact ih (doubled_retried fun _ => hd') hr
      | some sent => exact ih (hd'.served sent.next0) hr

/-- A loop that comes to an end was smooth, or has enqueued a buffer twice. -/
theorem smooth_or_doubled (n : Nat) {k : Nat} {fm : FlowtableMain} {l : Frames Nat}
    {xs : List (Nat × Arrival)} {r : FlowtableMain × Frames Nat} (hs : Linked fm)
    (hr : enqueueLoop cmp room now n k fm l xs = some r) :
    Smooth cmp now l.nextIndex k fm xs ∨
      ∃ y, 2 ≤ ((enqueued r.2.sent).map Prod.snd).count y := by
  induction n generalizing k fm l xs with
  | zero =>
    cases xs with
    | nil => exact Or.inl (.done _ _ _)
    | cons x rest => cases hr
  | succ n ih =>
    cases xs with
    | nil => exact Or.inl (.done _ _ _)
    | cons x rest =>
      obtain ⟨pi0, a⟩ := x
      simp only [enqueueLoop, Option.bind_eq_bind] at hr
      obtain ⟨⟨fm', b, os⟩, hp, hr⟩ := Option.bind_eq_some_iff.mp hr
      have hflow := pass_iff hs hp
      have hs' := (pass_linked hs hp).1
      cases os with
      | none =>
        have hneeds := hflow.mp rfl
        by_cases hnext : l.nextIndex = ftNextEthernetInput
        · obtain hrest | hdup := ih hs' hr
          · left
            rw [nextIndex_validate] at hrest
            rw [hnext]
            exact .retried k fm fm' pi0 a rest b hneeds hp hrest
          · exact Or.inr hdup
        · right
          refine doubled_stays n (doubled_retried (a := a) fun h => ?_) hr
          rw [nextIndex_withRoom] at h
          exact absurd h hnext
      | some sent =>
        have hgets : ¬ NeedsFlow cmp fm a.buffer (a.stack k) :=
          fun h => absurd (hflow.mpr h) (Option.some_ne_none sent)
        obtain hrest | hdup := ih hs' hr
        · rw [nextIndex_validate] at hrest
          exact Or.inl (.served _ k fm fm' pi0 a rest b sent hgets hp hrest)
        · exact Or.inr hdup

theorem smooth_loop {next k : Nat} {fm : FlowtableMain} {xs : List (Nat × Arrival)}
    (h : Smooth cmp now next k fm xs) (l : Frames Nat) (hl : l.nextIndex = next) :
    ∃ n r, enqueueLoop cmp room now n k fm l xs = some r ∧
      (enqueued r.2.sent).map Prod.snd = (placed l).map Prod.snd ++ xs.map Prod.fst := by
  induction h generalizing l with
  | done next k fm =>
    refine ⟨0, _, rfl, ?_⟩
    rw [enqueued_putNextFrame, List.map_nil, List.append_nil]
  | served next k fm fm' pi0 a xs b sent _ hp _ ih =>
    obtain ⟨n, r, hr, hsent⟩ := ih
      (validateBufferEnqueue room (write (withRoom room l) pi0) pi0 sent.next0) nextIndex_validate
    refine ⟨n + 1, r, ?_, ?_⟩
    · simp only [enqueueLoop, hp, hr, Option.bind_eq_bind, Option.bind_some]
    · rw [hsent, placed_validate_write, placed_withRoom]
      simp
  | retried k fm fm' pi0 a xs b _ hp _ ih =>
    have hnext : (withRoom room l).nextIndex = ftNextEthernetInput := by rw [nextIndex_withRoom, hl]
    have hsame : validateBufferEnqueue room (withRoom room l) pi0 ftNextEthernetInput =
        withRoom room l := by
      rw [← hnext, validate_same]
    obtain ⟨n, r, hr, hsent⟩ := ih (withRoom room l) hnext
    refine ⟨n + 1, r, ?_, ?_⟩
    · simp only [enqueueLoop, hp, hsame, hr, Option.bind_eq_bind, Option.bind_some]
    · rw [hsent, placed_withRoom]
      rfl

theorem loop_linked (n : Nat) {k : Nat} {fm : FlowtableMain} {l : Frames Nat}
    {xs : List (Nat × Arrival)} {r : FlowtableMain × Frames Nat} (hs : Linked fm)
    (hr : enqueueLoop cmp room now n k fm l xs = some r) :
    Linked r.1 ∧ r.1.timeIndex = fm.timeIndex := by
  induction n generalizing k fm l xs with
  | zero =>
    cases xs with
    | nil =>
      obtain rfl := Option.some.inj hr
      exact ⟨hs, rfl⟩
    | cons x rest => cases hr
  | succ n ih =>
    cases xs with
    | nil =>
      obtain rfl := Option.some.inj hr
      exact ⟨hs, rfl⟩
    | cons x rest =>
      obtain ⟨pi0, a⟩ := x
      simp only [enqueueLoop, Option.bind_eq_bind] at hr
      obtain ⟨⟨fm', b, os⟩, hp, hr⟩ := Option.bind_eq_some_iff.mp hr
      obtain ⟨hs', hx⟩ := pass_linked hs hp
      cases os with
      | none =>
        obtain ⟨hs'', hx'⟩ := ih hs' hr
        exact ⟨hs'', hx'.trans hx⟩
      | some sent =>
        obtain ⟨hs'', hx'⟩ := ih hs' hr
        exact ⟨hs'', hx'.trans hx⟩

end Loop

section Frame

variable {fm : FlowtableMain}

theorem flowtableFrames_iff (cmp : AddressCompare) (room : Nat → Nat) (now cachedNextIndex : Nat)
    (hs : Linked fm) (passes : Nat) (x : Nat × Arrival) (xs : List (Nat × Arrival)) :
    ∃ fm₁, timerWheelIndexUpdate fm now = some fm₁ ∧ Linked fm₁ ∧ ∀ sent,
      (∃ r, flowtableFrames cmp room passes now cachedNextIndex fm (x :: xs) = some r ∧
          r.2.1 = sent) ↔
        ∃ r, enqueueLoop cmp room now passes 0 fm₁ (getNextFrame room noFrames cachedNextIndex)
          (x :: xs) = some r ∧ r.2.sent = sent := by
  obtain ⟨lines, slots, hi⟩ := hs
  obtain ⟨tm, n, slots', hw, hi', hn⟩ := timerWheelIndexUpdate_spec hi now
  refine ⟨_, hw, ⟨lines, slots', hi'⟩, fun sent => ⟨?_, ?_⟩⟩
  · rintro ⟨r, hr, rfl⟩
    simp only [flowtableFrames, hw, Option.bind_eq_bind, Option.bind_some, List.cons_ne_nil,
      if_false] at hr
    obtain ⟨r₁, hl, hr⟩ := Option.bind_eq_some_iff.mp hr
    obtain ⟨r₂, _, hr⟩ := Option.bind_eq_some_iff.mp hr
    obtain rfl := Option.some.inj hr
    exact ⟨r₁, hl, rfl⟩
  · rintro ⟨r₁, hl, rfl⟩
    obtain ⟨⟨lines₁, slots₁, hi₁⟩, hx⟩ := loop_linked passes ⟨lines, slots', hi'⟩ hl
    obtain ⟨r₂, lines₂, slots₂, he, _⟩ := flowtableTimerExpire_spec hi₁ (hx.trans_lt hn)
    refine ⟨(r₂.1, r₁.2.sent, r₂.2), ?_, rfl⟩
    simp only [flowtableFrames, hw, hl, he, Option.bind_eq_bind, Option.bind_some,
      List.cons_ne_nil, if_false]

theorem flowtableFrames_nil (cmp : AddressCompare) (room : Nat → Nat) (now cachedNextIndex : Nat)
    (hs : Linked fm) (passes : Nat) :
    ∃ r, flowtableFrames cmp room passes now cachedNextIndex fm [] = some r ∧ r.2.1 = [] := by
  obtain ⟨lines, slots, hi⟩ := hs
  obtain ⟨tm, n, slots', hw, hi', hn⟩ := timerWheelIndexUpdate_spec hi now
  obtain ⟨r₂, lines₂, slots₂, he, _⟩ := flowtableTimerExpire_spec hi' hn
  refine ⟨(r₂.1, [], r₂.2), ?_, rfl⟩
  simp only [flowtableFrames, hw, he, Option.bind_eq_bind, Option.bind_some, if_true, noFrames]

/-- A call comes to an end and enqueues each buffer of its frame just once, when
and only when it is smooth. -/
theorem process_enqueues_iff (cmp : AddressCompare) (room : Nat → Nat) (now cachedNextIndex : Nat)
    (fm : FlowtableMain) (hs : Linked fm) (frame : List (Nat × Arrival))
    (hn : (frame.map Prod.fst).Nodup) :
    EnqueuesOnce cmp room now cachedNextIndex fm frame ↔
      ∀ fm₁, timerWheelIndexUpdate fm now = some fm₁ → Smooth cmp now cachedNextIndex 0 fm₁ frame := by
  cases frame with
  | nil =>
    apply iff_of_true
    · obtain ⟨r, hr, hsent⟩ := flowtableFrames_nil cmp room now cachedNextIndex hs 0
      refine ⟨0, r, hr, ?_⟩
      rw [hsent]
      exact List.Perm.nil
    · exact fun fm₁ _ => .done _ _ _
  | cons x xs =>
    constructor
    · rintro ⟨passes, r, hr, hperm⟩ fm₁ hw
      obtain ⟨fm₂, hw₂, hs₂, hiff⟩ := flowtableFrames_iff cmp room now cachedNextIndex hs passes x xs
      obtain rfl := Option.some.inj (hw₂.symm.trans hw)
      obtain ⟨r₁, hl, hsent⟩ := (hiff r.2.1).mp ⟨r, hr, rfl⟩
      obtain hsmooth | ⟨y, hy⟩ := smooth_or_doubled passes hs₂ hl
      · exact hsmooth
      · rw [hsent, hperm.count_eq] at hy
        have hle := List.nodup_iff_count_le_one.mp hn y
        omega
    · intro h
      obtain ⟨lines, slots, hi⟩ := hs
      obtain ⟨tm, n, slots', hw, _⟩ := timerWheelIndexUpdate_spec hi now
      obtain ⟨passes, r₁, hl, hsent⟩ := smooth_loop (h _ hw)
        (getNextFrame room noFrames cachedNextIndex) rfl
      obtain ⟨fm₂, hw₂, _, hiff⟩ :=
        flowtableFrames_iff cmp room now cachedNextIndex ⟨lines, slots, hi⟩ passes x xs
      obtain rfl := Option.some.inj (hw₂.symm.trans hw)
      obtain ⟨r, hr, hsent'⟩ := (hiff r₁.2.sent).mpr ⟨r₁, hl, rfl⟩
      refine ⟨passes, r, hr, ?_⟩
      rw [hsent', hsent]
      exact List.Perm.refl _

end Frame

theorem smooth_of_room {cmp : AddressCompare} {now next : Nat} {frame : List (Nat × Arrival)}
    {fm : FlowtableMain} (hs : Linked fm) (hw : Walkable fm)
    (h : Meets (packetStep cmp now) (fun fm a => ¬ NeedsFlow cmp fm a.buffer (a.stack 0)) fm
      (frame.map Prod.snd)) : Smooth cmp now next 0 fm frame := by
  induction frame generalizing fm next with
  | nil => exact .done _ _ _
  | cons x xs ih =>
    obtain ⟨pi0, a⟩ := x
    obtain ⟨hno, hrest⟩ := h
    obtain ⟨lines, slots, hi⟩ := hs
    obtain ⟨r, hr⟩ : ∃ r, processPacket cmp now fm a.buffer (a.stack 0) = some r := by
      cases hp : parsePacket cmp (ethernetType a.buffer)
          (vlibBufferAdvance a.buffer sizeofEthernetHeader) with
      | none =>
        obtain ⟨s, hs, _⟩ := processPacket_other cmp now fm a.buffer (a.stack 0) hp
        exact ⟨_, hs⟩
      | some sp =>
        obtain ⟨r, _, hr, _⟩ | ⟨hn, _⟩ := processPacket_ip cmp now a.buffer (a.stack 0) hp hi
        · exact ⟨r, hr⟩
        · exact absurd ((tidy_iff hi).mpr hw) hn
    have hknown : ∀ sigLen p, parsePacket cmp (ethernetType a.buffer)
        (vlibBufferAdvance a.buffer sizeofEthernetHeader) = some (sigLen, p) →
        fmPoolCount < fm.flowsCpt → fm.flowsHt p.hash ≠ none := by
      intro sigLen p hp hlim hk
      exact hno ⟨sigLen, p, hp, hlim, notInTable_of_none hi hk (a.stack 0) sigLen⟩
    have hw' := hw.packet hi cmp hknown hr
    have hs' := (pass_linked ⟨lines, slots, hi⟩ hr).1
    have hflow := pass_iff ⟨lines, slots, hi⟩ hr
    have hstep : packetStep cmp now fm a = some r.1 := by rw [packetStep, hr, Option.map_some]
    obtain ⟨fm', b, os⟩ := r
    cases os with
    | none => exact absurd (hflow.mp rfl) hno
    | some sent => exact .served _ 0 fm fm' pi0 a xs b sent hno hr (ih hs' hw' (hrest fm' hstep))

/-- A frame of one UDP packet, on a table just set up. -/
theorem process_enqueues_iff_sample :
    EnqueuesOnce sampleCompare (fun _ => 255) 7 0 (flowtableInit 0) [(5, ⟨udpBuffer 1 2, fun _ => []⟩)] := by
  refine (process_enqueues_iff sampleCompare _ 7 0 _ ⟨_, _, flowtableInit_inv 0⟩ _ (by decide)).mpr ?_
  intro fm₁ hw
  obtain ⟨tm, n, slots, hw', hi, _⟩ := timerWheelIndexUpdate_spec (flowtableInit_inv 0) 7
  obtain rfl := Option.some.inj (hw'.symm.trans hw)
  refine smooth_of_room ⟨_, slots, hi⟩ ?_ ⟨?_, fun _ _ => trivial⟩
  · exact (tidy_iff hi).mp fun k h hk => tidy_flowtableInit 0 k h hk
  · rintro ⟨sigLen, p, _, hlim, _⟩
    have hcpt : (flowtableInit 0).flowsCpt = 0 := by rw [flowtableInit_eq]
    have hlim' : fmPoolCount < (flowtableInit 0).flowsCpt := hlim
    omega

theorem late_passes {fm : FlowtableMain} (hf : Filled fm (fmPoolCount + 1)) :
    NeedsFlow sampleCompare fm (hostBuffer (fmPoolCount + 1)) [] ∧
    ∃ fm' b sent, processPacket sampleCompare 7 fm (hostBuffer (fmPoolCount + 1)) [] =
        some (fm', b, none) ∧
      processPacket sampleCompare 7 fm' b [] = some (fm', b, some sent) ∧
      sent.next0 = ftNextEthernetInput := by
  obtain ⟨lines, slots, hi, _⟩ := hf.tables
  have hk := hf.new_key le_rfl
  have hlim : fmPoolCount < fm.flowsCpt := by
    rw [hf.cpt]
    exact Nat.lt_succ_self _
  obtain ⟨p, hp, hhash⟩ := hostBuffer_parse (fmPoolCount + 1)
  rw [← hhash] at hk
  refine ⟨⟨_, p, hp, hlim, notInTable_of_none hi hk [] _⟩, createLine fm p.hash,
    vlibBufferAdvance (hostBuffer (fmPoolCount + 1)) sizeofEthernetHeader,
    ⟨vlibBufferReset (vlibBufferAdvance (hostBuffer (fmPoolCount + 1)) sizeofEthernetHeader),
      ftNextEthernetInput, none⟩, ?_, ?_, rfl⟩
  · simp only [processPacket, hp, lookupCreate_new hk hlim, Option.bind_eq_bind, Option.bind_some]
  · -- where the type is read now, the first bytes of the address stand
    have htype : ethernetType (vlibBufferAdvance (hostBuffer (fmPoolCount + 1)) sizeofEthernetHeader) =
        0x0100 := by
      show (BitVec.ofNat 32 (fmPoolCount + 1)).extractLsb' 0 8 ++
        (BitVec.ofNat 32 (fmPoolCount + 1)).extractLsb' 8 8 = (0x0100 : BitVec 16)
      decide
    have hnone : ∀ b, parsePacket sampleCompare 0x0100 b = none := by
      intro b
      rw [parsePacket, if_neg (by decide), if_neg (by decide)]
    simp only [processPacket, htype, hnone]

/-- A packet that comes too late is enqueued twice, to a next node that takes
over after the frame of another one has been cut. -/
theorem late_packet_enqueued_twice :
    ∃ fm, run (step sampleCompare) (flowtableInit 0) (fillEvents (fmPoolCount + 1)) = some fm ∧
      (∃ r, flowtableFrames sampleCompare (fun _ => 254) 2 7 0 fm
          [(5, ⟨hostBuffer (fmPoolCount + 1), fun _ => []⟩)] = some r ∧
        r.2.1 = [(0, []), (ftNextEthernetInput, [5, 5])]) ∧
      ¬ EnqueuesOnce sampleCompare (fun _ => 254) 7 0 fm
        [(5, ⟨hostBuffer (fmPoolCount + 1), fun _ => []⟩)] := by
  obtain ⟨fm, hr, hf⟩ := fill_run (fmPoolCount + 1) le_rfl
  obtain ⟨lines, slots, hi, _⟩ := hf.tables
  obtain ⟨hneeds, fm', b, sent, hp₁, hp₂, hnext⟩ := late_passes hf
  have hw : timerWheelIndexUpdate fm 7 = some fm := by
    rw [timerWheelIndexUpdate, hf.index, if_neg (by decide),
      if_pos (show 7 % timerMaxLifetime = 7 by decide)]
  refine ⟨fm, hr, ?_, ?_⟩
  · obtain ⟨fm₁, hw₁, _, hiff⟩ := flowtableFrames_iff sampleCompare (fun _ => 254) 7 0
      ⟨lines, slots, hi⟩ 2 (5, ⟨hostBuffer (fmPoolCount + 1), fun _ => []⟩) []
    obtain rfl := Option.some.inj (hw₁.symm.trans hw)
    refine (hiff _).mpr ?_
    simp only [enqueueLoop, hp₁, hp₂, hnext, Option.bind_eq_bind, Option.bind_some]
    exact ⟨_, rfl, rfl⟩
  · rintro ⟨passes, r, hrun, hperm⟩
    obtain ⟨fm₁, hw₁, hs₁, hiff⟩ := flowtableFrames_iff sampleCompare (fun _ => 254) 7 0
      ⟨lines, slots, hi⟩ passes (5, ⟨hostBuffer (fmPoolCount + 1), fun _ => []⟩) []
    obtain rfl := Option.some.inj (hw₁.symm.trans hw)
    obtain ⟨r₁, hl, hsent⟩ := (hiff r.2.1).mp ⟨r, hrun, rfl⟩
    obtain hsmooth | ⟨y, hy⟩ := smooth_or_doubled passes hs₁ hl
    · cases hsmooth with
      | served _ _ _ _ _ _ _ _ _ hflow _ _ => exact hflow hneeds
    · rw [hsent, hperm.count_eq] at hy
      have hle := List.nodup_iff_count_le_one.mp (List.nodup_singleton 5) y
      have hy' : 2 ≤ [5].count y := hy
      omega

end Vppsb.FlowEnqueue
