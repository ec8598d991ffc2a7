import Vppsb.NextFrames
import Vppsb.TapLookups
import Vppsb.VlibBuffer

namespace Vppsb.TapNeighbor

open Vppsb.NextFrames Vppsb.TapLookups Vppsb.VlibBuffer

def nextNeighborArp : Nat := 0
def nextNeighborIcmp6 : Nat := 1

def ethernetTypeArp : Nat := 0x0806
def ethernetTypeIp6 : Nat := 0x86dd
def ethernetArpOpcodeReply : Nat := 2
def ipProtocolIcmp6 : UInt8 := 58
def icmp6NeighborAdvertisement : UInt8 := 136
def sizeofEthernetHeader : Nat := 14

structure Written where
  fd : Nat
  bytes : List UInt8
  warning : Option String

def tapInjectTapSendBuffer (nBytes : Int) (fd : Nat) (b : Buffer) : Written where
  fd := fd
  bytes := currentBytes b
  warning :=
    if nBytes < 0 then some "writev failed"
    else if nBytes < b.currentLength ∨ b.nextPresent = true then some "buffer truncated"
    else none

structure Packet where
  bi : Nat
  buffer : Buffer
  nBytes : Int

/-- The variables that the loop keeps, with what it has done so far. `next` is
none for `~0`. A buffer goes to the next frame with its index and its state. -/
structure Loop where
  next : Option Nat
  frames : Frames (Nat × Buffer)
  tap : List Written
  freed : List Nat

def rewound (b : Buffer) : Buffer := vlibBufferAdvance b (-b.currentData)

def etherType (b : Buffer) : Nat := netWordAt b 12
def arpOpcode (b : Buffer) : Nat := netWordAt b (sizeofEthernetHeader + 6)
def ip6Protocol (b : Buffer) : UInt8 := byteAt b (sizeofEthernetHeader + 6)
def icmpType (b : Buffer) : UInt8 := byteAt b (sizeofEthernetHeader + 40)

def neighborNext (b : Buffer) (next : Option Nat) : Option Nat :=
  if etherType b = ethernetTypeArp then
    if arpOpcode b = ethernetArpOpcodeReply then some nextNeighborArp else next
  else if etherType b = ethernetTypeIp6 then
    if ip6Protocol b = ipProtocolIcmp6 ∧ icmpType b = icmp6NeighborAdvertisement then
      some nextNeighborIcmp6
    else next
  else next

def neighborStep (room : Nat → Nat) (im : TapInjectMain) (s : Loop) (p : Packet) : Loop :=
  let fd := tapInjectLookupTapFd im p.buffer.swIfIndexRx
  if fd = noIndex then { s with freed := s.freed ++ [p.bi] }
  else
    let b := rewound p.buffer
    let s := { s with tap := s.tap ++ [tapInjectTapSendBuffer p.nBytes fd b]
                      next := neighborNext b s.next }
    match s.next with
    | none => { s with freed := s.freed ++ [p.bi] }
    | some next =>
      let b := vlibBufferAdvance b sizeofEthernetHeader
      let l := write (getNextFrame room s.frames s.frames.nextIndex) (p.bi, b)
      { s with frames := putNextFrame (validateBufferEnqueue room l (p.bi, b) next) }

def tapInjectNeighbor (room : Nat → Nat) (im : TapInjectMain) (cachedNextIndex : Nat)
    (frame : List Packet) : Loop :=
  frame.foldl (neighborStep room im) ⟨none, { noFrames with nextIndex := cachedNextIndex }, [], []⟩

def HasTap (im : TapInjectMain) (p : Packet) : Prop :=
  tapInjectLookupTapFd im p.buffer.swIfIndexRx ≠ noIndex

instance (im : TapInjectMain) (p : Packet) : Decidable (HasTap im p) :=
  inferInstanceAs (Decidable (_ ≠ _))

def IsArpReply (b : Buffer) : Prop :=
  etherType b = ethernetTypeArp ∧ arpOpcode b = ethernetArpOpcodeReply

def IsNeighborAdvertisement (b : Buffer) : Prop :=
  etherType b = ethernetTypeIp6 ∧ ip6Protocol b = ipProtocolIcmp6 ∧
    icmpType b = icmp6NeighborAdvertisement

instance (b : Buffer) : Decidable (IsArpReply b) := inferInstanceAs (Decidable (_ ∧ _))

instance (b : Buffer) : Decidable (IsNeighborAdvertisement b) := inferInstanceAs (Decidable (_ ∧ _))

/-- The next node of a packet by its own content, none if it is to be freed. -/
def ownNext (b : Buffer) : Option Nat :=
  if IsArpReply b then some nextNeighborArp
  else if IsNeighborAdvertisement b then some nextNeighborIcmp6
  else none

/-- The write of a packet, its entry in the frame for a next node, and its
buffer if it is freed, each by its own content. -/
def ownWrite (im : TapInjectMain) (p : Packet) : Option Written :=
  if HasTap im p then
    some (tapInjectTapSendBuffer p.nBytes (tapInjectLookupTapFd im p.buffer.swIfIndexRx)
      (rewound p.buffer))
  else none

def ownEntry (im : TapInjectMain) (p : Packet) : Option (Nat × Nat × Buffer) :=
  if HasTap im p then
    (ownNext (rewound p.buffer)).map (fun next =>
      (next, p.bi, vlibBufferAdvance (rewound p.buffer) sizeofEthernetHeader))
  else none

def GoesOn (im : TapInjectMain) (p : Packet) : Prop :=
  HasTap im p ∧ ownNext (rewound p.buffer) ≠ none

instance (im : TapInjectMain) (p : Packet) : Decidable (GoesOn im p) :=
  inferInstanceAs (Decidable (_ ∧ _))

def ownFree (im : TapInjectMain) (p : Packet) : Option Nat :=
  if GoesOn im p then none else some p.bi

/-- The loop has treated each packet by its own content alone. -/
structure TreatedAlone (im : TapInjectMain) (frame : List Packet) (r : Loop) : Prop where
  tap : r.tap = frame.filterMap (ownWrite im)
  entries : enqueued r.frames.sent = frame.filterMap (ownEntry im)
  freed : r.freed = frame.filterMap (ownFree im)

/-- Each buffer of the frame is freed or in a frame for a next node, and that once. -/
def EachOnce (frame : List Packet) (r : Loop) : Prop :=
  (r.freed ++ (enqueued r.frames.sent).map (fun e => e.2.1)).Perm (frame.map Packet.bi)

/-- After a packet that goes on, a packet with a tap goes on itself. -/
def NotAfter (im : TapInjectMain) (q p : Packet) : Prop := GoesOn im q → HasTap im p → GoesOn im p

/-- The same for the packets that are left, where `next` has been set already or
has not. -/
def Fits (im : TapInjectMain) (next : Option Nat) (frame : List Packet) : Prop :=
  (next ≠ none → ∀ p ∈ frame, HasTap im p → GoesOn im p) ∧ frame.Pairwise (NotAfter im)

section Step

variable (room : Nat → Nat) {im : TapInjectMain} {s : Loop} {p : Packet}

theorem neighborNext_eq (b : Buffer) (next : Option Nat) :
    neighborNext b next = (ownNext b).or next := by
  have hne : ethernetTypeIp6 ≠ ethernetTypeArp := by decide
  rw [neighborNext, ownNext]
  by_cases harp : etherType b = ethernetTypeArp
  · have hadv : ¬ IsNeighborAdvertisement b := fun h => hne (h.1.symm.trans harp)
    rw [if_pos harp, if_neg hadv]
    by_cases hop : arpOpcode b = ethernetArpOpcodeReply
    · have hreply : IsArpReply b := ⟨harp, hop⟩
      rw [if_pos hop, if_pos hreply, Option.some_or]
    · have hreply : ¬ IsArpReply b := fun h => hop h.2
      rw [if_neg hop, if_neg hreply, Option.none_or]
  · have hreply : ¬ IsArpReply b := fun h => harp h.1
    rw [if_neg harp, if_neg hreply]
    by_cases hip : etherType b = ethernetTypeIp6
    · rw [if_pos hip]
      by_cases htype : ip6Protocol b = ipProtocolIcmp6 ∧ icmpType b = icmp6NeighborAdvertisement
      · have hadv : IsNeighborAdvertisement b := ⟨hip, htype⟩
        rw [if_pos htype, if_pos hadv, Option.some_or]
      · have hadv : ¬ IsNeighborAdvertisement b := fun h => htype h.2
        rw [if_neg htype, if_neg hadv, Option.none_or]
    · have hadv : ¬ IsNeighborAdvertisement b := fun h => hip h.1
      rw [if_neg hip, if_neg hadv, Option.none_or]

theorem step_noTap (h : ¬ HasTap im p) :
    neighborStep room im s p = { s with freed := s.freed ++ [p.bi] } := by
  rw [HasTap, not_not] at h
  rw [neighborStep, if_pos h]

theorem step_freed (h : HasTap im p) (hn : (ownNext (rewound p.buffer)).or s.next = none) :
    (neighborStep room im s p).next = none ∧
      (neighborStep room im s p).frames = s.frames ∧
      (neighborStep room im s p).freed = s.freed ++ [p.bi] := by
  rw [neighborStep, if_neg h]
  simp only [neighborNext_eq, hn, and_self]

theorem step_enqueued (h : HasTap im p) {next : Nat}
    (hn : (ownNext (rewound p.buffer)).or s.next = some next) :
    (neighborStep room im s p).next = some next ∧
      enqueued (neighborStep room im s p).frames.sent = enqueued s.frames.sent ++
        [(next, p.bi, vlibBufferAdvance (rewound p.buffer) sizeofEthernetHeader)] ∧
      (neighborStep room im s p).freed = s.freed := by
  rw [neighborStep, if_neg h]
  simp only [neighborNext_eq, hn, enqueued_putNextFrame, placed_validate_write, placed_get, and_self]

theorem step_tap :
    (neighborStep room im s p).tap = s.tap ++ (ownWrite im p).toList := by
  by_cases h : HasTap im p
  · rw [ownWrite, if_pos h, neighborStep, if_neg h]
    simp only [Option.toList_some]
    split <;> rfl
  · rw [ownWrite, if_neg h, step_noTap room h, Option.toList_none, List.append_nil]

theorem step_once (im : TapInjectMain) (s : Loop) (p : Packet) :
    ((neighborStep room im s p).freed ++
        (enqueued (neighborStep room im s p).frames.sent).map (fun e => e.2.1)).Perm
      (s.freed ++ (enqueued s.frames.sent).map (fun e => e.2.1) ++ [p.bi]) := by
  by_cases h : HasTap im p
  · cases hn : (ownNext (rewound p.buffer)).or s.next with
    | none =>
      obtain ⟨_, hframes, hfreed⟩ := step_freed room h hn
      rw [hframes, hfreed, List.append_assoc, List.append_assoc]
      exact List.perm_append_comm.append_left s.freed
    | some next =>
      obtain ⟨_, hent, hfreed⟩ := step_enqueued room h hn
      rw [hent, hfreed, List.map_append, ← List.append_assoc]
      exact List.Perm.refl _
  · rw [step_noTap room h, List.append_assoc, List.append_assoc]
    exact List.perm_append_comm.append_left s.freed

theorem freed_le (im : TapInjectMain) (s : Loop) (p : Packet) : (neighborStep room im s p).freed.length ≤
    s.freed.length + (ownFree im p).toList.length := by
  by_cases h : HasTap im p
  · cases hn : (ownNext (rewound p.buffer)).or s.next with
    | none =>
      obtain ⟨_, _, hfreed⟩ := step_freed room h hn
      have hown : ¬ GoesOn im p := fun hg => hg.2 (Option.or_eq_none_iff.mp hn).1
      rw [hfreed, ownFree, if_neg hown, List.length_append]
      exact Nat.le_refl _
    | some next =>
      obtain ⟨_, _, hfreed⟩ := step_enqueued room h hn
      rw [hfreed]
      exact Nat.le_add_right _ _
  · rw [step_noTap room h, ownFree, if_neg fun hg => h hg.1, List.length_append]
    exact Nat.le_refl _

end Step

section Frame

variable (room : Nat → Nat) (im : TapInjectMain)

theorem filterMap_cons_toList {α γ : Type} (f : α → Option γ) (x : α) (xs : List α) :
    (x :: xs).filterMap f = (f x).toList ++ xs.filterMap f := by
  rw [List.filterMap_eq_flatMap_toList, List.filterMap_eq_flatMap_toList, List.flatMap_cons]

theorem loop_tap (frame : List Packet) (s : Loop) :
    (frame.foldl (neighborStep room im) s).tap = s.tap ++ frame.filterMap (ownWrite im) := by
  induction frame generalizing s with
  | nil => exact (List.append_nil _).symm
  | cons p rest ih =>
    rw [List.foldl_cons, ih, step_tap room, filterMap_cons_toList, List.append_assoc]

theorem loop_once (frame : List Packet) (s : Loop) :
    ((frame.foldl (neighborStep room im) s).freed ++
        (enqueued (frame.foldl (neighborStep room im) s).frames.sent).map (fun e => e.2.1)).Perm
      (s.freed ++ (enqueued s.frames.sent).map (fun e => e.2.1) ++ frame.map Packet.bi) := by
  induction frame generalizing s with
  | nil => rw [List.foldl_nil, List.map_nil, List.append_nil]
  | cons p rest ih =>
    have hstep := (step_once room im s p).append_right (rest.map Packet.bi)
    rw [List.append_assoc _ [p.bi]] at hstep
    exact (ih _).trans hstep

theorem loop_freed_le (frame : List Packet) (s : Loop) :
    (frame.foldl (neighborStep room im) s).freed.length ≤
      s.freed.length + (frame.filterMap (ownFree im)).length := by
  induction frame generalizing s with
  | nil => exact Nat.le_add_right _ _
  | cons p rest ih =>
    have hstep := freed_le room im s p
    have hrest := ih (neighborStep room im s p)
    rw [List.foldl_cons, filterMap_cons_toList, List.length_append]
    omega

theorem fits_noTap {next : Option Nat} {p : Packet} {rest : List Packet} (h : ¬ HasTap im p) :
    Fits im next (p :: rest) ↔ Fits im next rest := by
  have hp : ∀ q, NotAfter im p q := fun _ hg => absurd hg.1 h
  simp [Fits, h, hp]

theorem fits_goesOn {next : Option Nat} {n : Nat} {p : Packet} {rest : List Packet}
    (h : GoesOn im p) : Fits im next (p :: rest) ↔ Fits im (some n) rest := by
  have hp : ∀ q, NotAfter im p q ↔ (HasTap im q → GoesOn im q) := fun q => ⟨fun hn => hn h, fun hq _ => hq⟩
  simp only [Fits, List.forall_mem_cons, List.pairwise_cons, hp]
  constructor
  · rintro ⟨_, hrest, hpair⟩
    exact ⟨fun _ => hrest, hpair⟩
  · rintro ⟨hrest, hpair⟩
    have hall := hrest (Option.some_ne_none n)
    exact ⟨fun _ => ⟨fun _ => h, hall⟩, hall, hpair⟩

theorem fits_stays {next : Option Nat} {p : Packet} {rest : List Packet} (htap : HasTap im p)
    (h : ¬ GoesOn im p) : Fits im next (p :: rest) ↔ next = none ∧ Fits im none rest := by
  have hp : ∀ q, NotAfter im p q := fun _ hg => absurd hg h
  constructor
  · rintro ⟨hall, hpair⟩
    have hnone : next = none := by
      by_contra hne
      exact h (hall hne p List.mem_cons_self htap)
    exact ⟨hnone, fun hne => absurd rfl hne, (List.pairwise_cons.mp hpair).2⟩
  · rintro ⟨rfl, _, hpair⟩
    exact ⟨fun hne => absurd rfl hne, List.pairwise_cons.mpr ⟨fun q _ => hp q, hpair⟩⟩

/-- Entries and freed buffers are those of the packets by themselves, when and
only when no packet has got the `next` of another one. -/
theorem loop_alone_iff (frame : List Packet) (s : Loop) :
    enqueued (frame.foldl (neighborStep room im) s).frames.sent =
          enqueued s.frames.sent ++ frame.filterMap (ownEntry im) ∧
        (frame.foldl (neighborStep room im) s).freed = s.freed ++ frame.filterMap (ownFree im) ↔
      Fits im s.next frame := by
  induction frame generalizing s with
  | nil => simp [Fits]
  | cons p rest ih =>
    have hs := ih (neighborStep room im s p)
    rw [List.foldl_cons, filterMap_cons_toList, filterMap_cons_toList]
    by_cases htap : HasTap im p
    · cases hown : ownNext (rewound p.buffer) with
      | some n =>
        have hgo : GoesOn im p := ⟨htap, by rw [hown]; exact Option.some_ne_none n⟩
        have hor : (ownNext (rewound p.buffer)).or s.next = some n := by rw [hown, Option.some_or]
        obtain ⟨hnext, hent, hfreed⟩ := step_enqueued room htap hor
        rw [hnext, hent, hfreed, List.append_assoc] at hs
        rw [fits_goesOn im hgo, ← hs, ownEntry, if_pos htap, hown, ownFree, if_pos hgo]
        rfl
      | none =>
        have hstay : ¬ GoesOn im p := fun hg => hg.2 hown
        have hentry : ownEntry im p = none := by rw [ownEntry, if_pos htap, hown, Option.map_none]
        rw [fits_stays im htap hstay, hentry, ownFree, if_neg hstay]
        cases hcarry : s.next with
        | none =>
          have hor : (ownNext (rewound p.buffer)).or s.next = none := by
            rw [hown, hcarry, Option.none_or]
          obtain ⟨hnext, hframes, hfreed⟩ := step_freed room htap hor
          rw [hnext, hframes, hfreed, List.append_assoc] at hs
          rw [← hs]
          simp
        | some n =>
          have hor : (ownNext (rewound p.buffer)).or s.next = some n := by
            rw [hown, hcarry, Option.none_or]
          obtain ⟨_, _, hfreed⟩ := step_enqueued room htap hor
          have hle := loop_freed_le room im rest (neighborStep room im s p)
          apply iff_of_false
          · rintro ⟨_, h⟩
            have hlen := congrArg List.length h
            rw [hfreed] at hle
            simp only [List.length_append, Option.toList_some, List.length_singleton] at hlen
            omega
          · rintro ⟨h, _⟩
            exact absurd h (Option.some_ne_none n)
    · have hgo : ¬ GoesOn im p := fun hg => htap hg.1
      rw [step_noTap room htap, List.append_assoc] at hs
      rw [fits_noTap im htap, step_noTap room htap, ← hs, ownEntry, if_neg htap, ownFree, if_neg hgo]
      rfl

/-- Every buffer is freed or enqueued just once; and each packet is treated by
its own content alone, when and only when after an ARP reply or a neighbour
advertisement no other packet with a tap comes in the frame. -/
theorem neighbor_alone_iff (room : Nat → Nat) (im : TapInjectMain) (cachedNextIndex : Nat)
    (frame : List Packet) :
    EachOnce frame (tapInjectNeighbor room im cachedNextIndex frame) ∧
      (TreatedAlone im frame (tapInjectNeighbor room im cachedNextIndex frame) ↔
        frame.Pairwise (NotAfter im)) := by
  refine ⟨loop_once room im frame _, ?_⟩
  have halone := loop_alone_iff room im frame
    ⟨none, { noFrames with nextIndex := cachedNextIndex }, [], []⟩
  have hfits : Fits im none frame ↔ frame.Pairwise (NotAfter im) :=
    and_iff_right fun hne => absurd rfl hne
  rw [← hfits, ← halone]
  constructor
  · intro h
    exact ⟨h.entries, h.freed⟩
  · rintro ⟨hent, hfreed⟩
    exact ⟨loop_tap room im frame _, hent, hfreed⟩

end Frame

def oneTap : TapInjectMain := tapInjectInsertTap start.im 1 5 9

def packet (bi : Nat) (bytes : List UInt8) : Packet :=
  ⟨bi, ⟨fun i => bytes.getD i.toNat 0, 14, 28, false, false, 0, 0, 1, noIndex⟩, 42⟩

def arpReply : Packet := packet 7 (List.replicate 12 0 ++ [8, 6, 0, 1, 8, 0, 6, 4, 0, 2])
def ip4Packet : Packet := packet 8 (List.replicate 12 0 ++ [8, 0, 0x45])

/-- An IPv4 packet after an ARP reply goes to `arp-input` as well. -/
theorem next_stays :
    (tapInjectNeighbor (fun _ => 255) oneTap 0 [ip4Packet]).freed = [8] ∧
      ((enqueued (tapInjectNeighbor (fun _ => 255) oneTap 0 [arpReply, ip4Packet]).frames.sent).map
        (fun e => (e.1, e.2.1))) = [(nextNeighborArp, 7), (nextNeighborArp, 8)] ∧
      ¬ TreatedAlone oneTap [arpReply, ip4Packet]
        (tapInjectNeighbor (fun _ => 255) oneTap 0 [arpReply, ip4Packet]) := by
  refine ⟨by decide, by decide, fun h => ?_⟩
  have hown : [arpReply, ip4Packet].filterMap (ownFree oneTap) = [8] := by decide
  have hfreed : (tapInjectNeighbor (fun _ => 255) oneTap 0 [arpReply, ip4Packet]).freed = [] := by
    decide
  rw [h.freed, hown] at hfreed
  exact absurd hfreed (List.cons_ne_nil _ _)

end Vppsb.TapNeighbor
