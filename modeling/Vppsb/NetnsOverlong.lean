import Vppsb.NetnsUnique

namespace Vppsb.NetnsOverlong

open Vppsb.PoolStore Vppsb.KeyedPool Vppsb.NetnsEntry Vppsb.NetnsTables Vppsb.NetnsReceive
  Vppsb.NetnsKeys Vppsb.NetnsUnique

def SameEntries {α : Type} (p q : Pool α) : Prop :=
  ∀ i, (Live q i ↔ Live p i) ∧ (Live p i → q.elt i = p.elt i)

theorem SameEntries.refl {α : Type} (p : Pool α) : SameEntries p p :=
  fun _ => ⟨Iff.rfl, fun _ => rfl⟩

section Table

variable {φ : Type} [DecidableEq φ] (size : φ → Nat) {n : Nat}

/-- The attribute of a line is longer than its field, or the one nested in it is. -/
def TooLong (rtas : Rtas) (x : Mapping φ) : Prop :=
  ∃ rta, rtas x.type = some rta ∧
    (size x.field < rtaPayload rta ∨ x.type = rtaEncap ∧ size x.field < rtaPayload (nested rta))

def OverlongFor (n : Nat) (map : List (Mapping φ)) (m : Nlmsg) : Prop :=
  ∃ rtas, attributes n m = some rtas ∧ ∃ x ∈ map, TooLong size rtas x

/-- The unique lines before the first one whose attribute is too long. -/
def comparedLines (rtas : Rtas) (map : List (Mapping φ)) : List (Mapping φ) :=
  (map.filter Mapping.unique).takeWhile (fun x => decide (payloadLen (rtas x.type) ≤ size x.field))

variable {size}

/-- The entry has the masked header of the message, and its attributes as far as those are
compared. -/
def Hit (mask : List UInt8) (map : List (Mapping φ)) (m : Nlmsg) (e : Entry n size) : Prop :=
  maskedHeader mask e.hdr = maskedHeader mask (header n m) ∧ ∀ rtas, attributes n m = some rtas →
    ∀ x ∈ comparedLines size rtas map, ∀ i, e.get x.field i = zeroExtended (rtas x.type) i

variable {rtas : Rtas} {map : List (Mapping φ)} {e : Entry n size} {m : Nlmsg}
  {p : Pool (Entry n size)}

omit [DecidableEq φ] in
theorem comparedLines_cons (x : Mapping φ) : comparedLines size rtas (x :: map) =
    if x.unique = true then
      if payloadLen (rtas x.type) ≤ size x.field then x :: comparedLines size rtas map else []
    else comparedLines size rtas map := by
  rw [comparedLines, comparedLines, List.filter_cons]
  split
  · rw [List.takeWhile_cons]
    simp only [decide_eq_true_eq]
  · rfl

omit [DecidableEq φ] in
/-- An attribute that is too long ends the comparison, as a match. -/
theorem rtnlEntryMatch_compared (e : Entry n size) : rtnlEntryMatch e rtas map ≠ 0 ↔
    ∀ x ∈ comparedLines size rtas map, ∀ i, e.get x.field i = zeroExtended (rtas x.type) i := by
  induction map with
  | nil =>
      have h1 : (1 : Int) ≠ 0 := by decide
      exact iff_of_true h1 (fun x h => absurd h List.not_mem_nil)
  | cons x map ih =>
      rw [rtnlEntryMatch, comparedLines_cons]
      by_cases hu : x.unique = true
      · rw [if_neg (by rw [hu]; decide), if_pos hu]
        by_cases hl : payloadLen (rtas x.type) ≤ size x.field
        · rw [if_neg (Nat.not_lt.mpr hl), if_pos hl, List.forall_mem_cons, ← ih]
          by_cases hd : (payloadDiffers (rtas x.type) (e.get x.field) ||
              restDiffers (rtas x.type) (e.get x.field)) = true
          · rw [if_pos hd]
            apply iff_of_false (fun h => h rfl)
            rintro ⟨h, -⟩
            rw [(same_iff _ _).mpr h] at hd
            exact Bool.false_ne_true hd
          · rw [if_neg hd]
            rw [Bool.not_eq_true] at hd
            exact (and_iff_right ((same_iff _ _).mp hd)).symm
        · rw [if_pos (Nat.not_le.mp hl), if_neg hl]
          have h1 : (-1 : Int) ≠ 0 := by decide
          exact iff_of_true h1 (fun x h => absurd h List.not_mem_nil)
      · rw [if_pos (Bool.not_eq_true _ ▸ hu), if_neg hu]
        exact ih

omit [DecidableEq φ] in
theorem accepts_iff_hit {mask : List UInt8} (ha : attributes n m = some rtas) :
    accepts mask map (header n m) rtas e = true ↔ Hit mask map m e := by
  rw [accepts, Bool.and_eq_true, decide_eq_true_eq, rtnlEntryMatch_compared, maskMatch_iff_header,
    Hit]
  apply and_congr_right
  intro _
  constructor
  · intro h rtas' ha'
    obtain rfl := Option.some.inj (ha.symm.trans ha')
    exact h
  · exact fun h => h rtas ha

/-- Every message that is not refused is announced, but a deletion of what is not there. -/
theorem nsRcv_untouched_iff
    {find : Pool (Entry n size) → (Fin n → UInt8) → Rtas → Option Nat} {clear : Bool}
    {delType : Nat} (ha : attributes n m = some rtas) :
    (SameEntries p (nsRcv find map clear delType p m).table ∧
      (nsRcv find map clear delType p m).note = none) ↔
    m.nlmsgType = delType ∧ find p (header n m) rtas = none := by
  rw [nsRcv, ha]
  simp only
  by_cases hd : m.nlmsgType = delType
  · rw [if_pos hd]
    cases hf : find p (header n m) rtas with
    | none => exact iff_of_true ⟨SameEntries.refl p, rfl⟩ ⟨hd, rfl⟩
    | some i =>
        exact iff_of_false (fun h => Option.some_ne_none _ h.2) (fun h => Option.some_ne_none i h.2)
  · rw [if_neg hd]
    refine iff_of_false ?_ (fun h => hd h.1)
    cases find p (header n m) rtas with
    | none => exact fun h => Option.some_ne_none _ h.2
    | some i => exact fun h => Option.some_ne_none _ h.2

theorem nsRcv_masked {mask : List UInt8} {clear : Bool} {delType : Nat}
    (ha : attributes n m = some rtas) :
    (SameEntries p (nsRcv (nsGet mask map) map clear delType p m).table ∧
      (nsRcv (nsGet mask map) map clear delType p m).note = none) ↔
    m.nlmsgType = delType ∧ ∀ i, Live p i → ¬ Hit mask map m (p.elt i) := by
  rw [nsRcv_untouched_iff ha, nsGet, findLive_eq_none_iff]
  simp only [accepts_iff_hit ha]

end Table

/-- A message about a link, a route, an address or a neighbour with an attribute that is too
long. -/
def Overlong (m : Nlmsg) : Prop :=
  (IsLink m ∧ OverlongFor LinkField.size 16 nsIfmap m) ∨
    (IsRoute m ∧ OverlongFor RouteField.size 12 nsRoutemap m) ∨
    (IsAddr m ∧ OverlongFor AddrField.size 8 nsAddrmap m) ∨
    (IsNeigh m ∧ OverlongFor NeighField.size 12 nsNeighmap m)

/-- No entry is added, changed or removed, and nobody is told of one. -/
structure Untouched (ns ns' : Netns) (note : Option Note) : Prop where
  links : SameEntries ns.links ns'.links
  routes : SameEntries ns.routes ns'.routes
  addresses : SameEntries ns.addresses ns'.addresses
  neighbors : SameEntries ns.neighbors ns'.neighbors
  silent : note = none

/-- The message deletes something, and no live entry is what it deletes. -/
def Spared (ns : Netns) (m : Nlmsg) : Prop :=
  (m.nlmsgType = rtmDellink ∧
      ∀ i, Live ns.links i → ifiIndex (header 16 m) ≠ ifiIndex (ns.links.elt i).hdr) ∨
    (m.nlmsgType = rtmDelroute ∧
      ∀ i, Live ns.routes i → ¬ Hit routeMask nsRoutemap m (ns.routes.elt i)) ∨
    (m.nlmsgType = rtmDeladdr ∧
      ∀ i, Live ns.addresses i → ¬ Hit addrMask nsAddrmap m (ns.addresses.elt i)) ∨
    (m.nlmsgType = rtmDelneigh ∧
      ∀ i, Live ns.neighbors i → ¬ Hit neighMask nsNeighmap m (ns.neighbors.elt i))

variable {ns : Netns} {m : Nlmsg} {rtas : Rtas}

theorem noteOf_eq_none_iff {type : NetnsType} {note : Option (Nat × Nat)} :
    noteOf type note = none ↔ note = none :=
  Option.map_eq_none_iff

theorem untouched_link (h : IsLink m) (ha : attributes 16 m = some rtas) :
    Untouched ns (nsRecvRtnl ns m).1 (nsRecvRtnl ns m).2 ↔ Spared ns m := by
  obtain ⟨hr, hd, hn⟩ := kinds_disjoint.2.1 h
  have htable :=
    @nsRcv_untouched_iff _ _ _ _ rtas nsIfmap m ns.links nsGetLink false rtmDellink ha
  rw [nsGetLink, findLive_eq_none_iff] at htable
  simp only [decide_eq_true_eq] at htable
  rw [recv_link ns h]
  constructor
  · intro hu
    exact Or.inl (htable.mp ⟨hu.links, noteOf_eq_none_iff.mp hu.silent⟩)
  · rintro (hs | ⟨ht, -⟩ | ⟨ht, -⟩ | ⟨ht, -⟩)
    · obtain ⟨hl, hs⟩ := htable.mpr hs
      exact ⟨hl, .refl _, .refl _, .refl _, noteOf_eq_none_iff.mpr hs⟩
    · exact absurd (Or.inr ht) hr
    · exact absurd (Or.inr ht) hd
    · exact absurd (Or.inr ht) hn

theorem untouched_route (h : IsRoute m) (ha : attributes 12 m = some rtas) :
    Untouched ns (nsRecvRtnl ns m).1 (nsRecvRtnl ns m).2 ↔ Spared ns m := by
  obtain ⟨hl, hd, hn⟩ := kinds_disjoint.1 h
  have htable := @nsRcv_masked _ _ _ _ rtas nsRoutemap m ns.routes routeMask true rtmDelroute ha
  rw [recv_route ns h]
  constructor
  · intro hu
    exact Or.inr (Or.inl (htable.mp ⟨hu.routes, noteOf_eq_none_iff.mp hu.silent⟩))
  · rintro (⟨ht, -⟩ | hs | ⟨ht, -⟩ | ⟨ht, -⟩)
    · exact absurd (Or.inr ht) hl
    · obtain ⟨hr, hs⟩ := htable.mpr hs
      exact ⟨.refl _, hr, .refl _, .refl _, noteOf_eq_none_iff.mpr hs⟩
    · exact absurd (Or.inr ht) hd
    · exact absurd (Or.inr ht) hn

theorem untouched_addr (h : IsAddr m) (ha : attributes 8 m = some rtas) :
    Untouched ns (nsRecvRtnl ns m).1 (nsRecvRtnl ns m).2 ↔ Spared ns m := by
  obtain ⟨hr, hl, hn⟩ := kinds_disjoint.2.2.1 h
  have htable := @nsRcv_masked _ _ _ _ rtas nsAddrmap m ns.addresses addrMask true rtmDeladdr ha
  rw [recv_addr ns h]
  constructor
  · intro hu
    exact Or.inr (Or.inr (Or.inl (htable.mp ⟨hu.addresses, noteOf_eq_none_iff.mp hu.silent⟩)))
  · rintro (⟨ht, -⟩ | ⟨ht, -⟩ | hs | ⟨ht, -⟩)
    · exact absurd (Or.inr ht) hl
    · exact absurd (Or.inr ht) hr
    · obtain ⟨ha, hs⟩ := htable.mpr hs
      exact ⟨.refl _, .refl _, ha, .refl _, noteOf_eq_none_iff.mpr hs⟩
    · exact absurd (Or.inr ht) hn

theorem untouched_neigh (h : IsNeigh m) (ha : attributes 12 m = some rtas) :
    Untouched ns (nsRecvRtnl ns m).1 (nsRecvRtnl ns m).2 ↔ Spared ns m := by
  obtain ⟨hr, hl, hd⟩ := kinds_disjoint.2.2.2 h
  have htable := @nsRcv_masked _ _ _ _ rtas nsNeighmap m ns.neighbors neighMask true rtmDelneigh ha
  rw [recv_neigh ns h]
  constructor
  · intro hu
    exact Or.inr (Or.inr (Or.inr (htable.mp ⟨hu.neighbors, noteOf_eq_none_iff.mp hu.silent⟩)))
  · rintro (⟨ht, -⟩ | ⟨ht, -⟩ | ⟨ht, -⟩ | hs)
    · exact absurd (Or.inr ht) hl
    · exact absurd (Or.inr ht) hr
    · exact absurd (Or.inr ht) hd
    · obtain ⟨hn, hs⟩ := htable.mpr hs
      exact ⟨.refl _, .refl _, .refl _, hn, noteOf_eq_none_iff.mpr hs⟩

/-- A message with an attribute that is too long is ignored only where it deletes what is not
there. -/
theorem overlong_untouched_iff (ns : Netns) (m : Nlmsg) (h : Overlong m) :
    Untouched ns (nsRecvRtnl ns m).1 (nsRecvRtnl ns m).2 ↔ Spared ns m := by
  rcases h with ⟨h, rtas, ha, -⟩ | ⟨h, rtas, ha, -⟩ | ⟨h, rtas, ha, -⟩ | ⟨h, rtas, ha, -⟩
  · exact untouched_link h ha
  · exact untouched_route h ha
  · exact untouched_addr h ha
  · exact untouched_neigh h ha

def neighbour : Nlmsg :=
  messageOf rtmNewneigh [2, 0, 0, 0, 3, 0, 0, 0, 2, 0, 0, 1, 8, 0, 1, 0, 10, 0, 0, 1] [(1, 12)]

def longNeighbour : Nlmsg :=
  messageOf rtmDelneigh [2, 0, 0, 0, 3, 0, 0, 0, 0, 0, 0, 0, 24, 0, 1, 0, 192, 168, 7, 7, 0, 0, 0,
    0, 0, 0, 0, 0, 0, 0, 0, 0, 0, 0, 0, 0] [(1, 12)]

theorem overlong_longNeighbour : Overlong longNeighbour := by
  refine Or.inr (Or.inr (Or.inr ⟨by decide, _, rfl, ⟨1, .dst, true⟩, List.mem_cons_self, ?_⟩))
  exact ⟨_, rfl, Or.inl (by decide)⟩

theorem overlong_untouched_empty :
    Untouched emptyNetns (nsRecvRtnl emptyNetns longNeighbour).1
      (nsRecvRtnl emptyNetns longNeighbour).2 := by
  apply (overlong_untouched_iff emptyNetns longNeighbour overlong_longNeighbour).mpr
  exact Or.inr (Or.inr (Or.inr ⟨rfl, fun i hi => absurd hi.1 (Nat.not_lt_zero i)⟩))

/-- A neighbour with another address is deleted. -/
theorem overlong_deletes :
    Overlong longNeighbour ∧ ∃ ns, ns = (nsRecvRtnl emptyNetns neighbour).1 ∧
      Live ns.neighbors 0 ∧ List.ofFn ((ns.neighbors.elt 0).get .dst) =
        [10, 0, 0, 1, 0, 0, 0, 0, 0, 0, 0, 0, 0, 0, 0, 0] ∧
      ¬ Live (nsRecvRtnl ns longNeighbour).1.neighbors 0 ∧
      ¬ Untouched ns (nsRecvRtnl ns longNeighbour).1 (nsRecvRtnl ns longNeighbour).2 := by
  have hlive : Live (nsRecvRtnl emptyNetns neighbour).1.neighbors 0 := by decide
  have hdst : List.ofFn (((nsRecvRtnl emptyNetns neighbour).1.neighbors.elt 0).get .dst) =
      [10, 0, 0, 1, 0, 0, 0, 0, 0, 0, 0, 0, 0, 0, 0, 0] := by
    decide
  have hput : ¬ Live (nsRecvRtnl (nsRecvRtnl emptyNetns neighbour).1 longNeighbour).1.neighbors
      0 := by
    decide
  refine ⟨overlong_longNeighbour, _, rfl, hlive, hdst, hput, ?_⟩
  intro h
  exact hput (((h.neighbors 0).1).mpr hlive)

end Vppsb.NetnsOverlong
