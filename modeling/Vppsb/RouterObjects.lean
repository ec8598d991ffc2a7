import Mathlib.Data.Finset.Erase
import Vppsb.FibPaths
import Vppsb.MplsLabels
import Vppsb.NetnsNotified
import Vppsb.NetnsUnique

namespace Vppsb.RouterObjects

open Vppsb.StepRun Vppsb.PoolStore Vppsb.KeyedPool Vppsb.PoolImage Vppsb.NetnsEntry
  Vppsb.NetnsTables Vppsb.NetnsReceive Vppsb.NetnsNotified Vppsb.NetnsUnique Vppsb.FibPaths
  Vppsb.MplsLabels

def iffUp : UInt8 := 0x01
def nudReachable : UInt8 := 0x02
def nudFailed : UInt8 := 0x20

def mplsStackDepth : Nat := 7

/-- The interfaces that have a tap, by the index of the tap, and what the variable
`dst_label` holds before it is written. -/
structure Config where
  taps : UInt32 → Option UInt32
  dstLabel : Nat

structure InterfaceAddr where
  swIfIndex : UInt32
  family : UInt8
  addr : List UInt8
  len : UInt8
deriving DecidableEq

/-- ARP entries and IPv6 neighbours, apart from their ethernet address. -/
structure NeighKey where
  swIfIndex : UInt32
  family : UInt8
  addr : List UInt8
deriving DecidableEq

structure Vpp where
  addrs : Finset InterfaceAddr
  neighs : NeighKey → Option (List UInt8)
  fib : Finset FibPath
  adminUp : UInt32 → Bool

section

variable {n : Nat}

def hdrU32 (hdr : Fin n → UInt8) (k : Nat) : UInt32 := u32 (fun i => byteAt hdr (k + i))

end

def addrOf (c : Config) (a : Addr) : Option InterfaceAddr :=
  match c.taps (hdrU32 a.hdr 4) with
  | none => none
  | some sw =>
    if byteAt a.hdr 0 = afInet then some ⟨sw, afInet, (List.ofFn (a.get .local)).take 4, byteAt a.hdr 1⟩
    else if byteAt a.hdr 0 = afInet6 then some ⟨sw, afInet6, List.ofFn (a.get .addr), byteAt a.hdr 1⟩
    else none

def addDelAddr (c : Config) (v : Vpp) (a : Addr) (isDel : Bool) : Vpp :=
  match addrOf c a with
  | none => v
  | some x => { v with addrs := if isDel then v.addrs.erase x else insert x v.addrs }

/-- The flags are those of the link, whether it is deleted or not. -/
def addDelLink (c : Config) (v : Vpp) (l : Link) (_isDel : Bool) : Vpp :=
  match c.taps (hdrU32 l.hdr 4) with
  | none => v
  | some sw => { v with adminUp := Function.update v.adminUp sw (decide (byteAt l.hdr 8 &&& iffUp ≠ 0)) }

def isReachable (n : Neigh) : Bool := decide (byteAt n.hdr 8 &&& nudReachable ≠ 0)

def isFailed (n : Neigh) : Bool := decide (byteAt n.hdr 8 &&& nudFailed ≠ 0)

def neighOf (c : Config) (n : Neigh) : Option NeighKey :=
  match c.taps (hdrU32 n.hdr 4) with
  | none => none
  | some sw =>
    if byteAt n.hdr 0 = afInet then some ⟨sw, afInet, (List.ofFn (n.get .dst)).take 4⟩
    else if byteAt n.hdr 0 = afInet6 then some ⟨sw, afInet6, List.ofFn (n.get .dst)⟩
    else none

inductive NeighAction where
  | set | unset | leave
deriving DecidableEq

/-- What is done depends on the state that was announced last. -/
def neighAction (n : Neigh) : NeighAction :=
  if isReachable n then .set
  else if byteAt n.hdr 0 = afInet then if isFailed n then .unset else .leave
  else .unset

def addDelNeigh (c : Config) (v : Vpp) (n : Neigh) (_isDel : Bool) : Vpp :=
  match neighOf c n with
  | none => v
  | some k =>
    match neighAction n with
    | .set => { v with neighs := Function.update v.neighs k (some (List.ofFn (n.get .lladdr))) }
    | .unset => { v with neighs := Function.update v.neighs k none }
    | .leave => v

/-- The labels that the loop writes from an entry on, `src` entries before the end of
the array it reads. There is no result where it reads behind that array, or writes behind
the `dst` labels it has room for. -/
def getMplsLabelStack (b : Nat → UInt8) (dst : Nat) : Nat → Nat → Option (List Nat)
  | 0, _ => none
  | src + 1, i =>
    let entry := mplsEntry b i
    if label entry = 0 then some []
    else if dst ≤ i then none
    else if bottom entry then some [label entry]
    else (getMplsLabelStack b dst src (i + 1)).map (List.cons (label entry))

def bytes {k : Nat} (b : Fin k → UInt8) (i : Nat) : UInt8 := byteAt b i

/-- The path that `add_del_route` adds, if any. A label is written to a single word, and one
that is not written is what the word held before. -/
def routePath (c : Config) (r : Route) : Option (Option FibPath) :=
  match c.taps (oif r) with
  | none => some none
  | some sw =>
    if byteAt r.hdr 0 = afInet then
      (getMplsLabelStack (bytes (r.get .encap)) mplsStackDepth mplsStackDepth 0).map fun stack =>
        some (ip4Path r sw stack)
    else if byteAt r.hdr 0 = afInet6 then some (some (ip6Path r sw))
    else if byteAt r.hdr 0 = afMpls then
      (getMplsLabelStack (bytes (r.get .dst)) 1 4 0).map fun stack =>
        some ⟨.mpls, 21, [], stack.headD c.dstLabel, ((List.ofFn (r.get .via)).drop 2).take 4, sw, []⟩
    else some none

def withPath (v : Vpp) : Option FibPath → Vpp
  | none => v
  | some p => { v with fib := insert p v.fib }

def addDelRoute (c : Config) (v : Vpp) (r : Route) (_isDel : Bool) : Option Vpp :=
  (routePath c r).map (withPath v)

inductive NsObject where
  | link (l : Link)
  | route (r : Route)
  | addr (a : Addr)
  | neigh (n : Neigh)

def netnsNotifyCb (c : Config) (v : Vpp) (o : NsObject) (flags : Nat) : Option Vpp :=
  let isDel := decide (flags &&& netnsFDel ≠ 0)
  match o with
  | .addr a => some (addDelAddr c v a isDel)
  | .link l => some (addDelLink c v l isDel)
  | .neigh n => some (addDelNeigh c v n isDel)
  | .route r => addDelRoute c v r isDel

/-- The object of a notification. One that was deleted is still in its slot. -/
def objectAt (ns : Netns) (note : Note) : NsObject :=
  match note.type with
  | .link => .link (ns.links.elt note.slot)
  | .route => .route (ns.routes.elt note.slot)
  | .addr => .addr (ns.addresses.elt note.slot)
  | .neigh => .neigh (ns.neighbors.elt note.slot)

structure Router where
  ns : Netns
  vpp : Vpp

def receive (c : Config) (s : Router) (m : Nlmsg) : Option Router :=
  let r := nsRecvRtnl s.ns m
  match r.2 with
  | none => some { s with ns := r.1 }
  | some note =>
    (netnsNotifyCb c s.vpp (objectAt r.1 note) note.flags).map fun vpp => ⟨r.1, vpp⟩

def start (adminUp : UInt32 → Bool) : Router := ⟨emptyNetns, ⟨∅, fun _ => none, ∅, adminUp⟩⟩

def reachableOf (c : Config) (n : Neigh) : Option NeighKey :=
  if isReachable n then neighOf c n else none

/-- Each entry is that of a live neighbour, and those announced as reachable have
theirs. -/
structure NeighsMirrored (c : Config) (v : Vpp) (neighbors : Pool Neigh) : Prop where
  live : ∀ k, v.neighs k ≠ none → k ∈ image (neighOf c) neighbors
  reachable : ∀ k ∈ image (reachableOf c) neighbors, v.neighs k ≠ none

def encapEntries (r : Route) : List Nat := words (bytes (r.get .encap)) 0 mplsStackDepth

/-- The labels that a route is to push: those of its stack, if it has one. -/
def pushed (r : Route) : List Nat :=
  if ∀ e ∈ encapEntries r, e = 0 then [] else upToBottom (encapEntries r)

/-- The address of the next hop of an MPLS route, behind its family. -/
def viaAddr (r : Route) : List UInt8 :=
  let via := List.ofFn (r.get .via)
  if via.take 2 = [afInet6, 0] then via.drop 2 else (via.drop 2).take 4

def pathOf (c : Config) (r : Route) : Option FibPath :=
  match c.taps (oif r) with
  | none => none
  | some sw =>
    if byteAt r.hdr 0 = afInet then some (ip4Path r sw (pushed r))
    else if byteAt r.hdr 0 = afInet6 then some { ip6Path r sw with labels := pushed r }
    else if byteAt r.hdr 0 = afMpls then
      some ⟨.mpls, 21, [], label (mplsEntry (bytes (r.get .dst)) 0), viaAddr r, sw, []⟩
    else none

/-- What is set in VPP is what the live objects are. -/
structure Mirrored (c : Config) (s : Router) : Prop where
  addresses : WF s.ns.addresses
  neighbors : WF s.ns.neighbors
  routes : WF s.ns.routes
  addrs : Stands (addrOf c) s.ns.addresses s.vpp.addrs
  neighs : NeighsMirrored c s.vpp s.ns.neighbors
  fib : Stands (pathOf c) s.ns.routes s.vpp.fib

/-- No entry loses its last neighbour and stays, none is set for a neighbour that
is gone, and none is unset that another neighbour needs. -/
structure NeighBenign (c : Config) (v : Vpp) (n : Neigh) (neighbors : Pool Neigh) : Prop where
  kept : ∀ k, v.neighs k ≠ none → (neighOf c n = some k ∧ neighAction n = .unset) ∨
    k ∈ image (neighOf c) neighbors
  set : neighAction n = .set → ∀ k, neighOf c n = some k → k ∈ image (neighOf c) neighbors
  unset : neighAction n = .unset → ∀ k, neighOf c n = some k →
    k ∉ image (reachableOf c) neighbors

/-- No path loses its last route; an address that is deleted is not that of
another object, and one that is announced again stays the same. -/
def ObjectBenign (c : Config) (s : Router) (ns : Netns) (flags : Nat) : NsObject → Prop
  | .link _ => True
  | .route _ => image (pathOf c) s.ns.routes ⊆ image (pathOf c) ns.routes
  | .addr a =>
    if flags = netnsFDel then ∀ x, addrOf c a = some x → x ∉ image (addrOf c) ns.addresses
    else image (addrOf c) s.ns.addresses ⊆ image (addrOf c) ns.addresses
  | .neigh n => NeighBenign c s.vpp n ns.neighbors

def Benign (c : Config) (s : Router) (m : Nlmsg) : Prop :=
  let r := nsRecvRtnl s.ns m
  ∀ note, r.2 = some note → ObjectBenign c s r.1 note.flags (objectAt r.1 note)

/-- An IPv4 route has no stack, or one with a bottom and no label zero down to it. An IPv6
route has no stack. The label of an MPLS route is not zero and the only one, and its next hop
is not an IPv6 address. -/
structure Legible (r : Route) : Prop where
  ip4 : byteAt r.hdr 0 = afInet → (∀ e ∈ encapEntries r, e = 0) ∨ Terminated (encapEntries r)
  ip6 : byteAt r.hdr 0 = afInet6 → ∀ e ∈ encapEntries r, e = 0
  mpls : byteAt r.hdr 0 = afMpls → label (mplsEntry (bytes (r.get .dst)) 0) ≠ 0 ∧
    (bottom (mplsEntry (bytes (r.get .dst)) 0) = true ∨
      label (mplsEntry (bytes (r.get .dst)) 1) = 0) ∧
    (List.ofFn (r.get .via)).take 2 ≠ [afInet6, 0]

def ObjectLegible (c : Config) : NsObject → Prop
  | .route r => c.taps (oif r) ≠ none → Legible r
  | _ => True

def StepLegible (c : Config) (s : Router) (m : Nlmsg) : Prop :=
  let r := nsRecvRtnl s.ns m
  ∀ note, r.2 = some note → ObjectLegible c (objectAt r.1 note)

section Labels

variable {b : Nat → UInt8} {dst i : Nat}

theorem getMplsLabelStack_eq (src : Nat) (h : i + src ≤ dst) :
    getMplsLabelStack b dst src i = decode (words b i src) := by
  induction src generalizing i with
  | zero => rfl
  | succ src ih =>
    rw [getMplsLabelStack, words_succ, decode, ih (by omega)]
    simp only [if_neg (show ¬ dst ≤ i by omega)]

theorem decode_zeros {es : List Nat} (hne : es ≠ []) (h : ∀ e ∈ es, e = 0) :
    decode es = some [] := by
  cases es with
  | nil => exact absurd rfl hne
  | cons e es =>
    obtain rfl := h e List.mem_cons_self
    exact decode_zero rfl es

theorem encap_legible {r : Route}
    (h : (∀ e ∈ encapEntries r, e = 0) ∨ Terminated (encapEntries r)) :
    getMplsLabelStack (bytes (r.get .encap)) mplsStackDepth mplsStackDepth 0 = some (pushed r) := by
  have hdec := @getMplsLabelStack_eq (bytes (r.get .encap)) mplsStackDepth 0 mplsStackDepth
    (Nat.le_refl _)
  rw [hdec, pushed]
  split
  · rename_i h0
    exact decode_zeros (List.cons_ne_nil _ _) h0
  · rename_i hne
    have hd := decode_of_terminated (h.resolve_left hne) []
    rwa [List.append_nil] at hd

theorem dst_legible (h0 : label (mplsEntry b 0) ≠ 0)
    (h1 : bottom (mplsEntry b 0) = true ∨ label (mplsEntry b 1) = 0) :
    getMplsLabelStack b 1 4 0 = some [label (mplsEntry b 0)] := by
  rw [getMplsLabelStack]
  simp only [if_neg h0, if_neg (show ¬ 1 ≤ 0 by decide)]
  split
  · rfl
  · rename_i hb
    have hz : getMplsLabelStack b 1 3 (0 + 1) = some [] := if_pos (h1.resolve_left hb)
    rw [hz]
    rfl

end Labels

variable {c : Config} {s t : Router} {v : Vpp} {m : Nlmsg}

/-- Where the labels can be read, the path that is added is that of the route. -/
theorem routePath_of_legible {r : Route} (h : c.taps (oif r) ≠ none → Legible r) :
    routePath c r = some (pathOf c r) := by
  rw [routePath, pathOf]
  cases hsw : c.taps (oif r) with
  | none => rfl
  | some sw =>
    have hr := h (hsw ▸ Option.some_ne_none sw)
    dsimp only
    split
    · rename_i h4
      rw [encap_legible (hr.ip4 h4)]
      rfl
    split
    · rename_i h6
      rw [pushed, if_pos (hr.ip6 h6)]
      rfl
    split
    · rename_i hm
      obtain ⟨h0, h1, hvia⟩ := hr.mpls hm
      rw [dst_legible h0 h1, viaAddr, if_neg hvia]
      rfl
    · rfl

theorem addDelRoute_of_legible {r : Route} (h : c.taps (oif r) ≠ none → Legible r)
    (isDel : Bool) : addDelRoute c v r isDel = some (withPath v (pathOf c r)) := by
  rw [addDelRoute, routePath_of_legible h]
  rfl

theorem mem_withPath {o : Option FibPath} (p : FibPath) :
    p ∈ (withPath v o).fib ↔ p ∈ v.fib ∨ o = some p := by
  cases o with
  | none => simp [withPath]
  | some q => simp [withPath, or_comm, eq_comm]

theorem mem_addDelAddr {a : Addr} (x : InterfaceAddr) :
    (x ∈ (addDelAddr c v a false).addrs ↔ x ∈ v.addrs ∨ addrOf c a = some x) ∧
      (x ∈ (addDelAddr c v a true).addrs ↔ x ∈ v.addrs ∧ addrOf c a ≠ some x) := by
  unfold addDelAddr
  cases addrOf c a with
  | none => simp
  | some y => simp [or_comm, and_comm, eq_comm]

theorem action_of_reachable {n : Neigh} {k : NeighKey} (h : reachableOf c n = some k) :
    neighOf c n = some k ∧ neighAction n = .set := by
  unfold reachableOf at h
  split at h
  · rename_i hr
    exact ⟨h, if_pos hr⟩
  · cases h

theorem neighs_addDelNeigh {n : Neigh} {isDel : Bool} (k : NeighKey) :
    (addDelNeigh c v n isDel).neighs k ≠ none ↔
      (neighOf c n = some k ∧ neighAction n = .set) ∨
        (v.neighs k ≠ none ∧ ¬ (neighOf c n = some k ∧ neighAction n = .unset)) := by
  unfold addDelNeigh
  cases hk : neighOf c n with
  | none => simp
  | some l =>
    cases ha : neighAction n with
    | leave => simp
    | set =>
      by_cases he : k = l
      · simp [he]
      · simp [he, Ne.symm he]
    | unset =>
      by_cases he : k = l
      · simp [he]
      · simp [he, Ne.symm he]

theorem neighs_mirrored {n : Neigh} {isDel : Bool} {p q : Pool Neigh}
    (h : NeighsMirrored c v p)
    (hgained : ∀ k, k ∈ image (reachableOf c) q → k ∈ image (reachableOf c) p ∨
      reachableOf c n = some k) :
    NeighsMirrored c (addDelNeigh c v n isDel) q ↔ NeighBenign c v n q := by
  constructor
  · intro hm
    refine ⟨fun k hk => ?_, fun ha k hk => ?_, fun ha k hk hr => ?_⟩
    · by_cases hu : neighOf c n = some k ∧ neighAction n = .unset
      · exact Or.inl hu
      · exact Or.inr (hm.live k ((neighs_addDelNeigh k).mpr (Or.inr ⟨hk, hu⟩)))
    · exact hm.live k ((neighs_addDelNeigh k).mpr (Or.inl ⟨hk, ha⟩))
    · cases (neighs_addDelNeigh k).mp (hm.reachable k hr) with
      | inl hs => exact NeighAction.noConfusion (ha.symm.trans hs.2)
      | inr hs => exact hs.2 ⟨hk, ha⟩
  · intro hb
    refine ⟨fun k hk => ?_, fun k hk => ?_⟩
    · cases (neighs_addDelNeigh k).mp hk with
      | inl hs => exact hb.set hs.2 k hs.1
      | inr hs => exact (hb.kept k hs.1).resolve_left hs.2
    · apply (neighs_addDelNeigh k).mpr
      cases hgained k hk with
      | inl hp => exact Or.inr ⟨h.reachable k hp, fun hu => hb.unset hu.2 k hu.1 hk⟩
      | inr hn => exact Or.inl (action_of_reachable hn)

theorem withPath_frame (o : Option FibPath) :
    (withPath v o).addrs = v.addrs ∧ (withPath v o).neighs = v.neighs := by
  cases o <;> exact ⟨rfl, rfl⟩

theorem addDelAddr_frame (a : Addr) (isDel : Bool) :
    (addDelAddr c v a isDel).neighs = v.neighs ∧ (addDelAddr c v a isDel).fib = v.fib := by
  unfold addDelAddr
  cases addrOf c a <;> exact ⟨rfl, rfl⟩

theorem addDelNeigh_frame (n : Neigh) (isDel : Bool) :
    (addDelNeigh c v n isDel).addrs = v.addrs ∧ (addDelNeigh c v n isDel).fib = v.fib := by
  unfold addDelNeigh
  cases neighOf c n with
  | none => exact ⟨rfl, rfl⟩
  | some k => cases neighAction n <;> exact ⟨rfl, rfl⟩

theorem addDelLink_frame (l : Link) (isDel : Bool) :
    (addDelLink c v l isDel).addrs = v.addrs ∧ (addDelLink c v l isDel).neighs = v.neighs ∧
      (addDelLink c v l isDel).fib = v.fib := by
  unfold addDelLink
  cases c.taps (hdrU32 l.hdr 4) <;> exact ⟨rfl, rfl, rfl⟩

theorem NeighsMirrored.congr {w : Vpp} {p : Pool Neigh} (h : NeighsMirrored c v p)
    (hw : w.neighs = v.neighs) : NeighsMirrored c w p := by
  constructor
  · rw [hw]
    exact h.live
  · rw [hw]
    exact h.reachable

theorem route_mirrored (h : Mirrored c s) {q : Pool Route} {r : Route} {flags : Nat}
    (hd : Noted (pathOf c) s.ns.routes q r flags) :
    Mirrored c ⟨{ s.ns with routes := q }, withPath s.vpp (pathOf c r)⟩ ↔
      image (pathOf c) s.ns.routes ⊆ image (pathOf c) q := by
  obtain ⟨haddrs, hneighs⟩ := @withPath_frame s.vpp (pathOf c r)
  have hs : Stands (pathOf c) q (withPath s.vpp (pathOf c r)).fib ↔ _ :=
    stands_extended h.fib (fun p => mem_withPath p) hd.gained hd.own
  constructor
  · exact fun hm => hs.mp hm.fib
  · intro hsub
    refine ⟨h.addresses, h.neighbors, hd.wf, ?_, h.neighs.congr hneighs, hs.mpr hsub⟩
    change Stands (addrOf c) s.ns.addresses (withPath s.vpp (pathOf c r)).addrs
    rw [haddrs]
    exact h.addrs

theorem addr_mirrored (h : Mirrored c s) {q : Pool Addr} {a : Addr} {flags : Nat}
    (hd : Noted (addrOf c) s.ns.addresses q a flags) :
    Mirrored c ⟨{ s.ns with addresses := q },
        addDelAddr c s.vpp a (decide (flags &&& netnsFDel ≠ 0))⟩ ↔
      if flags = netnsFDel then ∀ x, addrOf c a = some x → x ∉ image (addrOf c) q
      else image (addrOf c) s.ns.addresses ⊆ image (addrOf c) q := by
  obtain ⟨hneighs, hfib⟩ := @addDelAddr_frame c s.vpp a (decide (flags &&& netnsFDel ≠ 0))
  have hs : Stands (addrOf c) q (addDelAddr c s.vpp a (decide (flags &&& netnsFDel ≠ 0))).addrs ↔
      if flags = netnsFDel then ∀ x, addrOf c a = some x → x ∉ image (addrOf c) q
      else image (addrOf c) s.ns.addresses ⊆ image (addrOf c) q := by
    cases hd.kind with
    | inl hadd =>
      rw [hadd]
      exact stands_extended h.addrs (fun x => (mem_addDelAddr x).1) hd.gained hd.own
    | inr hdel =>
      have hp := hd.deleted hdel
      rw [hdel, if_pos rfl]
      exact stands_reduced h.addrs (fun x => (mem_addDelAddr x).2) hp
  constructor
  · exact fun hm => hs.mp hm.addrs
  · intro hb
    refine ⟨hd.wf, h.neighbors, h.routes, hs.mpr hb, h.neighs.congr hneighs, ?_⟩
    change Stands (pathOf c) s.ns.routes
      (addDelAddr c s.vpp a (decide (flags &&& netnsFDel ≠ 0))).fib
    rw [hfib]
    exact h.fib

theorem neigh_mirrored (h : Mirrored c s) {q : Pool Neigh} {n : Neigh} {flags : Nat}
    (hd : Noted (reachableOf c) s.ns.neighbors q n flags) (isDel : Bool) :
    Mirrored c ⟨{ s.ns with neighbors := q }, addDelNeigh c s.vpp n isDel⟩ ↔
      NeighBenign c s.vpp n q := by
  obtain ⟨haddrs, hfib⟩ := @addDelNeigh_frame c s.vpp n isDel
  have hs : NeighsMirrored c (addDelNeigh c s.vpp n isDel) q ↔ _ :=
    neighs_mirrored h.neighs hd.gained
  constructor
  · exact fun hm => hs.mp hm.neighs
  · intro hb
    refine ⟨h.addresses, hd.wf, h.routes, ?_, hs.mpr hb, ?_⟩
    · change Stands (addrOf c) s.ns.addresses (addDelNeigh c s.vpp n isDel).addrs
      rw [haddrs]
      exact h.addrs
    · change Stands (pathOf c) s.ns.routes (addDelNeigh c s.vpp n isDel).fib
      rw [hfib]
      exact h.fib

theorem link_mirrored (h : Mirrored c s) (links : Pool Link) (l : Link) (isDel : Bool) :
    Mirrored c ⟨{ s.ns with links := links }, addDelLink c s.vpp l isDel⟩ := by
  obtain ⟨haddrs, hneighs, hfib⟩ := @addDelLink_frame c s.vpp l isDel
  refine ⟨h.addresses, h.neighbors, h.routes, ?_, h.neighs.congr hneighs, ?_⟩
  · change Stands (addrOf c) s.ns.addresses (addDelLink c s.vpp l isDel).addrs
    rw [haddrs]
    exact h.addrs
  · change Stands (pathOf c) s.ns.routes (addDelLink c s.vpp l isDel).fib
    rw [hfib]
    exact h.fib

/-- The step has a result, and it is mirrored just if the step is benign. -/
def Follows (c : Config) (s : Router) (m : Nlmsg) : Prop :=
  ∃ t, receive c s m = some t ∧ (Mirrored c t ↔ Benign c s m)

theorem receive_silent (h : Mirrored c s) {ns : Netns}
    (hr : nsRecvRtnl s.ns m = (ns, none)) (haddrs : ns.addresses = s.ns.addresses)
    (hneighs : ns.neighbors = s.ns.neighbors) (hroutes : ns.routes = s.ns.routes) :
    Follows c s m := by
  unfold Follows receive Benign
  rw [hr]
  refine ⟨_, rfl, iff_of_true ⟨?_, ?_, ?_, ?_, ?_, ?_⟩ nofun⟩
  · exact haddrs ▸ h.addresses
  · exact hneighs ▸ h.neighbors
  · exact hroutes ▸ h.routes
  · exact haddrs ▸ h.addrs
  · exact hneighs ▸ h.neighs
  · exact hroutes ▸ h.fib

theorem receive_noted {ns : Netns} {note : Note} {vpp : Vpp}
    (hr : nsRecvRtnl s.ns m = (ns, some note))
    (hv : netnsNotifyCb c s.vpp (objectAt ns note) note.flags = some vpp)
    (hi : Mirrored c ⟨ns, vpp⟩ ↔ ObjectBenign c s ns note.flags (objectAt ns note)) :
    Follows c s m := by
  unfold Follows receive Benign
  rw [hr]
  dsimp only
  rw [hv]
  refine ⟨_, rfl, hi.trans ⟨fun hb note' hn => ?_, fun hb => hb note rfl⟩⟩
  obtain rfl := Option.some.inj hn
  exact hb

/-- Where the labels can be read, a step is benign exactly if what is set in VPP goes on
being what the live objects are. -/
theorem receive_mirrored (h : Mirrored c s) (hl : StepLegible c s m) : Follows c s m := by
  by_cases hr : IsRoute m
  · have hc : Changed routeMask nsRoutemap rtmDelroute s.ns.routes m (nsRcvRoute s.ns.routes m) :=
      nsRcv_changed
    obtain ⟨htable, hno⟩ | ⟨i, flags, hno, hd⟩ := noted_of_changed (g := pathOf c) h.routes hc
    · have he := recv_route s.ns hr
      rw [hno] at he
      exact receive_silent h he rfl rfl htable
    · have he := recv_route s.ns hr
      rw [hno] at he
      have hlr : ObjectLegible c (.route ((nsRcvRoute s.ns.routes m).table.elt i)) := by
        unfold StepLegible at hl
        rw [he] at hl
        exact hl _ rfl
      exact receive_noted he (addDelRoute_of_legible hlr (decide (flags &&& netnsFDel ≠ 0)))
        (route_mirrored h hd)
  by_cases ha : IsAddr m
  · have hc : Changed addrMask nsAddrmap rtmDeladdr s.ns.addresses m (nsRcvAddr s.ns.addresses m) :=
      nsRcv_changed
    obtain ⟨htable, hno⟩ | ⟨i, flags, hno, hd⟩ :=
        noted_of_changed (g := addrOf c) h.addresses hc
    · have he := recv_addr s.ns ha
      rw [hno] at he
      exact receive_silent h he htable rfl rfl
    · have he := recv_addr s.ns ha
      rw [hno] at he
      exact receive_noted he rfl (addr_mirrored h hd)
  by_cases hn : IsNeigh m
  · have hc : Changed neighMask nsNeighmap rtmDelneigh s.ns.neighbors m
        (nsRcvNeigh s.ns.neighbors m) := nsRcv_changed
    obtain ⟨htable, hno⟩ | ⟨i, flags, hno, hd⟩ :=
        noted_of_changed (g := reachableOf c) h.neighbors hc
    · have he := recv_neigh s.ns hn
      rw [hno] at he
      exact receive_silent h he rfl htable rfl
    · have he := recv_neigh s.ns hn
      rw [hno] at he
      exact receive_noted he rfl (neigh_mirrored h hd (decide (flags &&& netnsFDel ≠ 0)))
  by_cases hl : IsLink m
  · cases hno : (nsRcvLink s.ns.links m).note with
    | none =>
      have he := recv_link s.ns hl
      rw [hno] at he
      exact receive_silent h he rfl rfl rfl
    | some note =>
      have he := recv_link s.ns hl
      rw [hno] at he
      have hm := link_mirrored (c := c) h (nsRcvLink s.ns.links m).table
        ((nsRcvLink s.ns.links m).table.elt note.1) (decide (note.2 &&& netnsFDel ≠ 0))
      exact receive_noted he rfl (iff_of_true hm trivial)
  · exact receive_silent h (recv_other s.ns ⟨hr, hl, ha, hn⟩) rfl rfl rfl

theorem start_mirrored (adminUp : UInt32 → Bool) : Mirrored c (start adminUp) := by
  have hno : ∀ {α β : Type} (g : α → Option β) (a : α) (b : β), b ∉ image g (empty a) := by
    intro α β g a b
    rw [image_empty]
    exact id
  refine ⟨wf_empty _, wf_empty _, wf_empty _, fun x => ?_, ⟨fun k hk => absurd rfl hk, fun k hk => ?_⟩,
    fun p => ?_⟩
  · exact iff_of_false (Finset.notMem_empty x) (hno _ _ x)
  · exact absurd hk (hno _ _ k)
  · exact iff_of_false (Finset.notMem_empty p) (hno _ _ p)

/-- Interface 3 of the host is the tap of interface 7. -/
def oneTap : Config := ⟨fun i => if i = 3 then some 7 else none, 0⟩

def noneUp : Router := start fun _ => false

theorem legible_encapRoute :
    Legible ((nsRecvRtnl emptyNetns encapRoute).1.routes.elt 0) := by
  refine ⟨fun _ => Or.inr ?_, fun h => absurd h (by decide +kernel),
    fun h => absurd h (by decide +kernel)⟩
  exact ⟨[], 409856, [0, 0, 0, 0, 0, 0], by decide +kernel, by decide, by decide, by simp⟩

def plainNeigh : Nlmsg :=
  messageOf rtmNewneigh [2, 0, 0, 0, 3, 0, 0, 0, 2, 0, 0, 0, 8, 0, 1, 0, 10, 0, 0, 1,
    10, 0, 2, 0, 2, 0, 0, 0, 0, 1, 0, 0] [(1, 12), (2, 20)]

end Vppsb.RouterObjects
