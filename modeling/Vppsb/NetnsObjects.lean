import Vppsb.NetnsUnique
import Mathlib.Data.Set.Insert

namespace Vppsb.NetnsObjects

open Vppsb.StepRun Vppsb.PoolStore Vppsb.KeyedPool Vppsb.NetnsEntry Vppsb.NetnsTables
  Vppsb.NetnsReceive Vppsb.NetnsKeys Vppsb.NetnsUnique

/-- An address as the kernel tells it from others. -/
structure AddrObject where
  family : UInt8
  prefixlen : UInt8
  ifaIndex : List UInt8
  address : List UInt8
  localAddress : List UInt8
deriving DecidableEq

/-- A route as the kernel tells it from others. The next hop is given by
gateway, via and output interface. -/
structure RouteObject where
  family : UInt8
  dstLen : UInt8
  tos : UInt8
  table : List UInt8
  dst : List UInt8
  priority : List UInt8
  gateway : List UInt8
  via : List UInt8
  oif : List UInt8
deriving DecidableEq

/-- What a route also has, and the kernel lets a later message replace. -/
structure RouteDetails where
  srcLen : UInt8
  rtmTable : UInt8
  protocol : UInt8
  type : UInt8
  src : List UInt8
  iif : List UInt8
deriving DecidableEq

def ifaIndex (ifa : Fin 8 → UInt8) : List UInt8 := [ifa 4, ifa 5, ifa 6, ifa 7]

/-- The number in `RTA_TABLE`, or else the one in the header. -/
def tableId (rtm : Fin 12 → UInt8) (table : Fin 4 → UInt8) : List UInt8 :=
  if ∀ i, table i = 0 then [rtm 4, 0, 0, 0] else List.ofFn table

def value (k : Nat) (rta : Option Rtattr) : List UInt8 :=
  List.ofFn (fun i : Fin k => zeroExtended rta i)

def addrObject (e : Addr) : AddrObject :=
  ⟨e.hdr 0, e.hdr 1, ifaIndex e.hdr, List.ofFn (e.get .addr), List.ofFn (e.get .local)⟩

def addrMessageObject (m : Nlmsg) (rtas : Rtas) : AddrObject :=
  ⟨m.data 0, m.data 1, ifaIndex (header 8 m), value 16 (rtas 1), value 16 (rtas 2)⟩

def routeObject (e : Route) : RouteObject :=
  ⟨e.hdr 0, e.hdr 1, e.hdr 3, tableId e.hdr (e.get .table), List.ofFn (e.get .dst),
    List.ofFn (e.get .priority), List.ofFn (e.get .gateway), List.ofFn (e.get .via),
    List.ofFn (e.get .oif)⟩

def routeMessageObject (m : Nlmsg) (rtas : Rtas) : RouteObject :=
  ⟨m.data 0, m.data 1, m.data 3, tableId (header 12 m) (fun i => zeroExtended (rtas 15) i),
    value 16 (rtas 1), value 4 (rtas 6), value 16 (rtas 5), value 16 (rtas 18), value 4 (rtas 4)⟩

def routeDetails (e : Route) : RouteDetails :=
  ⟨e.hdr 2, e.hdr 4, e.hdr 5, e.hdr 7, List.ofFn (e.get .src), List.ofFn (e.get .iif)⟩

def routeMessageDetails (m : Nlmsg) (rtas : Rtas) : RouteDetails :=
  ⟨m.data 2, m.data 4, m.data 5, m.data 7, value 16 (rtas 2), value 4 (rtas 3)⟩

/-- The route has the source, protocol, type and encapsulation of the message. An
`RTA_ENCAP` that is longer than its field is not compared. -/
structure SameDetails (e : Route) (m : Nlmsg) (rtas : Rtas) : Prop where
  plain : routeDetails e = routeMessageDetails m rtas
  encap : payloadLen (rtas rtaEncap) ≤ 28 → List.ofFn (e.get .encap) = value 28 (rtas rtaEncap)

/-- The object of a route, with the type of service, the table and the priority
of a message. -/
def withSelectors (o : RouteObject) (m : Nlmsg) (rtas : Rtas) : RouteObject :=
  { o with
    tos := m.data 3
    table := tableId (header 12 m) (fun i => zeroExtended (rtas 15) i)
    priority := value 4 (rtas 6) }

section

variable {α κ : Type} {key : α → κ} {k : κ} {del : Bool} {p : Pool α} {out : Outcome α}
  {S : Set κ}

/-- The live entries stand one to one for the objects of a set. -/
structure Tracks (key : α → κ) (p : Pool α) (S : Set κ) : Prop where
  wf : WF p
  unique : Unique key p
  holds : ∀ k, Holds key p k ↔ k ∈ S

def announce (del : Bool) (k : κ) (S : Set κ) : Set κ := if del then S \ {k} else insert k S

theorem tracks_empty (a : α) : Tracks key (empty a) ∅ :=
  ⟨wf_empty a, unique_empty a, fun k => iff_of_false (not_holds_empty a k) id⟩

theorem Tracks.handled (ht : Tracks key p S) (h : Handled key k p del out) :
    Tracks key out.table (announce del k S) := by
  refine ⟨h.wf ht.wf, h.unique ht.wf ht.unique, fun l => ?_⟩
  rw [h.holds_iff ht.wf ht.unique, ht.holds]
  cases del with
  | false => simp [announce, or_comm]
  | true => simp [announce]

theorem Tracks.existsUnique (ht : Tracks key p S) (hk : k ∈ S) :
    ∃! i, Live p i ∧ key (p.elt i) = k := by
  obtain ⟨i, hi, hki⟩ := (ht.holds k).mpr hk
  exact ⟨i, ⟨hi, hki⟩, fun j hj => ht.unique j i hj.1 hi (hj.2.trans hki.symm)⟩

end

def announceAddr (S : Set AddrObject) (m : Nlmsg) : Set AddrObject :=
  if IsAddr m then
    match attributes 8 m with
    | none => S
    | some rtas => announce (decide (m.nlmsgType = rtmDeladdr)) (addrMessageObject m rtas) S
  else S

def announceRoute (S : Set RouteObject) (m : Nlmsg) : Set RouteObject :=
  if IsRoute m then
    match attributes 12 m with
    | none => S
    | some rtas => announce (decide (m.nlmsgType = rtmDelroute)) (routeMessageObject m rtas) S
  else S

/-- No address in the table differs from that of the message in the interface
alone. No route in the table differs from that of the message in the type of
service, the table or the priority alone, and one that is the same has the same
source, protocol, type and encapsulation as well. -/
structure Apart (ns : Netns) (m : Nlmsg) : Prop where
  addr : IsAddr m → ∀ rtas, attributes 8 m = some rtas → Fits AddrField.size nsAddrmap rtas ∧
    ∀ i, Live ns.addresses i →
      { addrObject (ns.addresses.elt i) with ifaIndex := ifaIndex (header 8 m) } =
        addrMessageObject m rtas → addrObject (ns.addresses.elt i) = addrMessageObject m rtas
  route : IsRoute m → ∀ rtas, attributes 12 m = some rtas →
    Fits RouteField.size nsRoutemapPlain rtas ∧ ∀ i, Live ns.routes i →
      (SameDetails (ns.routes.elt i) m rtas →
        withSelectors (routeObject (ns.routes.elt i)) m rtas = routeMessageObject m rtas →
        routeObject (ns.routes.elt i) = routeMessageObject m rtas) ∧
      (routeObject (ns.routes.elt i) = routeMessageObject m rtas →
        SameDetails (ns.routes.elt i) m rtas)

theorem maskedHeader_addr (a b : Fin 8 → UInt8) :
    maskedHeader addrMask a = maskedHeader addrMask b ↔ a 0 = b 0 ∧ a 1 = b 1 := by
  have h : ∀ c : Fin 8 → UInt8, maskedHeader addrMask c = [c 0, c 1, 0, 0, 0, 0, 0, 0] := by
    intro c
    simp [maskedHeader, addrMask, byteAt, List.range_succ, and_ff]
  rw [h, h]
  simp

theorem ofFn_eq_value {k : Nat} (b : Fin k → UInt8) (rta : Option Rtattr) :
    List.ofFn b = value k rta ↔ ∀ i, b i = zeroExtended rta i := by
  rw [value, List.ofFn_injective.eq_iff, funext_iff]

theorem accepts_addr_iff {m : Nlmsg} {rtas : Rtas} {e : Addr}
    (hf : Fits AddrField.size nsAddrmap rtas) :
    accepts addrMask nsAddrmap (header 8 m) rtas e = true ↔
      { addrObject e with ifaIndex := ifaIndex (header 8 m) } = addrMessageObject m rtas := by
  rw [accepts_iff hf, entryKey_eq_iff, maskedHeader_addr]
  simp only [addrObject, addrMessageObject, AddrObject.mk.injEq, true_and, and_assoc]
  simp only [nsAddrmap, List.forall_mem_cons, List.not_mem_nil, Bool.false_eq_true, false_imp_iff,
    forall_const, and_true, implies_true]
  apply and_congr_right'
  apply and_congr_right'
  exact and_congr (ofFn_eq_value _ _).symm (ofFn_eq_value _ _).symm

theorem maskedHeader_route (a b : Fin 12 → UInt8) :
    maskedHeader routeMask a = maskedHeader routeMask b ↔
      a 0 = b 0 ∧ a 1 = b 1 ∧ a 2 = b 2 ∧ a 4 = b 4 ∧ a 5 = b 5 ∧ a 7 = b 7 := by
  have h : ∀ c : Fin 12 → UInt8,
      maskedHeader routeMask c = [c 0, c 1, c 2, 0, c 4, c 5, 0, c 7, 0, 0, 0, 0] := by
    intro c
    simp [maskedHeader, routeMask, byteAt, List.range_succ, and_ff]
  rw [h, h]
  simp

/-- `RTA_ENCAP` comes last in the comparison, and one that is too long counts as
a match. -/
theorem encap_match_iff (e : Route) (rtas : Rtas) :
    rtnlEntryMatch e rtas [encapMapping] ≠ 0 ↔
      (payloadLen (rtas rtaEncap) ≤ 28 → List.ofFn (e.get .encap) = value 28 (rtas rtaEncap)) := by
  by_cases hl : payloadLen (rtas rtaEncap) ≤ 28
  · have hf : Fits RouteField.size [encapMapping] rtas := by
      intro x hx
      obtain rfl := List.mem_singleton.mp hx
      exact hl
    rw [rtnlEntryMatch_iff e hf, List.forall_mem_singleton]
    exact ⟨fun h _ => (ofFn_eq_value _ _).mpr (h rfl), fun h _ => (ofFn_eq_value _ _).mp (h hl)⟩
  · have hm : rtnlEntryMatch e rtas [encapMapping] = -1 := by
      rw [rtnlEntryMatch, if_neg (by decide)]
      exact if_pos (Nat.not_le.mp hl)
    rw [hm]
    exact iff_of_true (by decide) fun h => absurd h hl

/-- What the mask and the unique attributes of a route cover. -/
theorem accepts_route_iff {m : Nlmsg} {rtas : Rtas} {e : Route}
    (hf : Fits RouteField.size nsRoutemapPlain rtas) :
    accepts routeMask nsRoutemap (header 12 m) rtas e = true ↔
      SameDetails e m rtas ∧
        withSelectors (routeObject e) m rtas = routeMessageObject m rtas := by
  rw [accepts, Bool.and_eq_true, decide_eq_true_eq, maskMatch_iff_header, maskedHeader_route,
    nsRoutemap, rtnlEntryMatch_append hf, rtnlEntryMatch_iff e hf, encap_match_iff]
  have hplain : (∀ x ∈ nsRoutemapPlain, x.unique = true →
      ∀ i, e.get x.field i = zeroExtended (rtas x.type) i) ↔
      List.ofFn (e.get .dst) = value 16 (rtas 1) ∧ List.ofFn (e.get .src) = value 16 (rtas 2) ∧
        List.ofFn (e.get .via) = value 16 (rtas 18) ∧
        List.ofFn (e.get .gateway) = value 16 (rtas 5) ∧
        List.ofFn (e.get .iif) = value 4 (rtas 3) ∧ List.ofFn (e.get .oif) = value 4 (rtas 4) := by
    simp only [nsRoutemapPlain, List.forall_mem_cons, List.not_mem_nil, Bool.false_eq_true,
      false_imp_iff, forall_const, and_true, implies_true]
    refine and_congr (ofFn_eq_value _ _).symm (and_congr (ofFn_eq_value _ _).symm ?_)
    refine and_congr (ofFn_eq_value _ _).symm (and_congr (ofFn_eq_value _ _).symm ?_)
    exact and_congr (ofFn_eq_value _ _).symm (ofFn_eq_value _ _).symm
  rw [hplain]
  constructor
  · rintro ⟨⟨h0, h1, h2, h4, h5, h7⟩, ⟨hdst, hsrc, hvia, hgateway, hiif, hoif⟩, hencap⟩
    refine ⟨⟨?_, hencap⟩, ?_⟩
    · rw [routeDetails, routeMessageDetails, hsrc, hiif, h2, h4, h5, h7]
      rfl
    · rw [withSelectors, routeObject, routeMessageObject, hdst, hgateway, hvia, hoif, h0, h1]
      rfl
  · rintro ⟨⟨hdetails, hencap⟩, hobject⟩
    rw [routeDetails, routeMessageDetails, RouteDetails.mk.injEq] at hdetails
    rw [withSelectors, routeObject, routeMessageObject, RouteObject.mk.injEq] at hobject
    obtain ⟨h2, h4, h5, h7, hsrc, hiif⟩ := hdetails
    obtain ⟨h0, h1, _, _, hdst, _, hgateway, hvia, hoif⟩ := hobject
    exact ⟨⟨h0, h1, h2, h4, h5, h7⟩, ⟨hdst, hsrc, hvia, hgateway, hiif, hoif⟩, hencap⟩

theorem value_stored {rta : Option Rtattr} {init : Bool} {k : Nat} {old : Fin k → UInt8}
    (h : init = false → List.ofFn old = value k rta) :
    List.ofFn (stored rta init old) = value k rta := by
  apply congrArg List.ofFn
  funext i
  exact stored_eq (fun hi => congrFun (List.ofFn_injective (h hi))) i

theorem addrObject_written {m : Nlmsg} {rtas : Rtas} {init : Bool} {old : Addr}
    (hf : Fits AddrField.size nsAddrmap rtas)
    (hk : init = false → addrObject old = addrMessageObject m rtas) :
    addrObject (written nsAddrmap m rtas init old) = addrMessageObject m rtas := by
  have hget : ∀ x ∈ nsAddrmap, (written nsAddrmap m rtas init old).get x.field =
      stored (rtas x.type) init (old.get x.field) :=
    (get_rtnlEntrySet (by decide) hf (by decide) old).1
  have haddr := hget ⟨1, .addr, true⟩ (by simp [nsAddrmap])
  have hlocal := hget ⟨2, .local, true⟩ (by simp [nsAddrmap])
  rw [addrObject, haddr, hlocal, addrMessageObject, AddrObject.mk.injEq]
  refine ⟨rfl, rfl, rfl, value_stored fun h => ?_, value_stored fun h => ?_⟩
  · exact congrArg AddrObject.address (hk h)
  · exact congrArg AddrObject.localAddress (hk h)

theorem tableId_stored {rtm : Fin 12 → UInt8} (old : Fin 12 → UInt8) {rta : Option Rtattr}
    {init : Bool} {table : Fin 4 → UInt8}
    (h : init = false → tableId old table = tableId rtm (fun i => zeroExtended rta i)) :
    tableId rtm (stored rta init table) = tableId rtm (fun i => zeroExtended rta i) := by
  rw [stored]
  split
  · rename_i hc
    obtain ⟨rfl, hi⟩ := hc
    rw [← h hi]
    have hz : tableId rtm (fun i => zeroExtended none i) = [rtm 4, 0, 0, 0] := if_pos fun _ => rfl
    rw [hz] at h
    by_cases ht : ∀ i, table i = 0
    · have := h hi
      rw [tableId, if_pos ht] at this ⊢
      rw [tableId, if_pos ht, this]
    · rw [tableId, if_neg ht, tableId, if_neg ht]
  · rfl

theorem routeObject_written {m : Nlmsg} {rtas : Rtas} {init : Bool} {old : Route}
    (hf : Fits RouteField.size nsRoutemapPlain rtas)
    (hk : init = false → routeObject old = routeMessageObject m rtas) :
    routeObject (written nsRoutemap m rtas init old) = routeMessageObject m rtas := by
  have hget : ∀ x ∈ nsRoutemapPlain, (written nsRoutemap m rtas init old).get x.field =
      stored (rtas x.type) init (old.get x.field) := fun x hx => get_plain hf hx
  have hdst := hget ⟨1, .dst, true⟩ (by simp [nsRoutemapPlain])
  have hvia := hget ⟨18, .via, true⟩ (by simp [nsRoutemapPlain])
  have hgateway := hget ⟨5, .gateway, true⟩ (by simp [nsRoutemapPlain])
  have hoif := hget ⟨4, .oif, true⟩ (by simp [nsRoutemapPlain])
  have htable := hget ⟨15, .table, false⟩ (by simp [nsRoutemapPlain])
  have hpriority := hget ⟨6, .priority, false⟩ (by simp [nsRoutemapPlain])
  rw [routeObject, hdst, hvia, hgateway, hoif, htable, hpriority, routeMessageObject,
    RouteObject.mk.injEq]
  refine ⟨rfl, rfl, rfl, tableId_stored old.hdr fun h => ?_, value_stored fun h => ?_,
    value_stored fun h => ?_, value_stored fun h => ?_, value_stored fun h => ?_,
    value_stored fun h => ?_⟩
  · exact congrArg RouteObject.table (hk h)
  · exact congrArg RouteObject.dst (hk h)
  · exact congrArg RouteObject.priority (hk h)
  · exact congrArg RouteObject.gateway (hk h)
  · exact congrArg RouteObject.via (hk h)
  · exact congrArg RouteObject.oif (hk h)

structure Mirrors (ns : Netns) (addrs : Set AddrObject) (routes : Set RouteObject) : Prop where
  addresses : Tracks addrObject ns.addresses addrs
  routes : Tracks routeObject ns.routes routes

theorem routes_tracked {ns : Netns} {m : Nlmsg} {routes : Set RouteObject}
    (ht : Tracks routeObject ns.routes routes) (hm : Apart ns m) (hr : IsRoute m) :
    Tracks routeObject (nsRcvRoute ns.routes m).table (announceRoute routes m) := by
  rw [announceRoute, if_pos hr]
  cases ha : attributes 12 m with
  | none =>
    rw [nsRcvRoute, nsRcv_refused ha]
    exact ht
  | some rtas =>
    obtain ⟨hf, hmatch⟩ := hm.route hr rtas ha
    apply ht.handled
    have hmatch : ∀ i, Live ns.routes i →
        (accepts routeMask nsRoutemap (header 12 m) rtas (ns.routes.elt i) = true ↔
          routeObject (ns.routes.elt i) = routeMessageObject m rtas) := by
      intro i hi
      rw [accepts_route_iff hf]
      refine ⟨fun h => (hmatch i hi).1 h.1 h.2, fun h => ⟨(hmatch i hi).2 h, ?_⟩⟩
      rw [h]
      rfl
    have hfind : nsGetRoute ns.routes (header 12 m) rtas =
      findLive (accepts routeMask nsRoutemap (header 12 m) rtas) ns.routes := rfl
    apply nsRcv_handled ha hfind hmatch
    · exact fun _ _ => routeObject_written hf fun h => Bool.noConfusion h
    · exact fun _ i _ hk => routeObject_written hf fun _ => hk

theorem addresses_tracked {ns : Netns} {m : Nlmsg} {addrs : Set AddrObject}
    (ht : Tracks addrObject ns.addresses addrs) (hm : Apart ns m) (hd : IsAddr m) :
    Tracks addrObject (nsRcvAddr ns.addresses m).table (announceAddr addrs m) := by
  rw [announceAddr, if_pos hd]
  cases ha : attributes 8 m with
  | none =>
    rw [nsRcvAddr, nsRcv_refused ha]
    exact ht
  | some rtas =>
    obtain ⟨hf, hmatch⟩ := hm.addr hd rtas ha
    apply ht.handled
    have hmatch : ∀ i, Live ns.addresses i →
        (accepts addrMask nsAddrmap (header 8 m) rtas (ns.addresses.elt i) = true ↔
          addrObject (ns.addresses.elt i) = addrMessageObject m rtas) := by
      intro i hi
      rw [accepts_addr_iff hf]
      refine ⟨hmatch i hi, fun h => ?_⟩
      rw [h]
      rfl
    have hfind : nsGetAddr ns.addresses (header 8 m) rtas =
      findLive (accepts addrMask nsAddrmap (header 8 m) rtas) ns.addresses := rfl
    apply nsRcv_handled ha hfind hmatch
    · exact fun _ _ => addrObject_written hf fun h => Bool.noConfusion h
    · exact fun _ i _ hk => addrObject_written hf fun _ => hk

theorem mirrors_recv {ns : Netns} {m : Nlmsg} {addrs : Set AddrObject} {routes : Set RouteObject}
    (hs : Mirrors ns addrs routes) (hm : Apart ns m) :
    Mirrors (nsRecvRtnl ns m).1 (announceAddr addrs m) (announceRoute routes m) := by
  obtain ⟨dr, dl, da, dn⟩ := @kinds_disjoint m
  by_cases hr : IsRoute m
  · rw [recv_route ns hr, announceAddr, if_neg (dr hr).2.1]
    exact ⟨hs.addresses, routes_tracked hs.routes hm hr⟩
  by_cases hd : IsAddr m
  · rw [recv_addr ns hd, announceRoute, if_neg hr]
    exact ⟨addresses_tracked hs.addresses hm hd, hs.routes⟩
  rw [announceAddr, if_neg hd, announceRoute, if_neg hr]
  by_cases hl : IsLink m
  · rw [recv_link ns hl]
    exact ⟨hs.addresses, hs.routes⟩
  by_cases hn : IsNeigh m
  · rw [recv_neigh ns hn]
    exact ⟨hs.addresses, hs.routes⟩
  · rw [recv_other ns ⟨hr, hl, hd, hn⟩]
    exact hs

theorem run_mirrors {ms : List Nlmsg} {s u : Netns} {addrs : Set AddrObject}
    {routes : Set RouteObject} (hs : Mirrors s addrs routes) (hc : Meets receive Apart s ms)
    (hr : run receive s ms = some u) :
    Mirrors u (ms.foldl announceAddr addrs) (ms.foldl announceRoute routes) := by
  induction ms generalizing s addrs routes with
  | nil =>
    obtain rfl := Option.some.inj hr
    exact hs
  | cons m ms ih =>
    obtain ⟨t, ht, hu⟩ := run_cons_eq_some.mp hr
    obtain rfl := Option.some.inj ht
    exact ih (mirrors_recv hs hc.1) (hc.2 _ rfl) hu

def linkLocal (index : UInt8) : Nlmsg :=
  messageOf rtmNewaddr [10, 64, 128, 253, index, 0, 0, 0,
    20, 0, 1, 0, 0xfe, 0x80, 0, 0, 0, 0, 0, 0, 0, 0, 0, 0, 0, 0, 0, 1] [(1, 8)]

def hostAddr (type : Nat) : Nlmsg :=
  messageOf type [2, 8, 128, 0, 3, 0, 0, 0, 8, 0, 1, 0, 10, 0, 0, 1, 8, 0, 2, 0, 10, 0, 0, 1]
    [(1, 8), (2, 16)]

def narrowRoute (type : Nat) : Nlmsg :=
  messageOf type [2, 16, 0, 0, 254, 4, 0, 1, 0, 0, 0, 0, 8, 0, 1, 0, 10, 1, 0, 0,
    8, 0, 4, 0, 3, 0, 0, 0, 8, 0, 6, 0, 5, 0, 0, 0] [(1, 12), (4, 20), (6, 28)]

/-- Two addresses and two routes are announced, one of each is announced again,
the others are deleted. -/
def history : List Nlmsg :=
  [linkLocal 2, hostAddr rtmNewaddr, plainRoute, narrowRoute rtmNewroute, linkLocal 2, plainRoute,
    hostAddr rtmDeladdr, narrowRoute rtmDelroute]

instance (e : Route) (m : Nlmsg) (rtas : Rtas) : Decidable (SameDetails e m rtas) :=
  decidable_of_iff (routeDetails e = routeMessageDetails m rtas ∧
      (payloadLen (rtas rtaEncap) ≤ 28 → List.ofFn (e.get .encap) = value 28 (rtas rtaEncap)))
    ⟨fun h => ⟨h.1, h.2⟩, fun h => ⟨h.plain, h.encap⟩⟩

theorem apart_addr {ns : Netns} {m : Nlmsg} {rtas : Rtas} (hk : IsAddr m ∧ ¬ IsRoute m)
    (ha : attributes 8 m = some rtas)
    (hf : ∀ x ∈ nsAddrmap, payloadLen (rtas x.type) ≤ x.field.size)
    (h : ∀ i < ns.addresses.len,
      { addrObject (ns.addresses.elt i) with ifaIndex := ifaIndex (header 8 m) } =
        addrMessageObject m rtas → addrObject (ns.addresses.elt i) = addrMessageObject m rtas) :
    Apart ns m := by
  refine ⟨fun _ rtas' ha' => ?_, fun hr => absurd hr hk.2⟩
  obtain rfl := Option.some.inj (ha.symm.trans ha')
  exact ⟨hf, fun i hi => h i hi.1⟩

theorem apart_route {ns : Netns} {m : Nlmsg} {rtas : Rtas} (hk : IsRoute m ∧ ¬ IsAddr m)
    (ha : attributes 12 m = some rtas)
    (hf : ∀ x ∈ nsRoutemapPlain, payloadLen (rtas x.type) ≤ x.field.size)
    (h : ∀ i < ns.routes.len,
      (SameDetails (ns.routes.elt i) m rtas →
        withSelectors (routeObject (ns.routes.elt i)) m rtas = routeMessageObject m rtas →
        routeObject (ns.routes.elt i) = routeMessageObject m rtas) ∧
      (routeObject (ns.routes.elt i) = routeMessageObject m rtas →
        SameDetails (ns.routes.elt i) m rtas)) : Apart ns m := by
  refine ⟨fun hd => absurd hd hk.2, fun _ rtas' ha' => ?_⟩
  obtain rfl := Option.some.inj (ha.symm.trans ha')
  exact ⟨hf, fun i hi => h i hi.1⟩

theorem meets_history : Meets receive Apart emptyNetns history := by
  refine ⟨apart_addr (by decide) rfl (by decide) (by decide +kernel), ?_⟩
  rintro _ ⟨⟩
  refine ⟨apart_addr (by decide) rfl (by decide) (by decide +kernel), ?_⟩
  rintro _ ⟨⟩
  refine ⟨apart_route (by decide) rfl (by decide) (by decide +kernel), ?_⟩
  rintro _ ⟨⟩
  refine ⟨apart_route (by decide) rfl (by decide) (by decide +kernel), ?_⟩
  rintro _ ⟨⟩
  refine ⟨apart_addr (by decide) rfl (by decide) (by decide +kernel), ?_⟩
  rintro _ ⟨⟩
  refine ⟨apart_route (by decide) rfl (by decide) (by decide +kernel), ?_⟩
  rintro _ ⟨⟩
  refine ⟨apart_addr (by decide) rfl (by decide) (by decide +kernel), ?_⟩
  rintro _ ⟨⟩
  exact ⟨apart_route (by decide) rfl (by decide) (by decide +kernel), fun _ _ => trivial⟩

end Vppsb.NetnsObjects
