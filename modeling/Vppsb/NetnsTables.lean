import Vppsb.NetnsEntry
import Vppsb.KeyedPool

namespace Vppsb.NetnsTables

open Vppsb.PoolStore Vppsb.KeyedPool Vppsb.NetnsEntry

inductive LinkField where
  | hwaddr | broadcast | ifname | master | mtu | qdisc
deriving DecidableEq

def LinkField.size : LinkField → Nat
  | .hwaddr | .broadcast => 6
  | .ifname | .qdisc => 16
  | .master | .mtu => 4

inductive RouteField where
  | dst | src | via | gateway | iif | oif | prefsrc | table | priority | cacheinfo | encap
deriving DecidableEq

def RouteField.size : RouteField → Nat
  | .dst | .src | .via | .gateway | .prefsrc => 16
  | .iif | .oif | .table | .priority => 4
  | .cacheinfo => 32
  | .encap => 28

inductive AddrField where
  | addr | local | label | broadcast | anycast | cacheinfo
deriving DecidableEq

def AddrField.size : AddrField → Nat
  | .addr | .local | .label | .broadcast | .anycast | .cacheinfo => 16

inductive NeighField where
  | dst | lladdr | probes | cacheinfo
deriving DecidableEq

def NeighField.size : NeighField → Nat
  | .dst | .cacheinfo => 16
  | .lladdr => 6
  | .probes => 4

abbrev Link := Entry 16 LinkField.size
abbrev Route := Entry 12 RouteField.size
abbrev Addr := Entry 8 AddrField.size
abbrev Neigh := Entry 12 NeighField.size

def nsIfmap : List (Mapping LinkField) :=
  [⟨1, .hwaddr, false⟩, ⟨2, .broadcast, false⟩, ⟨3, .ifname, false⟩, ⟨10, .master, false⟩,
    ⟨4, .mtu, false⟩, ⟨6, .qdisc, false⟩]

/-- The lines of `ns_routemap` before that of `RTA_ENCAP`. -/
def nsRoutemapPlain : List (Mapping RouteField) :=
  [⟨1, .dst, true⟩, ⟨2, .src, true⟩, ⟨18, .via, true⟩, ⟨5, .gateway, true⟩, ⟨3, .iif, true⟩,
    ⟨4, .oif, true⟩, ⟨7, .prefsrc, false⟩, ⟨15, .table, false⟩, ⟨6, .priority, false⟩,
    ⟨12, .cacheinfo, false⟩]

def encapMapping : Mapping RouteField := ⟨rtaEncap, .encap, true⟩

def nsRoutemap : List (Mapping RouteField) := nsRoutemapPlain ++ [encapMapping]

def nsAddrmap : List (Mapping AddrField) :=
  [⟨1, .addr, true⟩, ⟨2, .local, true⟩, ⟨3, .label, false⟩, ⟨4, .broadcast, false⟩,
    ⟨5, .anycast, false⟩, ⟨6, .cacheinfo, false⟩]

def nsNeighmap : List (Mapping NeighField) :=
  [⟨1, .dst, true⟩, ⟨2, .lladdr, false⟩, ⟨4, .probes, false⟩, ⟨3, .cacheinfo, false⟩]

/-- A message: `data` is the memory behind the `nlmsghdr`, `parsed` what
`rtnl_parse_rtattr` makes of the attributes, `none` where it fails. -/
structure Nlmsg where
  nlmsgLen : Nat
  nlmsgType : Nat
  data : Nat → UInt8
  parsed : Option Rtas

def rtmNewlink : Nat := 16
def rtmDellink : Nat := 17
def rtmNewaddr : Nat := 20
def rtmDeladdr : Nat := 21
def rtmNewroute : Nat := 24
def rtmDelroute : Nat := 25
def rtmNewneigh : Nat := 28
def rtmDelneigh : Nat := 29

def netnsFAdd : Nat := 1
def netnsFDel : Nat := 2

def datalen (m : Nlmsg) : Nat := sizeSub m.nlmsgLen 16

def header (n : Nat) (m : Nlmsg) : Fin n → UInt8 := fun i => m.data i

/-- The attributes of a message, `none` where the message is refused. -/
def attributes (n : Nat) (m : Nlmsg) : Option Rtas :=
  if datalen m < n then none else if datalen m > n then m.parsed else some (fun _ => none)

/-- The table, the slot and the flags of the call of `netns_notify`, and the
return value. -/
structure Outcome (α : Type) where
  table : Pool α
  note : Option (Nat × Nat)
  ret : Int

variable {φ : Type} [DecidableEq φ] {size : φ → Nat} {n : Nat}

/-- What `ns_rcv_link`, `ns_rcv_route`, `ns_rcv_addr` and `ns_rcv_neigh` have in
common. `find` is the search for the entry of the message, and a new entry is
zeroed first where `clear` is set. -/
def nsRcv (find : Pool (Entry n size) → (Fin n → UInt8) → Rtas → Option Nat)
    (map : List (Mapping φ)) (clear : Bool) (delType : Nat) (table : Pool (Entry n size))
    (m : Nlmsg) : Outcome (Entry n size) :=
  match attributes n m with
  | none => ⟨table, none, -1⟩
  | some rtas =>
    let found := find table (header n m) rtas
    if m.nlmsgType = delType then
      match found with
      | none => ⟨table, none, -1⟩
      | some i => ⟨put table i, some (i, netnsFDel), 0⟩
    else
      match found with
      | none =>
        let i := fresh table
        let old := if clear then zeroEntry else (get table).elt i
        let new := (rtnlEntrySet rtas true map old).1
        ⟨set (get table) i { new with hdr := header n m }, some (i, netnsFAdd), 0⟩
      | some i =>
        let new := (rtnlEntrySet rtas false map (table.elt i)).1
        ⟨set table i { new with hdr := header n m }, some (i, netnsFAdd), 0⟩

def ifiIndex (hdr : Fin 16 → UInt8) : List UInt8 := [hdr 4, hdr 5, hdr 6, hdr 7]

def nsGetLink (links : Pool Link) (ifi : Fin 16 → UInt8) (_rtas : Rtas) : Option Nat :=
  findLive (fun link => decide (ifiIndex ifi = ifiIndex link.hdr)) links

def nsRcvLink : Pool Link → Nlmsg → Outcome Link := nsRcv nsGetLink nsIfmap false rtmDellink

/-- Mask of `ns_get_route`: family, both prefix lengths, table, protocol and
type. -/
def routeMask : List UInt8 := [0xff, 0xff, 0xff, 0, 0xff, 0xff, 0, 0xff, 0, 0, 0, 0]

/-- Mask of `ns_get_addr`: family and prefix length. -/
def addrMask : List UInt8 := [0xff, 0xff, 0, 0, 0, 0, 0, 0]

/-- Mask of `ns_get_neigh`: family and the low byte of `ndm_ifindex`. Only as
many bytes as a pointer has are compared. -/
def neighMask : List UInt8 := [0xff, 0, 0, 0, 0xff, 0, 0, 0]

/-- The test of `ns_get_route`, `ns_get_addr` and `ns_get_neigh`. -/
def accepts (mask : List UInt8) (map : List (Mapping φ)) (hdr : Fin n → UInt8) (rtas : Rtas)
    (e : Entry n size) : Bool :=
  maskMatch (byteAt e.hdr) (byteAt hdr) (fun i => mask.getD i 0) mask.length &&
    decide (rtnlEntryMatch e rtas map ≠ 0)

def nsGet (mask : List UInt8) (map : List (Mapping φ)) (table : Pool (Entry n size))
    (hdr : Fin n → UInt8) (rtas : Rtas) : Option Nat :=
  findLive (accepts mask map hdr rtas) table

def nsGetRoute : Pool Route → (Fin 12 → UInt8) → Rtas → Option Nat := nsGet routeMask nsRoutemap
def nsGetAddr : Pool Addr → (Fin 8 → UInt8) → Rtas → Option Nat := nsGet addrMask nsAddrmap
def nsGetNeigh : Pool Neigh → (Fin 12 → UInt8) → Rtas → Option Nat := nsGet neighMask nsNeighmap

def nsRcvRoute : Pool Route → Nlmsg → Outcome Route := nsRcv nsGetRoute nsRoutemap true rtmDelroute
def nsRcvAddr : Pool Addr → Nlmsg → Outcome Addr := nsRcv nsGetAddr nsAddrmap true rtmDeladdr
def nsRcvNeigh : Pool Neigh → Nlmsg → Outcome Neigh := nsRcv nsGetNeigh nsNeighmap true rtmDelneigh

inductive NetnsType where
  | link | route | addr | neigh
deriving DecidableEq

structure Note where
  type : NetnsType
  slot : Nat
  flags : Nat
deriving DecidableEq

structure Netns where
  links : Pool Link
  routes : Pool Route
  addresses : Pool Addr
  neighbors : Pool Neigh

def emptyNetns : Netns := ⟨empty zeroEntry, empty zeroEntry, empty zeroEntry, empty zeroEntry⟩

def noteOf (type : NetnsType) : Option (Nat × Nat) → Option Note :=
  Option.map (fun x => ⟨type, x.1, x.2⟩)

def nsRecvRtnl (ns : Netns) (m : Nlmsg) : Netns × Option Note :=
  if m.nlmsgType = rtmNewroute ∨ m.nlmsgType = rtmDelroute then
    let out := nsRcvRoute ns.routes m
    ({ ns with routes := out.table }, noteOf .route out.note)
  else if m.nlmsgType = rtmNewlink ∨ m.nlmsgType = rtmDellink then
    let out := nsRcvLink ns.links m
    ({ ns with links := out.table }, noteOf .link out.note)
  else if m.nlmsgType = rtmNewaddr ∨ m.nlmsgType = rtmDeladdr then
    let out := nsRcvAddr ns.addresses m
    ({ ns with addresses := out.table }, noteOf .addr out.note)
  else if m.nlmsgType = rtmNewneigh ∨ m.nlmsgType = rtmDelneigh then
    let out := nsRcvNeigh ns.neighbors m
    ({ ns with neighbors := out.table }, noteOf .neigh out.note)
  else (ns, none)

/-- A subscriber. `notify` tells whether it has a callback. -/
structure NetnsHandle where
  notify : Bool
  netnsIndex : Nat

/-- The handles whose callbacks `netns_notify` calls, in this order. -/
def netnsNotify (handles : Pool NetnsHandle) (ns : Nat) : List Nat :=
  (liveIndices handles).filter
    (fun h => decide ((handles.elt h).netnsIndex = ns) && (handles.elt h).notify)

/-- A callback is called at most once. -/
theorem count_netnsNotify (handles : Pool NetnsHandle) (ns h : Nat) :
    (netnsNotify handles ns).count h =
      if Live handles h ∧ (handles.elt h).netnsIndex = ns ∧ (handles.elt h).notify = true
      then 1 else 0 := by
  have hn : (netnsNotify handles ns).Nodup := (nodup_liveIndices handles).filter _
  rw [hn.count]
  simp only [netnsNotify, List.mem_filter, mem_liveIndices, Bool.and_eq_true, decide_eq_true_eq]

end Vppsb.NetnsTables
