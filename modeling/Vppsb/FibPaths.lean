import Vppsb.NetnsTables

namespace Vppsb.FibPaths

open Vppsb.NetnsEntry Vppsb.NetnsTables

def afInet : UInt8 := 2
def afInet6 : UInt8 := 10
def afMpls : UInt8 := 28

def u32 (b : Fin 4 → UInt8) : UInt32 :=
  (b 0).toUInt32 ||| (b 1).toUInt32 <<< 8 ||| (b 2).toUInt32 <<< 16 ||| (b 3).toUInt32 <<< 24

inductive FibProtocol where
  | ip4 | ip6 | mpls
deriving DecidableEq

/-- A path for a prefix, in the table of the protocol. A prefix has an address or
a label, and a path may push labels. -/
structure FibPath where
  proto : FibProtocol
  len : UInt8
  addr : List UInt8
  label : Nat
  nextHop : List UInt8
  swIfIndex : UInt32
  labels : List Nat
deriving DecidableEq

def oif (route : Route) : UInt32 := u32 (route.get .oif)

def ip4Path (route : Route) (swIfIndex : UInt32) (labels : List Nat) : FibPath :=
  ⟨.ip4, byteAt route.hdr 1, (List.ofFn (route.get .dst)).take 4, 0,
    (List.ofFn (route.get .gateway)).take 4, swIfIndex, labels⟩

def ip6Path (route : Route) (swIfIndex : UInt32) : FibPath :=
  ⟨.ip6, byteAt route.hdr 1, List.ofFn (route.get .dst), 0, List.ofFn (route.get .gateway), swIfIndex, []⟩

end Vppsb.FibPaths
