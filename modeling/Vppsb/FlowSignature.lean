import Mathlib.Data.BitVec
import Mathlib.Order.Defs.Unbundled

namespace Vppsb.FlowSignature

/-- `struct ip4_sig` for 32-bit and `struct ip6_sig` for 128-bit addresses.
Every field is the word its bytes in memory form, first byte lowest. -/
structure IpSig (w : Nat) where
  src : BitVec w
  dst : BitVec w
  proto : BitVec 8
  portSrc : BitVec 16
  portDst : BitVec 16
deriving DecidableEq

inductive Signature where
  | ip6 (sig : IpSig 128)
  | ip4 (sig : IpSig 32)
deriving DecidableEq

/-- For IPv6 the source reads the ports through the `ip4` member, where the
packed layout has the bytes 9 to 12 of the source address. -/
def hashSignature : Signature → BitVec 64
  | .ip4 s => (s.src ^^^ s.dst ^^^ s.proto.setWidth 32 ^^^ s.portSrc.setWidth 32 ^^^
      s.portDst.setWidth 32).setWidth 64
  | .ip6 s => s.dst.extractLsb' 0 64 ^^^ s.dst.extractLsb' 64 64 ^^^
      s.src.extractLsb' 0 64 ^^^ s.src.extractLsb' 64 64 ^^^
      (s.src.extractLsb' 72 16).setWidth 64 ^^^ (s.src.extractLsb' 88 16).setWidth 64

structure UdpHeader where
  srcPort : BitVec 16
  dstPort : BitVec 16
deriving DecidableEq

/-- The fields of an IP header that the flowtable reads, with the ports that
stand where `ip4_next_header` or `ip6_next_header` points. -/
structure IpHeader (w : Nat) where
  protocol : BitVec 8
  srcAddress : BitVec w
  dstAddress : BitVec w
  next : UdpHeader
deriving DecidableEq

def ipProtocolTcp : BitVec 8 := 6
def ipProtocolUdp : BitVec 8 := 17

def HasPorts (proto : BitVec 8) : Prop := proto = ipProtocolUdp ∨ proto = ipProtocolTcp

instance (proto : BitVec 8) : Decidable (HasPorts proto) := inferInstanceAs (Decidable (_ ∨ _))

variable {w : Nat}

/-- The common body of the two parsers. `isReverse` is the pointer argument:
absent when it is null, else the word it points to. The branch on the ports
tests the pointer. -/
def parseIpPacket (compare : BitVec w → BitVec w → Int) (ip : IpHeader w)
    (isReverse : Option (BitVec 64)) : Option (BitVec 64) × IpSig w :=
  let straight := compare ip.srcAddress ip.dstAddress < 0
  let ports : UdpHeader :=
    if HasPorts ip.protocol then
      if isReverse = none then ip.next else ⟨ip.next.dstPort, ip.next.srcPort⟩
    else ⟨0, 0⟩
  (if straight then isReverse.map (fun _ => 1) else isReverse,
    { src := if straight then ip.srcAddress else ip.dstAddress
      dst := if straight then ip.dstAddress else ip.srcAddress
      proto := ip.protocol
      portSrc := ports.srcPort
      portDst := ports.dstPort })

/-- What a parser leaves behind: the word behind `is_reverse`, the signature
and the hash it returns. -/
structure Parsed where
  isReverse : Option (BitVec 64)
  sig : Signature
  hash : BitVec 64
deriving DecidableEq

def parseIp4Packet (ip4AddressCompare : BitVec 32 → BitVec 32 → Int) (ip0 : IpHeader 32)
    (isReverse : Option (BitVec 64)) : Parsed :=
  let r := parseIpPacket ip4AddressCompare ip0 isReverse
  ⟨r.1, .ip4 r.2, hashSignature (.ip4 r.2)⟩

def parseIp6Packet (ip6AddressCompare : BitVec 128 → BitVec 128 → Int) (ip60 : IpHeader 128)
    (isReverse : Option (BitVec 64)) : Parsed :=
  let r := parseIpPacket ip6AddressCompare ip60 isReverse
  ⟨r.1, .ip6 r.2, hashSignature (.ip6 r.2)⟩

/-- `r` answers `p`: the addresses are swapped, and so are the ports when the
protocol has any. -/
structure IsReply (p r : IpHeader w) : Prop where
  protocol : r.protocol = p.protocol
  srcAddress : r.srcAddress = p.dstAddress
  dstAddress : r.dstAddress = p.srcAddress
  srcPort : HasPorts p.protocol → r.next.srcPort = p.next.dstPort
  dstPort : HasPorts p.protocol → r.next.dstPort = p.next.srcPort

def SameConnection (p r : Parsed) : Prop := p.sig = r.sig ∧ p.hash = r.hash

def ReportedReverse (p : Parsed) : Prop := p.isReverse ≠ some 0

/-- What the parsers owe to a packet and its reply, called with `is_reverse`
pointing to a zero word. -/
def RepliesAgree (parse : IpHeader w → Option (BitVec 64) → Parsed) (p r : IpHeader w) : Prop :=
  SameConnection (parse p (some 0)) (parse r (some 0)) ∧
    (p.srcAddress ≠ p.dstAddress →
      Xor (ReportedReverse (parse p (some 0))) (ReportedReverse (parse r (some 0))))

section Parse

variable (compare : BitVec w → BitVec w → Int) {p r : IpHeader w}
  [horder : IsStrictTotalOrder (BitVec w) (fun a b => compare a b < 0)]

/-- Both parsers sort the two addresses, so a packet and its reply give the
same pair. -/
theorem parse_addresses (h : IsReply p r) :
    (parseIpPacket compare p (some 0)).2.src = (parseIpPacket compare r (some 0)).2.src ∧
      (parseIpPacket compare p (some 0)).2.dst = (parseIpPacket compare r (some 0)).2.dst := by
  simp only [parseIpPacket, h.srcAddress, h.dstAddress]
  have hasymm : compare p.srcAddress p.dstAddress < 0 → ¬ compare p.dstAddress p.srcAddress < 0 :=
    fun h1 h2 => horder.irrefl _ (horder.trans _ _ _ h1 h2)
  by_cases h1 : compare p.srcAddress p.dstAddress < 0
  · simp [h1, hasymm h1]
  · by_cases h2 : compare p.dstAddress p.srcAddress < 0
    · simp [h1, h2]
    · have he := horder.trichotomous _ _ h1 h2
      simp [he]

omit horder in
/-- The pointer is never null, so the ports are always swapped. -/
theorem parse_ports (h : IsReply p r) :
    ((parseIpPacket compare p (some 0)).2.portSrc = (parseIpPacket compare r (some 0)).2.portSrc ∧
      (parseIpPacket compare p (some 0)).2.portDst = (parseIpPacket compare r (some 0)).2.portDst) ↔
    (HasPorts p.protocol → p.next.srcPort = p.next.dstPort) := by
  simp only [parseIpPacket, h.protocol]
  by_cases hp : HasPorts p.protocol
  · simp [hp, h.srcPort hp, h.dstPort hp, eq_comm]
  · simp [hp]

theorem parse_sig_eq_iff (h : IsReply p r) :
    (parseIpPacket compare p (some 0)).2 = (parseIpPacket compare r (some 0)).2 ↔
      (HasPorts p.protocol → p.next.srcPort = p.next.dstPort) := by
  rw [← parse_ports compare h]
  obtain ⟨hs, hd⟩ := parse_addresses compare h
  constructor
  · intro he
    rw [he]
    exact ⟨rfl, rfl⟩
  · rintro ⟨hps, hpd⟩
    have hproto : (parseIpPacket compare p (some 0)).2.proto =
        (parseIpPacket compare r (some 0)).2.proto := h.protocol.symm
    cases hp : (parseIpPacket compare p (some 0)).2
    cases hr : (parseIpPacket compare r (some 0)).2
    simp_all

theorem parse_reverse (h : IsReply p r) (hne : p.srcAddress ≠ p.dstAddress) :
    Xor ((parseIpPacket compare p (some 0)).1 ≠ some 0)
      ((parseIpPacket compare r (some 0)).1 ≠ some 0) := by
  simp only [parseIpPacket, h.srcAddress, h.dstAddress]
  by_cases h1 : compare p.srcAddress p.dstAddress < 0
  · have h2 : ¬ compare p.dstAddress p.srcAddress < 0 :=
      fun h2 => horder.irrefl _ (horder.trans _ _ _ h1 h2)
    simp [Xor, h1, h2]
  · have h2 : compare p.dstAddress p.srcAddress < 0 := by
      by_contra h2
      exact hne (horder.trichotomous _ _ h1 h2)
    simp [Xor, h1, h2]

end Parse

/-- A packet and its reply get one signature and one hash exactly when they
carry no ports or equal ones: the parsers look at the pointer `is_reverse`
where they mean the word behind it. -/
theorem replies_agree_iff (ip4AddressCompare : BitVec 32 → BitVec 32 → Int)
    (ip6AddressCompare : BitVec 128 → BitVec 128 → Int)
    [IsStrictTotalOrder (BitVec 32) (fun a b => ip4AddressCompare a b < 0)]
    [IsStrictTotalOrder (BitVec 128) (fun a b => ip6AddressCompare a b < 0)] :
    (∀ p r : IpHeader 32, IsReply p r → (RepliesAgree (parseIp4Packet ip4AddressCompare) p r ↔
      (HasPorts p.protocol → p.next.srcPort = p.next.dstPort))) ∧
    (∀ p r : IpHeader 128, IsReply p r → (RepliesAgree (parseIp6Packet ip6AddressCompare) p r ↔
      (HasPorts p.protocol → p.next.srcPort = p.next.dstPort))) := by
  constructor
  · intro p r h
    rw [← parse_sig_eq_iff ip4AddressCompare h]
    constructor
    · rintro ⟨⟨hs, _⟩, _⟩
      exact Signature.ip4.inj hs
    · intro he
      exact ⟨⟨congrArg Signature.ip4 he, congrArg (fun s => hashSignature (.ip4 s)) he⟩,
        parse_reverse ip4AddressCompare h⟩
  · intro p r h
    rw [← parse_sig_eq_iff ip6AddressCompare h]
    constructor
    · rintro ⟨⟨hs, _⟩, _⟩
      exact Signature.ip6.inj hs
    · intro he
      exact ⟨⟨congrArg Signature.ip6 he, congrArg (fun s => hashSignature (.ip6 s)) he⟩,
        parse_reverse ip6AddressCompare h⟩

def compareWords (a b : BitVec w) : Int := a.toNat - b.toNat

theorem compareWords_order (w : Nat) :
    IsStrictTotalOrder (BitVec w) (fun a b => compareWords a b < 0) where
  trichotomous a b h1 h2 := by
    simp only [compareWords] at h1 h2
    exact BitVec.eq_of_toNat_eq (by omega)
  irrefl a := by simp [compareWords]
  trans a b c h1 h2 := by
    simp only [compareWords] at h1 h2 ⊢
    omega

def sample (proto : BitVec 8) (srcPort dstPort : BitVec 16) : IpHeader 32 :=
  ⟨proto, 0x0100000a, 0x0200000a, ⟨srcPort, dstPort⟩⟩

def sampleReply (proto : BitVec 8) (srcPort dstPort : BitVec 16) : IpHeader 32 :=
  ⟨proto, 0x0200000a, 0x0100000a, ⟨dstPort, srcPort⟩⟩

theorem sample_isReply (proto : BitVec 8) (srcPort dstPort : BitVec 16) :
    IsReply (sample proto srcPort dstPort) (sampleReply proto srcPort dstPort) :=
  ⟨rfl, rfl, rfl, fun _ => rfl, fun _ => rfl⟩

theorem replies_agree_iff_sample :
    RepliesAgree (parseIp4Packet compareWords) (sample 1 2048 0) (sampleReply 1 2048 0) ↔
      (HasPorts 1 → (2048 : BitVec 16) = 0) :=
  letI := compareWords_order 32
  letI := compareWords_order 128
  (replies_agree_iff compareWords compareWords).1 _ _ (sample_isReply 1 2048 0)

/-- A UDP packet from port 53 to port 1024 and its reply. -/
theorem replies_disagree :
    IsStrictTotalOrder (BitVec 32) (fun a b => compareWords a b < 0) ∧
    IsReply (sample 17 53 1024) (sampleReply 17 53 1024) ∧
    ¬ RepliesAgree (parseIp4Packet compareWords) (sample 17 53 1024) (sampleReply 17 53 1024) := by
  refine ⟨compareWords_order 32, sample_isReply 17 53 1024, fun h => ?_⟩
  exact absurd h.1.1 (by decide)

end Vppsb.FlowSignature
