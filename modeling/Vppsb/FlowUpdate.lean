import Vppsb.FlowIdentity

namespace Vppsb.FlowUpdate

open Vppsb.StepRun Vppsb.PoolStore Vppsb.KeyedPool Vppsb.LinkedRing Vppsb.FlowSignature
  Vppsb.FlowTable Vppsb.FlowProcess Vppsb.FlowInvariant Vppsb.FlowExpire Vppsb.FlowWheel
  Vppsb.FlowLookup Vppsb.FlowRun Vppsb.FlowIdentity

/-- A packet that the node has handled: the buffer as it came in, the signature
it was looked up under and the flow entry it got. -/
structure Handled where
  buffer : Buffer
  sig : Signature
  flow : Nat

/-- The packets of a frame that got a flow. Every buffer of the frame is sent,
in the order of the frame. -/
def handled (arrivals : List Arrival) (sents : List Sent) : List Handled :=
  (arrivals.zip sents).filterMap
    (fun x => x.2.lookup.map (fun q => ⟨x.1.buffer, q.1, q.2⟩))

/-- The table with the packets of the past whose flow is still live. -/
structure Watched where
  table : FlowtableMain
  alive : List Handled

def watchedStep (cmp : AddressCompare) (s : Watched) : Event → Option Watched
  | .frame passes now arrivals => (flowtableProcess cmp passes now s.table arrivals).map
      (fun r => ⟨r.1, (handled arrivals r.2.1 ++ s.alive).filter
        (fun q => decide (Live r.1.flows q.flow))⟩)
  | .update args => (flowtableUpdate s.table args).map (fun r => ⟨r.1, s.alive⟩)

def opened (nextNodeIndex : Nat) : Watched := ⟨flowtableInit nextNodeIndex, []⟩

section Filed

/-- The flows of the lookups are live and stand under the hashes of their
signatures. -/
def Filed (fm : FlowtableMain) (alive : List (Signature × Nat)) : Prop :=
  ∀ q ∈ alive, Live fm.flows q.2 ∧ (fm.flows.elt q.2).sigHash = hashSignature q.1

variable {fm fm' : FlowtableMain} {alive : List (Signature × Nat)}

theorem Filed.sameKeys (hs : Filed fm alive) (hk : SameKeys fm fm') : Filed fm' alive := by
  intro q hq
  obtain ⟨hl, hh⟩ := hs q hq
  exact ⟨(hk.1 _).mpr hl, (hk.2 _).2.trans hh⟩

theorem Filed.cons (hs : Filed fm alive) {sig : Signature} {f : Nat}
    (hl : Live fm.flows f) (hh : (fm.flows.elt f).sigHash = hashSignature sig) :
    Filed fm ((sig, f) :: alive) := by
  intro q hq
  obtain rfl | hq := List.mem_cons.mp hq
  · exact ⟨hl, hh⟩
  · exact hs q hq

theorem Filed.insert (hs : Filed fm alive) (hwf : WF fm.flows) {e : FlowEntry}
    (hfl : fm'.flows = insert fm.flows e) : Filed fm' alive := by
  intro q hq
  obtain ⟨hl, hh⟩ := hs q hq
  rw [hfl]
  exact ⟨(live_insert hwf _).mpr (Or.inl hl), by rw [elt_insert_old hl, hh]⟩

theorem Filed.shrink (hs : Filed fm alive) (hsh : Shrinks fm fm') :
    Filed fm' (stillAlive fm' alive) := by
  intro q hq
  obtain ⟨hq, hl⟩ := List.mem_filter.mp hq
  exact ⟨of_decide_eq_true hl, by rw [hsh.1]; exact (hs q hq).2⟩

def FiledInv (fm : FlowtableMain) (alive : List (Signature × Nat)) : Prop :=
  (∃ lines slots, Inv fm lines slots) ∧ Filed fm alive

theorem step_filed (cmp : AddressCompare) (s : Traced) (a : Action) (t : Traced)
    (hs : FiledInv s.table s.alive) (hr : tracedStep cmp s a = some t) :
    FiledInv t.table t.alive := by
  obtain ⟨hinv, hf⟩ := hs
  obtain ⟨ho, hinv'⟩ := step_outcome cmp hinv hr
  refine ⟨hinv', ?_⟩
  cases ho with
  | kept a fm' hk => exact hf.sameKeys hk
  | hit now b stack sigLen p f fm' hparse hl hh _ hk =>
    exact (hf.cons hl (hh.trans (parse_hash hparse))).sameKeys hk
  | made now b stack sigLen p e fm₁ fm' hparse hfl he _ hk =>
    obtain ⟨lines, slots, hi⟩ := hinv
    refine ((hf.insert hi.flowsWF hfl).cons ?_ ?_).sameKeys hk
    · rw [hfl]
      exact (live_insert hi.flowsWF _).mpr (Or.inr rfl)
    · rw [hfl, elt_insert_fresh, he, parse_hash hparse]
  | expired fm' hsh => exact hf.shrink hsh

theorem run_filed (cmp : AddressCompare) {s t : Traced} {actions : List Action}
    (hs : FiledInv s.table s.alive) (hr : run (tracedStep cmp) s actions = some t) :
    FiledInv t.table t.alive :=
  invariant (P := fun s => FiledInv s.table s.alive) (step_filed cmp) hs hr

def lookups (alive : List Handled) : List (Signature × Nat) := alive.map (fun q => (q.sig, q.flow))

theorem lookups_handled {arrivals : List Arrival} {sents : List Sent} {q : Signature × Nat}
    (hq : q ∈ lookups (handled arrivals sents)) : q ∈ sents.filterMap Sent.lookup := by
  obtain ⟨h, hh, rfl⟩ := List.mem_map.mp hq
  obtain ⟨x, hx, hl⟩ := List.mem_filterMap.mp hh
  obtain ⟨l, hlook, rfl⟩ := Option.map_eq_some_iff.mp hl
  exact List.mem_filterMap.mpr ⟨x.2, (List.of_mem_zip hx).2, hlook⟩

theorem watched_filed (cmp : AddressCompare) (s : Watched) (e : Event) (t : Watched)
    (hs : FiledInv s.table (lookups s.alive)) (hr : watchedStep cmp s e = some t) :
    FiledInv t.table (lookups t.alive) := by
  cases e with
  | frame passes now arrivals =>
    obtain ⟨r, hp, rfl⟩ := Option.map_eq_some_iff.mp hr
    obtain ⟨acts, hacts⟩ := flowtableProcess_actions cmp hp (lookups s.alive)
    obtain ⟨hinv, hf⟩ := run_filed cmp hs hacts
    refine ⟨hinv, fun q hq => hf q ?_⟩
    obtain ⟨h, hh, rfl⟩ := List.mem_map.mp hq
    obtain ⟨hm, hl⟩ := List.mem_filter.mp hh
    refine List.mem_filter.mpr ⟨List.mem_append.mpr ?_, hl⟩
    obtain hm | hm := List.mem_append.mp hm
    · exact Or.inl (List.mem_reverse.mpr (lookups_handled (List.mem_map.mpr ⟨h, hm, rfl⟩)))
    · exact Or.inr (List.mem_map.mpr ⟨h, hm, rfl⟩)
  | update args =>
    obtain ⟨r, hu, rfl⟩ := Option.map_eq_some_iff.mp hr
    refine step_filed cmp ⟨s.table, lookups s.alive⟩ (.update args) ⟨r.1, lookups s.alive⟩ hs ?_
    simp only [tracedStep, hu, Option.map_some]

theorem watched_run_filed (cmp : AddressCompare) (next : Nat) {s : Watched} {events : List Event}
    (hr : run (watchedStep cmp) (opened next) events = some s) :
    FiledInv s.table (lookups s.alive) := by
  refine invariant (P := fun s => FiledInv s.table (lookups s.alive)) (watched_filed cmp) ?_ hr
  exact ⟨⟨_, _, flowtableInit_inv next⟩, fun q hq => (nomatch hq)⟩

end Filed

section Search

/-- The flows of the hash line of the key, in the order of the list. -/
def HashLine (fm : FlowtableMain) (key : BitVec 64) (flows : List Nat) : Prop :=
  ∃ h xs, fm.flowsHt key = some h ∧ Ring fm.htLines.elt h xs ∧ flows = lineFlows fm xs

/-- In the hash line of the key no flow before `f` is stored under the bytes of
the arguments; and `f` is, or no flow comes after it. -/
def EndsAt (fm : FlowtableMain) (a : UpdateArgs) (key : BitVec 64) (f : Nat) : Prop :=
  ∃ before after, HashLine fm key (before ++ f :: after) ∧
    (∀ g ∈ before, matchesArgs fm a g = false) ∧ (matchesArgs fm a f = true ∨ after = [])

def withData (a : UpdateArgs) (offloaded : UInt8) (infos : Bytes) : UpdateArgs :=
  { a with offloaded := offloaded, infos := infos }

/-- The call returns 0 and writes to flow `f` alone, whatever the data. -/
def Selects (fm : FlowtableMain) (a : UpdateArgs) (f : Nat) : Prop :=
  ∀ offloaded infos, flowtableUpdate fm (withData a offloaded infos) =
    some (setFlow fm f (applyUpdate (fm.flows.elt f) (withData a offloaded infos)), 0)

theorem find_or_last {α : Type} {p : α → Bool} {l : List α} {x : α} :
    (l.find? p).or l.getLast? = some x ↔ ∃ before after, l = before ++ x :: after ∧
      (∀ y ∈ before, p y = false) ∧ (p x = true ∨ after = []) := by
  constructor
  · intro h
    cases hf : l.find? p with
    | some y =>
      rw [hf, Option.some_or] at h
      obtain rfl := Option.some.inj h
      obtain ⟨hp, before, after, hl, hb⟩ := List.find?_eq_some_iff_append.mp hf
      exact ⟨before, after, hl, fun y hy => by simpa using hb y hy, Or.inl hp⟩
    | none =>
      rw [hf, Option.none_or] at h
      obtain ⟨before, rfl⟩ := List.getLast?_eq_some_iff.mp h
      have hn := List.find?_eq_none.mp hf
      exact ⟨before, [], rfl, fun y hy => by simpa using hn y (by simp [hy]), Or.inr rfl⟩
  · rintro ⟨before, after, rfl, hb, hx⟩
    have hn : before.find? p = none := List.find?_eq_none.mpr fun y hy => by simp [hb y hy]
    rw [List.find?_append, hn, Option.none_or]
    cases hp : p x with
    | true => rw [List.find?_cons_of_pos hp, Option.some_or]
    | false =>
      obtain rfl := hx.resolve_left (by simp [hp])
      simp [hp]

variable {fm : FlowtableMain} {lines : BitVec 64 → List Nat} {slots : Nat → List Nat}

theorem hashLine_iff (hi : Inv fm lines slots) {key : BitVec 64} {flows : List Nat}
    (hne : flows ≠ []) : HashLine fm key flows ↔ flows = lineFlows fm (lines key) := by
  constructor
  · rintro ⟨h, xs, hk, hr, rfl⟩
    rw [hr.unique (hi.lineRings.ring key h hk)]
  · rintro rfl
    obtain ⟨x, hx⟩ := List.exists_mem_of_ne_nil (lines key) (fun hn => hne (by rw [hn]; rfl))
    obtain ⟨h, hk, hr⟩ := hi.lineRings.head_of_mem hx
    exact ⟨h, _, hk, hr, rfl⟩

theorem endsAt_iff (hi : Inv fm lines slots) (a : UpdateArgs) (key : BitVec 64) (f : Nat) :
    EndsAt fm a key f ↔ updateEnd fm a (lineFlows fm (lines key)) = some f := by
  rw [updateEnd, find_or_last]
  constructor
  · rintro ⟨before, after, hl, h⟩
    exact ⟨before, after, ((hashLine_iff hi (by simp)).mp hl).symm, h⟩
  · rintro ⟨before, after, hl, h⟩
    exact ⟨before, after, (hashLine_iff hi (by simp)).mpr hl.symm, h⟩

theorem updateEnd_withData (a : UpdateArgs) (offloaded : UInt8) (infos : Bytes) :
    updateEnd fm (withData a offloaded infos)
        (lineFlows fm (lines (hashSignature (updateSignature (withData a offloaded infos))))) =
      updateEnd fm a (lineFlows fm (lines (hashSignature (updateSignature a)))) := rfl

theorem selects_iff_end (hi : Inv fm lines slots) (a : UpdateArgs) (f : Nat) :
    Selects fm a f ↔
      updateEnd fm a (lineFlows fm (lines (hashSignature (updateSignature a)))) = some f := by
  constructor
  · intro hs
    -- A flag that flow `f` does not have yet shows where the call writes.
    have h := hs ((fm.flows.elt f).infos.offloaded + 1) []
    rw [flowtableUpdate_eq hi, updateEnd_withData] at h
    split at h
    · have hret : (-1 : Int) = 0 := congrArg Prod.snd (Option.some.inj h)
      exact absurd hret (by decide)
    · next g hg =>
      refine hg.trans (congrArg some ?_)
      by_contra hne
      have hfm := congrArg Prod.fst (Option.some.inj h)
      have he := congrArg (fun fm' => (fm'.flows.elt f).infos.offloaded) hfm
      simp [FlowTable.setFlow, applyUpdate, withData, Function.update_of_ne (Ne.symm hne)] at he
  · intro hs offloaded infos
    rw [flowtableUpdate_eq hi, updateEnd_withData, hs]

theorem selects_iff (hi : Inv fm lines slots) (a : UpdateArgs) {f : Nat} :
    Selects fm a f ↔ hashSignature (updateSignature a) = (fm.flows.elt f).sigHash ∧
      EndsAt fm a (fm.flows.elt f).sigHash f := by
  rw [selects_iff_end hi, endsAt_iff hi]
  constructor
  · intro hs
    obtain ⟨before, after, hl, _⟩ := find_or_last.mp hs
    have hm : f ∈ lineFlows fm (lines (hashSignature (updateSignature a))) := by
      rw [hl]
      simp
    have hk := ((mem_lineFlows hi).mp hm).2
    exact ⟨hk.symm, by rw [hk]; exact hs⟩
  · rintro ⟨hk, hs⟩
    rw [hk]
    exact hs

end Search

section Hash

variable {w : Nat}

def SameEnds (s t : IpSig w) : Prop :=
  s.src = t.src ∧ s.dst = t.dst ∨ s.src = t.dst ∧ s.dst = t.src

theorem setWidth_inj {v w : Nat} (h : v ≤ w) {x y : BitVec v} :
    x.setWidth w = y.setWidth w ↔ x = y := by
  constructor
  · intro he
    have hb := congrArg (BitVec.setWidth v) he
    rwa [BitVec.setWidth_setWidth_of_le x h, BitVec.setWidth_setWidth_of_le y h,
      BitVec.setWidth_eq, BitVec.setWidth_eq] at hb
  · rintro rfl
    rfl

theorem sameEnds_xor {s t : IpSig w} (h : SameEnds s t) : s.src ^^^ s.dst = t.src ^^^ t.dst := by
  obtain ⟨h1, h2⟩ | ⟨h1, h2⟩ := h
  · rw [h1, h2]
  · rw [h1, h2, BitVec.xor_comm]

/-- The hash of IPv4 sees of the ports what they have not in common. -/
theorem hash_ip4_iff {s t : IpSig 32} (h : SameEnds s t) (hp : s.proto = t.proto) :
    hashSignature (.ip4 s) = hashSignature (.ip4 t) ↔
      s.portSrc ^^^ s.portDst = t.portSrc ^^^ t.portDst := by
  have hw : (16 : Nat) ≤ 32 := by decide
  simp only [hashSignature]
  rw [setWidth_inj (by decide), sameEnds_xor h, hp, BitVec.xor_assoc _ (s.portSrc.setWidth 32),
    BitVec.xor_assoc _ (t.portSrc.setWidth 32), BitVec.xor_right_inj, ← BitVec.setWidth_xor,
    ← BitVec.setWidth_xor, setWidth_inj hw]

/-- The words that stand in an IPv6 source address where the hash expects the
ports. -/
def sourceWords (src : BitVec 128) : BitVec 16 := src.extractLsb' 72 16 ^^^ src.extractLsb' 88 16

def halves (x y : BitVec 128) : BitVec 64 :=
  y.extractLsb' 0 64 ^^^ y.extractLsb' 64 64 ^^^ x.extractLsb' 0 64 ^^^ x.extractLsb' 64 64

theorem halves_comm (x y : BitVec 128) : halves x y = halves y x := by
  unfold halves
  ac_rfl

theorem hash_ip6_iff {s t : IpSig 128} (h : SameEnds s t) :
    hashSignature (.ip6 s) = hashSignature (.ip6 t) ↔ sourceWords s.src = sourceWords t.src := by
  have hh : halves s.src s.dst = halves t.src t.dst := by
    obtain ⟨h1, h2⟩ | ⟨h1, h2⟩ := h
    · rw [h1, h2]
    · rw [h1, h2, halves_comm]
  have he : ∀ u : IpSig 128, hashSignature (.ip6 u) =
      halves u.src u.dst ^^^ (sourceWords u.src).setWidth 64 := by
    intro u
    simp only [hashSignature, halves, sourceWords, BitVec.setWidth_xor, BitVec.xor_assoc]
  rw [he, he, hh, BitVec.xor_right_inj, setWidth_inj (by decide)]

end Hash

section Arguments

variable {w : Nat}

structure Describes (a : UpdateArgs) (ip : IpHeader w) : Prop where
  ipSrc : a.ipSrc.setWidth w = ip.srcAddress
  ipDst : a.ipDst.setWidth w = ip.dstAddress
  ipUpperProto : a.ipUpperProto = ip.protocol
  ports : HasPorts ip.protocol → a.portSrc = ip.next.srcPort ∧ a.portDst = ip.next.dstPort

def replyTo (ip : IpHeader w) : IpHeader w :=
  ⟨ip.protocol, ip.dstAddress, ip.srcAddress, ⟨ip.next.dstPort, ip.next.srcPort⟩⟩

/-- The packet's own arguments, in its direction or in the reverse one. -/
def Own (a : UpdateArgs) (ip : IpHeader w) : Prop := Describes a ip ∨ Describes a (replyTo ip)

def PacketArgs (b : Buffer) (a : UpdateArgs) : Prop :=
  ethernetType b = ethernetTypeIp4 ∧ a.isIp4 = true ∧
      Own a (ip4HeaderAt b.data (b.currentData + sizeofEthernetHeader)) ∨
    ethernetType b = ethernetTypeIp6 ∧ a.isIp4 = false ∧
      Own a (ip6HeaderAt b.data (b.currentData + sizeofEthernetHeader))

def ParsedAs (cmp : AddressCompare) (b : Buffer) (sig : Signature) : Prop :=
  ∃ sigLen p, parsePacket cmp (ethernetType b) (vlibBufferAdvance b sizeofEthernetHeader) =
    some (sigLen, p) ∧ p.sig = sig

/-- For IPv4 the protocol has ports, or the two that were given cancel. For
IPv6 the source address that was given looks to the hash like the one that the
parser puts first. -/
def SameWords (a : UpdateArgs) : Signature → Prop
  | .ip4 s => HasPorts s.proto ∨ a.portSrc = a.portDst
  | .ip6 s => sourceWords a.ipSrc = sourceWords s.src

def argsSig (w : Nat) (a : UpdateArgs) : IpSig w :=
  ⟨a.ipSrc.setWidth w, a.ipDst.setWidth w, a.ipUpperProto, a.portSrc, a.portDst⟩

variable {a : UpdateArgs} {ip : IpHeader w}

theorem own_proto (compare : BitVec w → BitVec w → Int) (ho : Own a ip) :
    (argsSig w a).proto = (parseIpPacket compare ip (some 0)).2.proto := by
  obtain h | h := ho <;> exact h.ipUpperProto

/-- The parser sorts the addresses, the update takes them as they are. -/
theorem own_sameEnds (compare : BitVec w → BitVec w → Int) (ho : Own a ip) :
    SameEnds (argsSig w a) (parseIpPacket compare ip (some 0)).2 := by
  unfold SameEnds parseIpPacket argsSig
  obtain h | h := ho
  · by_cases hlt : compare ip.srcAddress ip.dstAddress < 0
    · simp [hlt, h.ipSrc, h.ipDst]
    · simp [hlt, h.ipSrc, h.ipDst]
  · by_cases hlt : compare ip.srcAddress ip.dstAddress < 0
    · simp [hlt, h.ipSrc, h.ipDst, replyTo]
    · simp [hlt, h.ipSrc, h.ipDst, replyTo]

theorem own_ports (compare : BitVec w → BitVec w → Int) (ho : Own a ip) :
    a.portSrc ^^^ a.portDst = (parseIpPacket compare ip (some 0)).2.portSrc ^^^
        (parseIpPacket compare ip (some 0)).2.portDst ↔
      HasPorts ip.protocol ∨ a.portSrc = a.portDst := by
  by_cases hp : HasPorts ip.protocol
  · have hx : a.portSrc ^^^ a.portDst = ip.next.srcPort ^^^ ip.next.dstPort := by
      obtain h | h := ho
      · rw [(h.ports hp).1, (h.ports hp).2]
      · rw [(h.ports hp).1, (h.ports hp).2, BitVec.xor_comm]
        rfl
    simp [parseIpPacket, hp, hx, BitVec.xor_comm]
  · simp [parseIpPacket, hp, BitVec.xor_eq_zero_iff]

theorem own_hash_iff {cmp : AddressCompare} {b : Buffer} {sig : Signature}
    (ha : PacketArgs b a) (hs : ParsedAs cmp b sig) :
    hashSignature (updateSignature a) = hashSignature sig ↔ SameWords a sig := by
  obtain ⟨sigLen, p, hp, rfl⟩ := hs
  obtain ⟨ht, h4, ho⟩ | ⟨ht, h4, ho⟩ := ha
  · rw [ht, parsePacket, if_pos rfl] at hp
    obtain ⟨rfl, rfl⟩ := Prod.mk.inj (Option.some.inj hp)
    have hsig : updateSignature a = .ip4 (argsSig 32 a) := by simp [updateSignature, h4, argsSig]
    rw [hsig]
    exact (hash_ip4_iff (own_sameEnds cmp.ip4 ho) (own_proto cmp.ip4 ho)).trans
      (own_ports cmp.ip4 ho)
  · rw [ht, parsePacket, if_neg (by decide), if_pos rfl] at hp
    obtain ⟨rfl, rfl⟩ := Prod.mk.inj (Option.some.inj hp)
    have hsig : updateSignature a = .ip6 (argsSig 128 a) := by simp [updateSignature, h4, argsSig]
    rw [hsig]
    refine (hash_ip6_iff (own_sameEnds cmp.ip6 ho)).trans ?_
    rw [argsSig, BitVec.setWidth_eq]
    rfl

end Arguments

section Parsed

variable {fm : FlowtableMain} {lines : BitVec 64 → List Nat} {slots : Nat → List Nat}

theorem processPacket_parsed (cmp : AddressCompare) {now : Nat} {b : Buffer} {stack : Bytes}
    {r : FlowtableMain × Buffer × Option Sent} {sent : Sent} (hi : Inv fm lines slots)
    (hr : processPacket cmp now fm b stack = some r) (hsent : r.2.2 = some sent)
    {q : Signature × Nat} (hq : sent.lookup = some q) : ParsedAs cmp b q.1 := by
  cases hp : parsePacket cmp (ethernetType b) (vlibBufferAdvance b sizeofEthernetHeader) with
  | none =>
    obtain ⟨x, hx, hl⟩ := processPacket_other cmp now fm b stack hp
    obtain rfl := Option.some.inj (hr.symm.trans hx)
    obtain rfl := Option.some.inj hsent
    rw [hl] at hq
    cases hq
  | some sp =>
    obtain ⟨sigLen, p⟩ := sp
    obtain ⟨r', o, hr', _, _, hpass, _⟩ | ⟨_, hn⟩ := processPacket_ip cmp now b stack hp hi
    · obtain rfl := Option.some.inj (hr.symm.trans hr')
      cases ho : o.2.1 with
      | none => cases (hpass.full ho).1.symm.trans hsent
      | some f =>
        obtain ⟨x, hx, hl⟩ := hpass.found f ho
        obtain rfl := Option.some.inj (hx.symm.trans hsent)
        obtain rfl := Option.some.inj (hl.symm.trans hq)
        exact ⟨sigLen, p, hp, rfl⟩
    · cases hr.symm.trans hn

/-- Below the limit no buffer is processed twice, so every one is parsed where
it came in. -/
theorem processLoop_parsed (cmp : AddressCompare) (now : Nat) (arrivals : List Arrival)
    {passes : Nat} {fm : FlowtableMain} {lines : BitVec 64 → List Nat} {slots : Nat → List Nat}
    (hi : Inv fm lines slots) (ht : Tidy fm lines)
    (hlim : Meets (packetStep cmp now) BelowLimit fm arrivals)
    {r : FlowtableMain × List Sent} (hr : processLoop cmp now passes 0 fm arrivals = some r) :
    ∀ q ∈ handled arrivals r.2, ParsedAs cmp q.buffer q.sig := by
  induction arrivals generalizing fm lines slots passes r with
  | nil => exact fun q hq => (nomatch hq)
  | cons a arrivals ih =>
    cases passes with
    | zero => cases hr
    | succ passes =>
      obtain ⟨hle, hrest⟩ := hlim
      obtain ⟨fm', b', sent, lines', slots', hp, hi', ht', _⟩ :=
        packet_spec cmp now a.buffer (a.stack 0) hi ht hle
      have hstep : packetStep cmp now fm a = some fm' := by rw [packetStep, hp]; rfl
      simp only [processLoop, hp, Option.bind_eq_bind, Option.bind_some] at hr
      obtain ⟨r', hl, hr⟩ := Option.bind_eq_some_iff.mp hr
      obtain rfl := Option.some.inj hr
      intro q hq
      rw [handled, List.zip_cons_cons, List.filterMap_cons] at hq
      have ih' := ih hi' ht' (hrest fm' hstep) hl
      cases hlook : sent.lookup with
      | none =>
        rw [hlook] at hq
        exact ih' q hq
      | some l =>
        rw [hlook] at hq
        obtain rfl | hq := List.mem_cons.mp hq
        · exact processPacket_parsed cmp hi hp rfl hlook
        · exact ih' q hq

theorem step_of_watchedStep {cmp : AddressCompare} {s t : Watched} {e : Event}
    (hr : watchedStep cmp s e = some t) : step cmp s.table e = some t.table := by
  cases e with
  | frame passes now arrivals =>
    obtain ⟨r, hp, rfl⟩ := Option.map_eq_some_iff.mp hr
    simp only [step, hp, Option.map_some]
  | update args =>
    obtain ⟨r, hu, rfl⟩ := Option.map_eq_some_iff.mp hr
    simp only [step, hu, Option.map_some]

def ParsedInv (cmp : AddressCompare) (s : Watched) : Prop :=
  (∃ lines slots, Inv s.table lines slots ∧ Tidy s.table lines) ∧
    ∀ q ∈ s.alive, ParsedAs cmp q.buffer q.sig

theorem watched_parsed (cmp : AddressCompare) (s : Watched) (e : Event) (t : Watched)
    (hs : ParsedInv cmp s) (hw : WithinLimit cmp s.table e) (hr : watchedStep cmp s e = some t) :
    ParsedInv cmp t := by
  obtain ⟨⟨lines, slots, hi, ht⟩, hp⟩ := hs
  obtain ⟨fm', lines', slots', hstep, hi', ht'⟩ := step_spec cmp hi ht hw
  obtain rfl := Option.some.inj (hstep.symm.trans (step_of_watchedStep hr))
  refine ⟨⟨lines', slots', hi', ht'⟩, fun q hq => ?_⟩
  cases e with
  | frame passes now arrivals =>
    obtain ⟨r, hf, rfl⟩ := Option.map_eq_some_iff.mp hr
    obtain hq | hq := List.mem_append.mp (List.mem_filter.mp hq).1
    · simp only [flowtableProcess, Option.bind_eq_bind] at hf
      obtain ⟨fm₁, hwheel, hf⟩ := Option.bind_eq_some_iff.mp hf
      obtain ⟨r₁, hloop, hf⟩ := Option.bind_eq_some_iff.mp hf
      obtain ⟨r₂, _, hf⟩ := Option.bind_eq_some_iff.mp hf
      obtain rfl := Option.some.inj hf
      obtain ⟨tm, n, slots₁, hw₁, hi₁, _⟩ := timerWheelIndexUpdate_spec hi now
      obtain rfl := Option.some.inj (hw₁.symm.trans hwheel)
      exact processLoop_parsed cmp now arrivals hi₁ ht (hw.2 _ hwheel) hloop q hq
    · exact hp q hq
  | update args =>
    obtain ⟨r, _, rfl⟩ := Option.map_eq_some_iff.mp hr
    exact hp q hq

theorem run_parsed (cmp : AddressCompare) (next : Nat) (events : List Event)
    (hw : Meets (watchedStep cmp) (fun s => WithinLimit cmp s.table) (opened next) events)
    {s : Watched} (hr : run (watchedStep cmp) (opened next) events = some s) :
    ∀ q ∈ s.alive, ParsedAs cmp q.buffer q.sig :=
  (invariant_of_meets (P := ParsedInv cmp) (watched_parsed cmp)
    ⟨⟨_, _, flowtableInit_inv next, tidy_flowtableInit next⟩, fun _ hq => absurd hq List.not_mem_nil⟩
    hw hr).2

end Parsed

/-- In every state that frames and updates reach, and for every packet whose
flow is still live, an update under the packet's own arguments reaches that flow
exactly when their hash leads to its line and the search in the line ends there.
The hash of a packet parsed where it came in is that of the arguments when the
words that the hash takes for the ports agree. -/
theorem run_selects (cmp : AddressCompare) (next : Nat) (events : List Event) (s : Watched)
    (hr : run (watchedStep cmp) (opened next) events = some s) (q : Handled) (hq : q ∈ s.alive)
    (a : UpdateArgs) (ha : PacketArgs q.buffer a) :
    (Selects s.table a q.flow ↔ hashSignature (updateSignature a) = hashSignature q.sig ∧
      EndsAt s.table a (hashSignature q.sig) q.flow) ∧
    (ParsedAs cmp q.buffer q.sig →
      (hashSignature (updateSignature a) = hashSignature q.sig ↔ SameWords a q.sig)) := by
  obtain ⟨⟨lines, slots, hi⟩, hf⟩ := watched_run_filed cmp next hr
  obtain ⟨_, hh⟩ := hf (q.sig, q.flow) (List.mem_map.mpr ⟨q, hq, rfl⟩)
  refine ⟨?_, own_hash_iff ha⟩
  rw [selects_iff hi a, hh]

section Samples

theorem firstFrame_run {cmp : AddressCompare} {next now : Nat} {a : Arrival} {sig : Signature}
    {f : Nat} {r : FlowtableMain × List Sent × Nat}
    (hr : flowtableProcess cmp 1 now (flowtableInit next) [a] = some r)
    (hs : r.2.1.map Sent.lookup = [some (sig, f)]) (hf : Live r.1.flows f) :
    run (watchedStep cmp) (opened next) [.frame 1 now [a]] = some ⟨r.1, [⟨a.buffer, sig, f⟩]⟩ := by
  obtain ⟨sent, hsent, hl⟩ := List.map_eq_singleton_iff.mp hs
  have hh : handled [a] r.2.1 = [⟨a.buffer, sig, f⟩] := by
    rw [hsent]
    simp [handled, hl]
  rw [run_cons, watchedStep, opened, hr, Option.map_some, hh]
  simp [hf]

def udpArgs : UpdateArgs := ⟨true, 0x0100000a, 0x0200000a, 17, 0x0100, 0x0200, 5, 1, []⟩

theorem udpArgs_own : PacketArgs (udpBuffer 1 2) udpArgs := by
  refine Or.inl ⟨by decide +kernel, rfl, Or.inl ⟨?_, ?_, ?_, fun _ => ⟨?_, ?_⟩⟩⟩ <;> decide +kernel

theorem run_selects_sample :
    ∃ s, run (watchedStep sampleCompare) (opened 0) [.frame 1 7 [⟨udpBuffer 1 2, fun _ => sameStack⟩]] =
        some s ∧
      (Selects s.table udpArgs 0 ↔ hashSignature (updateSignature udpArgs) = hashSignature firstSig ∧
        EndsAt s.table udpArgs (hashSignature firstSig) 0) := by
  have heval : (flowtableProcess sampleCompare 1 7 (flowtableInit 0)
      [⟨udpBuffer 1 2, fun _ => sameStack⟩]).map (fun r => (r.2.1.map Sent.lookup,
        decide (Live r.1.flows 0))) = some ([some (firstSig, 0)], true) := by
    rw [flowtableInit_eq]
    decide +kernel
  obtain ⟨r, hr, he⟩ := Option.map_eq_some_iff.mp heval
  obtain ⟨hs, hl⟩ := Prod.mk.inj he
  have hrun := firstFrame_run hr hs (of_decide_eq_true hl)
  exact ⟨_, hrun, (run_selects sampleCompare 0 _ _ hrun ⟨udpBuffer 1 2, firstSig, 0⟩ (by simp)
    udpArgs udpArgs_own).1⟩

def ip6Src : Bytes := [0x20, 1, 0x0d, 0xb8, 0, 0, 0, 0, 0x52, 0x54, 0, 0xff, 0xfe, 0, 0, 2]
def ip6Dst : Bytes := [0x20, 1, 0x0d, 0xb8, 0, 0, 0, 0, 0, 0, 0, 0, 0, 0, 0, 1]

def ip6Buffer : Buffer :=
  { data := fun i => (List.replicate 12 0 ++ [0x86, 0xdd, 0x60, 0, 0, 0, 0, 8, 17, 64] ++ ip6Src ++
      ip6Dst ++ [0, 1, 0, 2]).getD i.toNat 0
    currentData := 0
    currentLength := 62
    vnet := ⟨1, 0, []⟩ }

def ip6Sig : Signature :=
  .ip6 ⟨0x010000000000000000000000b80d0120, 0x020000feff00545200000000b80d0120, 17, 0x0200, 0x0100⟩

def ip6Args : UpdateArgs := ⟨false, 0x020000feff00545200000000b80d0120,
  0x010000000000000000000000b80d0120, 17, 0x0100, 0x0200, 5, 1, []⟩

/-- The update takes for ports what stands in the source address it is given,
and the parser in the one it has put first: the flow is not found. -/
theorem live_flow_missed :
    IsStrictTotalOrder (BitVec 32) (fun a b => sampleCompare.ip4 a b < 0) ∧
    IsStrictTotalOrder (BitVec 128) (fun a b => sampleCompare.ip6 a b < 0) ∧
    ∃ s, run (watchedStep sampleCompare) (opened 0) [.frame 1 7 [⟨ip6Buffer, fun _ => sameStack⟩]] =
        some s ∧
      ⟨ip6Buffer, ip6Sig, 0⟩ ∈ s.alive ∧ PacketArgs ip6Buffer ip6Args ∧
      (flowtableUpdate s.table ip6Args).map (fun r => r.2) = some (-1) ∧
      ¬ Selects s.table ip6Args 0 := by
  have heval : (flowtableProcess sampleCompare 1 7 (flowtableInit 0)
      [⟨ip6Buffer, fun _ => sameStack⟩]).map (fun r => (r.2.1.map Sent.lookup,
        decide (Live r.1.flows 0), (flowtableUpdate r.1 ip6Args).map (fun r => r.2))) =
        some ([some (ip6Sig, 0)], true, some (-1)) := by
    rw [flowtableInit_eq]
    decide +kernel
  obtain ⟨r, hr, he⟩ := Option.map_eq_some_iff.mp heval
  obtain ⟨hs, he⟩ := Prod.mk.inj he
  obtain ⟨hl, hu⟩ := Prod.mk.inj he
  have hrun := firstFrame_run hr hs (of_decide_eq_true hl)
  refine ⟨compareWords_order 32, compareWords_order 128, _, hrun, by simp, ?_, hu, fun hsel => ?_⟩
  · refine Or.inr ⟨by decide +kernel, rfl, Or.inl ⟨?_, ?_, ?_, fun _ => ⟨?_, ?_⟩⟩⟩ <;>
      decide +kernel
  · have h := hsel ip6Args.offloaded ip6Args.infos
    rw [show withData ip6Args ip6Args.offloaded ip6Args.infos = ip6Args from rfl] at h
    rw [h, Option.map_some] at hu
    have hret : (0 : Int) = -1 := Option.some.inj hu
    exact absurd hret (by decide)

end Samples

end Vppsb.FlowUpdate
