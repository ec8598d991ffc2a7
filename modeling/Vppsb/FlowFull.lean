import Vppsb.FlowUpdate

namespace Vppsb.FlowFull

open Vppsb.StepRun Vppsb.PoolStore Vppsb.KeyedPool Vppsb.LinkedRing Vppsb.FlowSignature
  Vppsb.FlowTable Vppsb.FlowProcess Vppsb.FlowInvariant Vppsb.FlowCreate Vppsb.FlowExpire
  Vppsb.FlowWheel Vppsb.FlowLookup Vppsb.FlowRun Vppsb.FlowUpdate

section Hosts

theorem bytes_append (x : BitVec 32) :
    (x.extractLsb' 24 8 ++ x.extractLsb' 16 8) ++ (x.extractLsb' 8 8 ++ x.extractLsb' 0 8) = x := by
  ext i hi
  simp only [BitVec.getElem_append, BitVec.getElem_extractLsb']
  grind

def hostBuffer (i : Nat) : Buffer :=
  { data := fun j => (List.replicate 12 0 ++ [8, 0, 0x45, 0, 0, 0, 0, 0, 0, 0, 64, 17, 0, 0] ++
      wordBytes 4 (BitVec.ofNat 32 i) ++ [10, 0, 0, 1, 0, 1, 0, 2]).getD j.toNat 0
    currentData := 0
    currentLength := 42
    vnet := ⟨1, 0, []⟩ }

def hostHeader (i : Nat) : IpHeader 32 :=
  ⟨17, BitVec.ofNat 32 i, 0x0100000a, ⟨0x0100, 0x0200⟩⟩

theorem hostBuffer_header (i : Nat) :
    ip4HeaderAt (hostBuffer i).data ((hostBuffer i).currentData + sizeofEthernetHeader) =
      hostHeader i := by
  have hsrc : load32 (hostBuffer i).data 26 = BitVec.ofNat 32 i := bytes_append (BitVec.ofNat 32 i)
  have hdst : load32 (hostBuffer i).data 30 = 0x0100000a := by
    show ((1 : UInt8).toBitVec ++ (0 : UInt8).toBitVec) ++
      ((0 : UInt8).toBitVec ++ (10 : UInt8).toBitVec) = (0x0100000a : BitVec 32)
    decide
  have hports : udpHeaderAt (hostBuffer i).data 34 = ⟨0x0100, 0x0200⟩ := by
    show UdpHeader.mk ((1 : UInt8).toBitVec ++ (0 : UInt8).toBitVec)
      ((2 : UInt8).toBitVec ++ (0 : UInt8).toBitVec) = ⟨0x0100, 0x0200⟩
    decide
  have hlen : (hostBuffer i).data 14 = 0x45 := rfl
  have hproto : (hostBuffer i).data 23 = 17 := rfl
  have hat : (hostBuffer i).currentData + sizeofEthernetHeader = 14 := rfl
  rw [ip4HeaderAt, hat, hlen]
  simp only [hostHeader, IpHeader.mk.injEq]
  exact ⟨congrArg UInt8.toBitVec hproto, hsrc, hdst, hports⟩

def hostKey (i : Nat) : BitVec 64 :=
  (BitVec.ofNat 32 i ^^^ (0x0100000a ^^^ (17 ^^^ (0x0200 ^^^ 0x0100)))).setWidth 64

theorem hostBuffer_parse (i : Nat) : ∃ p,
    parsePacket sampleCompare (ethernetType (hostBuffer i))
        (vlibBufferAdvance (hostBuffer i) sizeofEthernetHeader) = some (sizeofIp4Sig, p) ∧
      p.hash = hostKey i := by
  have htype : ethernetType (hostBuffer i) = ethernetTypeIp4 := by
    show (8 : UInt8).toBitVec ++ (0 : UInt8).toBitVec = ethernetTypeIp4
    decide
  refine ⟨parseIp4Packet sampleCompare.ip4 (hostHeader i) (some 0), ?_, ?_⟩
  · rw [parsePacket, htype, if_pos rfl, vlibBufferAdvance, hostBuffer_header]
  · rw [parseIp4Packet, hostKey]
    by_cases hlt : sampleCompare.ip4 (hostHeader i).srcAddress (hostHeader i).dstAddress < 0
    · simp only [parseIpPacket, hlt, if_true, hashSignature]
      rw [BitVec.xor_assoc, BitVec.xor_assoc, BitVec.xor_assoc]
      rfl
    · simp only [parseIpPacket, hlt, if_false, hashSignature]
      rw [BitVec.xor_comm (hostHeader i).dstAddress, BitVec.xor_assoc, BitVec.xor_assoc,
        BitVec.xor_assoc]
      rfl

theorem hostKey_inj {i j : Nat} (hi : i < 2 ^ 32) (hj : j < 2 ^ 32) (h : hostKey i = hostKey j) :
    i = j := by
  rw [hostKey, hostKey, setWidth_inj (by decide), BitVec.xor_left_inj] at h
  have hn := congrArg BitVec.toNat h
  rwa [BitVec.toNat_ofNat, BitVec.toNat_ofNat, Nat.mod_eq_of_lt hi, Nat.mod_eq_of_lt hj] at hn

end Hosts

def hostFrames (n : Nat) : List Event :=
  (List.range n).map (fun i => .frame 1 7 [⟨hostBuffer i, fun _ => []⟩])

/-- The table after packets from the first `n` hosts: it has a flow for each of
them, and nothing stands in the slot that expires. -/
structure Filled (fm : FlowtableMain) (n : Nat) : Prop where
  tables : ∃ lines slots, Inv fm lines slots ∧ Tidy fm lines ∧ slots 7 = []
  index : fm.timeIndex = 7
  cpt : fm.flowsCpt = n
  keys : ∀ k, fm.flowsHt k ≠ none ↔ ∃ i < n, k = hostKey i

theorem expire_nothing {fm : FlowtableMain} {lines : BitVec 64 → List Nat} {slots : Nat → List Nat}
    (hi : Inv fm lines slots) (hx : fm.timeIndex = 7) (hs : slots 7 = []) :
    flowtableTimerExpire fm = some (fm, 0) := by
  have hring := hi.slotRings.ring 7 7 (if_pos (by decide))
  have hwheel : fm.timerWheel[fm.timeIndex]? = some 7 := by
    rw [hi.wheel, hx, List.getElem?_range (by decide)]
  have hempty := (dlistIsEmpty_iff hring).mpr hs
  simp only [flowtableTimerExpire, hwheel, hempty, if_true, Option.bind_eq_bind, Option.bind_some]

theorem frame_of_loop {cmp : AddressCompare} {passes : Nat} {fm fm' : FlowtableMain}
    {arrivals : List Arrival} {sents : List Sent} {lines : BitVec 64 → List Nat}
    {slots : Nat → List Nat} (hx : fm.timeIndex = 7)
    (hl : processLoop cmp 7 passes 0 fm arrivals = some (fm', sents))
    (hi : Inv fm' lines slots) (hx' : fm'.timeIndex = 7) (hs : slots 7 = []) :
    flowtableProcess cmp passes 7 fm arrivals = some (fm', sents, 0) := by
  have hw : timerWheelIndexUpdate fm 7 = some fm := by
    rw [timerWheelIndexUpdate, hx, if_neg (by decide),
      if_pos (show 7 % timerMaxLifetime = 7 by decide)]
  have hexp := expire_nothing hi hx' hs
  simp only [flowtableProcess, hw, hl, hexp, Option.bind_eq_bind, Option.bind_some]

theorem Filled.new_key {fm : FlowtableMain} {n : Nat} (hf : Filled fm n)
    (hn : n ≤ fmPoolCount + 1) : fm.flowsHt (hostKey n) = none := by
  by_contra hne
  obtain ⟨i, hlt, hi⟩ := (hf.keys _).mp hne
  have hbound : fmPoolCount + 1 < 2 ^ 32 := by decide
  have heq := hostKey_inj (by omega) (by omega) hi
  omega

theorem createLine_keys {fm : FlowtableMain} {key k : BitVec 64} :
    (createLine fm key).flowsHt k ≠ none ↔ k = key ∨ fm.flowsHt k ≠ none := by
  by_cases hk : k = key
  · subst hk
    have hhead : (createLine fm k).flowsHt k = some (fresh fm.htLines) :=
      Function.update_self _ _ _
    rw [hhead]
    exact iff_of_true (Option.some_ne_none _) (Or.inl rfl)
  · have hold : (createLine fm key).flowsHt k = fm.flowsHt k := Function.update_of_ne hk _ _
    rw [hold, or_iff_right hk]

theorem new_line_tidy {fm : FlowtableMain} {lines : BitVec 64 → List Nat} {key : BitVec 64}
    (ht : Tidy fm lines) {fm' : FlowtableMain} (hht : fm'.flowsHt = (createLine fm key).flowsHt)
    (x : Nat) : Tidy fm' (Function.update lines key (x :: lines key)) := by
  intro k h hkh
  by_cases hkk : k = key
  · subst hkk
    rw [Function.update_self]
    exact List.cons_ne_nil _ _
  · rw [Function.update_of_ne hkk]
    rw [hht] at hkh
    have hold : fm.flowsHt k = some h := (Function.update_of_ne hkk _ _).symm.trans hkh
    exact ht k h hold

theorem Filled.packet {fm : FlowtableMain} {n : Nat} (hf : Filled fm n) (hn : n ≤ fmPoolCount) :
    ∃ fm' b sent, processPacket sampleCompare 7 fm (hostBuffer n) [] = some (fm', b, some sent) ∧
      Filled fm' (n + 1) := by
  have hk := hf.new_key (Nat.le_succ_of_le hn)
  obtain ⟨⟨lines, slots, hi, ht, hs⟩, hx, hcpt, hkeys⟩ := hf
  obtain ⟨p, hp, hhash⟩ := hostBuffer_parse n
  have hi₁ := createLine_inv hi hk
  have hhead : (createLine fm (hostKey n)).flowsHt (hostKey n) = some (fresh fm.htLines) :=
    Function.update_self _ _ _
  obtain ⟨lm, tm, hc, hi₂⟩ := createFlow_slots hi₁ hhead (hcpt.trans_le hn) [] sizeofIp4Sig 7
  have hlook : flowtableEntryLookupCreate fm p.hash [] sizeofIp4Sig 7 =
      some (created (createLine fm (hostKey n)) (hostKey n) [] sizeofIp4Sig 7 (fresh fm.htLines) lm tm,
        some (fresh fm.flows), true) := by
    rw [hhash, flowtableEntryLookupCreate, hk]
    exact hc
  have hslot : slotOf (createLine fm (hostKey n)) timerDefaultLifetime = 67 := by
    show u32 (fm.timeIndex + timerDefaultLifetime) % timerMaxLifetime = 67
    rw [hx]
    decide
  refine ⟨_, _, _, by
    simp only [processPacket, hp, hlook, refreshFlow, Option.bind_eq_bind, Option.bind_some,
      if_true]; rfl, ⟨_, _, hi₂.setFlow (offload_links _ _ _).1, ?_, ?_⟩, hx, ?_, ?_⟩
  · exact new_line_tidy ht rfl _
  · rw [hslot, Function.update_of_ne (by decide)]
    exact hs
  · show fm.flowsCpt + 1 = n + 1
    rw [hcpt]
  · intro k
    show (createLine fm (hostKey n)).flowsHt k ≠ none ↔ _
    rw [createLine_keys, hkeys]
    constructor
    · rintro (rfl | ⟨i, hlt, rfl⟩)
      · exact ⟨n, Nat.lt_succ_self n, rfl⟩
      · exact ⟨i, Nat.lt_succ_of_lt hlt, rfl⟩
    · rintro ⟨i, hlt, rfl⟩
      obtain hlt | rfl := Nat.lt_succ_iff_lt_or_eq.mp hlt
      · exact Or.inr ⟨i, hlt, rfl⟩
      · exact Or.inl rfl

theorem Filled.host {fm : FlowtableMain} {n : Nat} (hf : Filled fm n) (hn : n ≤ fmPoolCount) :
    ∃ fm', step sampleCompare fm (.frame 1 7 [⟨hostBuffer n, fun _ => []⟩]) = some fm' ∧
      Filled fm' (n + 1) := by
  obtain ⟨fm', b, sent, hp, hf'⟩ := hf.packet hn
  obtain ⟨lines, slots, hi, _, hs⟩ := hf'.tables
  have hl : processLoop sampleCompare 7 1 0 fm [⟨hostBuffer n, fun _ => []⟩] =
      some (fm', [sent]) := by
    simp only [processLoop, hp, Option.bind_eq_bind, Option.bind_some]
  have hr := frame_of_loop hf.index hl hi hf'.index hs
  exact ⟨fm', by rw [step, hr]; rfl, hf'⟩

def fillEvents (n : Nat) : List Event := .frame 0 7 [] :: hostFrames n

theorem first_frame : ∃ fm, step sampleCompare (flowtableInit 0) (.frame 0 7 []) = some fm ∧
    Filled fm 0 := by
  obtain ⟨tm, slots, hw, hi, hm⟩ := timerWheelIndexUpdate_moved (flowtableInit_inv 0) 7
  have hs : slots 7 = [] := by
    rw [List.eq_nil_iff_forall_not_mem]
    intro e he
    have h := (hm 7 e).mp he
    rw [if_pos (by decide), or_self] at h
    exact absurd h List.not_mem_nil
  have hexp := expire_nothing hi rfl hs
  refine ⟨_, by
    simp only [step, flowtableProcess, hw, processLoop, hexp, Option.bind_eq_bind, Option.bind_some,
      Option.map_some], ⟨_, slots, hi, tidy_flowtableInit 0, hs⟩, rfl, ?_, fun k => ?_⟩
  · show (flowtableInit 0).flowsCpt = 0
    rw [flowtableInit_eq]
  · show (flowtableInit 0).flowsHt k ≠ none ↔ _
    rw [flowtableInit_eq]
    simp

/-- One flow for each host, up to one more than the limit. -/
theorem fill_run (n : Nat) (hn : n ≤ fmPoolCount + 1) :
    ∃ fm, run (step sampleCompare) (flowtableInit 0) (fillEvents n) = some fm ∧ Filled fm n := by
  induction n with
  | zero =>
    obtain ⟨fm, hr, hf⟩ := first_frame
    exact ⟨fm, run_cons_eq_some.mpr ⟨fm, hr, rfl⟩, hf⟩
  | succ n ih =>
    obtain ⟨fm, hr, hf⟩ := ih (by omega)
    obtain ⟨fm', hs, hf'⟩ := hf.host (by omega)
    refine ⟨fm', ?_, hf'⟩
    have hsplit : fillEvents (n + 1) =
        fillEvents n ++ [.frame 1 7 [⟨hostBuffer n, fun _ => []⟩]] := by
      rw [fillEvents, fillEvents, hostFrames, hostFrames, List.range_succ, List.map_append]
      rfl
    rw [hsplit]
    exact run_append_eq_some.mpr ⟨fm, hr, run_cons_eq_some.mpr ⟨fm', hs, rfl⟩⟩

end Vppsb.FlowFull
