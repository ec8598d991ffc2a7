import Vppsb.ByteImage
import Vppsb.RtattrWalk
import Vppsb.RtnlBuffer

namespace Vppsb.RtnlEncoding

open Vppsb.ByteImage Vppsb.NetnsEntry Vppsb.NetnsTables Vppsb.RtnlStream Vppsb.RtnlBuffer
open Vppsb.RtattrWalk (rtnlParseRtattr Area walkFrom WellFormed enter addReads walk_next walk_stops)

structure Attr where
  type : Nat
  payload : List UInt8
  typeFits : type < 65536
  payloadFits : payload.length + 4 < 65536

/-- A message of rtnetlink: the fields of its header, the header of the family and the
attributes. -/
structure Message where
  type : Nat
  flags : UInt16
  seq : UInt32
  pid : UInt32
  family : List UInt8
  attrs : List Attr
  typeFits : type < 65536
  aligned : family.length % 4 = 0

def encodeAttr (a : Attr) : List UInt8 :=
  padded (le16 (4 + a.payload.length) ++ (le16 a.type ++ a.payload))

def encodeAttrs (attrs : List Attr) : List UInt8 := attrs.flatMap encodeAttr

def body (m : Message) : List UInt8 := m.family ++ encodeAttrs m.attrs

def encode (m : Message) : List UInt8 :=
  le32 (16 + (body m).length) ++ (le16 m.type ++ (le16 m.flags.toNat ++ (le32 m.seq.toNat ++
    (le32 m.pid.toNat ++ body m))))

def encodeAll (ms : List Message) : List UInt8 := ms.flatMap encode

def lastAttr : List Attr → Nat → Option Attr
  | [], _ => none
  | a :: rest, t => (lastAttr rest t).or (if a.type = t then some a else none)

def rtattrAt (mem : Nat → UInt8) (off : Nat) : Rtattr :=
  ⟨RtattrWalk.rtaLen mem off, fun i => mem (off + 4 + i)⟩

def parseRtattr (mem : Nat → UInt8) (max len : Nat) : Option Rtas :=
  (rtnlParseRtattr mem max (len + 1) 0 len (fun _ => none)).bind fun w =>
    if w.ret = 0 then some fun t => (w.db t).map (rtattrAt mem) else none

def payloadOf (r : Rtattr) : List UInt8 := (List.range (rtaPayload r)).map r.data

variable {mem : Nat → UInt8} {off n max : Nat} {a : Attr} {attrs : List Attr}

section Attributes

theorem length_encodeAttr (a : Attr) :
    (encodeAttr a).length = (4 + a.payload.length + 3) / 4 * 4 := by
  rw [encodeAttr, length_padded]
  simp only [List.length_append, le16, List.length_cons, List.length_nil]
  congr 2
  omega

theorem encodeAttrs_cons (a : Attr) (attrs : List Attr) :
    encodeAttrs (a :: attrs) = encodeAttr a ++ encodeAttrs attrs := List.flatMap_cons

structure Shows (mem : Nat → UInt8) (off : Nat) (a : Attr) : Prop where
  len : RtattrWalk.rtaLen mem off = 4 + a.payload.length
  type : RtattrWalk.rtaType mem off = a.type
  payload : Holds mem (off + 4) a.payload

theorem shows_of_holds (h : Holds mem off (encodeAttr a)) : Shows mem off a := by
  obtain ⟨hl, hr⟩ := holds_append.mp (holds_padded h)
  obtain ⟨ht, hp⟩ := holds_append.mp hr
  have hfits := a.payloadFits
  exact ⟨holds_le16 hl (by omega), holds_le16 ht a.typeFits, hp⟩

theorem payloadOf_shows (h : Shows mem off a) : payloadOf (rtattrAt mem off) = a.payload := by
  have hlen : rtaPayload (rtattrAt mem off) = a.payload.length := by
    have hsub : sizeSub (4 + a.payload.length) 4 = a.payload.length := by
      rw [sizeSub, if_neg (by omega)]
      omega
    exact (congrArg (fun n => sizeSub n 4) h.len).trans hsub
  rw [payloadOf, hlen]
  refine List.ext_getElem (by simp) fun i hi hi' => ?_
  rw [List.getElem_map, List.getElem_range]
  exact h.payload i hi'

theorem Shows.align (h : Shows mem off a) : RtattrWalk.rtaAlign mem off = (encodeAttr a).length := by
  rw [RtattrWalk.rtaAlign, h.len, length_encodeAttr]

def Found (mem : Nat → UInt8) (attrs : List Attr) (db db' : Nat → Option Nat) (t : Nat) : Prop :=
  match lastAttr attrs t with
  | none => db' t = db t
  | some a => ∃ off, db' t = some off ∧ Shows mem off a

theorem found_cons {ar : Area} {db db' : Nat → Option Nat} (hs : Shows ar.mem off a)
    (h : ∀ t, t ≤ max → Found ar.mem attrs (enter ar max off db) db' t) :
    ∀ t, t ≤ max → Found ar.mem (a :: attrs) db db' t := by
  intro t ht
  have hrest := h t ht
  unfold Found at hrest ⊢
  rw [lastAttr]
  cases hlast : lastAttr attrs t with
  | some a' =>
    rw [hlast] at hrest
    exact hrest
  | none =>
    rw [hlast] at hrest
    by_cases hat : a.type = t
    · rw [if_pos hat]
      refine ⟨off, hrest.trans ?_, hs⟩
      rw [enter, hs.type, hat, if_pos ht, Function.update_self]
    · rw [if_neg hat]
      refine hrest.trans ?_
      rw [enter, hs.type]
      split
      · exact Function.update_of_ne (Ne.symm hat) _ _
      · rfl

theorem walk_encoded {ar : Area} {db : Nat → Option Nat} (fuel : Nat)
    (h : Holds ar.mem off (encodeAttrs attrs)) (hlen : off + (encodeAttrs attrs).length = ar.len)
    (hfuel : attrs.length ≤ fuel) : ∃ w, walkFrom ar max (fuel + 1) off db = some w ∧ w.ret = 0 ∧
      ∀ t, t ≤ max → Found ar.mem attrs db w.db t := by
  induction attrs generalizing off db fuel with
  | nil =>
    have hoff : off = ar.len := hlen
    have hno : ¬ WellFormed ar off := by
      intro hw
      have := hw.1
      omega
    refine ⟨⟨db, 0, []⟩, ?_, rfl, fun t _ => rfl⟩
    rw [walk_stops (by omega) hno, if_pos hoff]
  | cons a attrs ih =>
    rw [encodeAttrs_cons, List.length_append] at hlen
    rw [encodeAttrs_cons] at h
    obtain ⟨ha, hrest⟩ := holds_append.mp h
    have hs := shows_of_holds ha
    have halign := hs.align
    have hsize := length_encodeAttr a
    obtain ⟨fuel, rfl⟩ : ∃ k, fuel = k + 1 := ⟨fuel - 1, by
      rw [List.length_cons] at hfuel
      omega⟩
    rw [← halign] at hrest hlen
    have hw : WellFormed ar off := by
      refine ⟨?_, ?_, ?_⟩
      · omega
      · rw [hs.len]
        omega
      · rw [hs.len]
        omega
    have hpad : off + RtattrWalk.rtaAlign ar.mem off ≤ ar.len := by omega
    obtain ⟨w, hwalk, hret, hfound⟩ := @ih (off + RtattrWalk.rtaAlign ar.mem off)
      (enter ar max off db) fuel hrest (by omega) (Nat.le_of_succ_le_succ hfuel)
    refine ⟨addReads off w, ?_, hret, found_cons hs hfound⟩
    rw [walk_next hw hpad, hwalk]
    rfl

theorem length_le_encodeAttrs (attrs : List Attr) : attrs.length ≤ (encodeAttrs attrs).length := by
  induction attrs with
  | nil => exact Nat.le_refl _
  | cons a attrs ih =>
    have hsize := length_encodeAttr a
    rw [encodeAttrs_cons, List.length_append, List.length_cons]
    omega

/-- The attributes that are parsed are the last ones of each type. -/
theorem parse_encoded (h : Holds mem 0 (encodeAttrs attrs))
    (hfits : (encodeAttrs attrs).length < 18446744073709551616) :
    ∃ rtas, parseRtattr mem max (encodeAttrs attrs).length = some rtas ∧
      ∀ t, t ≤ max → (rtas t).map payloadOf = (lastAttr attrs t).map Attr.payload := by
  obtain ⟨w, hwalk, hret, hfound⟩ := @walk_encoded 0 max attrs
    ⟨mem, (encodeAttrs attrs).length, hfits⟩ (fun _ => none) (encodeAttrs attrs).length
    h (Nat.zero_add _) (length_le_encodeAttrs attrs)
  refine ⟨fun t => (w.db t).map (rtattrAt mem), ?_, fun t ht => ?_⟩
  · have hw : rtnlParseRtattr mem max ((encodeAttrs attrs).length + 1) 0 (encodeAttrs attrs).length
        (fun _ => none) = some w := hwalk
    rw [parseRtattr, hw]
    exact if_pos hret
  · change ((w.db t).map (rtattrAt mem)).map payloadOf = _
    have hf := hfound t ht
    unfold Found at hf
    cases hlast : lastAttr attrs t with
    | none =>
      rw [hlast] at hf
      rw [hf]
      rfl
    | some a =>
      rw [hlast] at hf
      obtain ⟨off, hdb, hs⟩ := hf
      rw [hdb]
      exact congrArg some (payloadOf_shows hs)

end Attributes

/-- An error has room for its code and the header that it answers. -/
def Whole (m : Message) : Prop := m.type = nlmsgError → 20 ≤ (body m).length

/-- The message is read from the offset: its header, the header of the family, and of the
attributes the last one of each type. -/
structure Decodes (b : Received) (off : Nat) (m : Message) : Prop where
  len : nlmsgLen b off = 16 + (body m).length
  type : nlmsgType b off = m.type
  flags : nlmsgFlags b off = m.flags
  seq : nlmsgSeq b off = m.seq
  family : Holds (fun i => b.bytes.getD (off + sizeofNlmsghdr + i) 0) 0 m.family
  attrs : ∀ max, ∃ rtas,
    parseRtattr (fun i => b.bytes.getD (off + sizeofNlmsghdr + (m.family.length + i)) 0) max
      (nlmsgLen b off - sizeofNlmsghdr - m.family.length) = some rtas ∧
    ∀ t, t ≤ max → (rtas t).map payloadOf = (lastAttr m.attrs t).map Attr.payload

section Messages

variable {env : Env} {b : Received} {m : Message} {ms : List Message} {s : Sys}

theorem length_encodeAttrs_mod (attrs : List Attr) : (encodeAttrs attrs).length % 4 = 0 := by
  induction attrs with
  | nil => rfl
  | cons a attrs ih =>
    have hsize := length_encodeAttr a
    rw [encodeAttrs_cons, List.length_append]
    omega

theorem length_body (m : Message) : (body m).length = m.family.length + (encodeAttrs m.attrs).length :=
  List.length_append

theorem length_encode (m : Message) : (encode m).length = 16 + (body m).length := by
  simp only [encode, le32, le16, List.length_append, List.length_cons, List.length_nil]
  omega

theorem length_encode_mod (m : Message) : (encode m).length % 4 = 0 := by
  have hfamily := m.aligned
  have hattrs := length_encodeAttrs_mod m.attrs
  rw [length_encode, length_body]
  omega

theorem encodeAll_cons (m : Message) (ms : List Message) :
    encodeAll (m :: ms) = encode m ++ encodeAll ms := List.flatMap_cons

abbrev HoldsAt (b : Received) (off : Nat) (bytes : List UInt8) : Prop :=
  Holds (fun i => b.bytes.getD i 0) off bytes

theorem decodes_of_holds (h : HoldsAt b off (encode m)) (hfits : (encode m).length ≤ rtnlBuffsiz) :
    Decodes b off m := by
  rw [length_encode, rtnlBuffsiz] at hfits
  obtain ⟨hlen, h⟩ := holds_append.mp h
  obtain ⟨htype, h⟩ := holds_append.mp h
  obtain ⟨hflags, h⟩ := holds_append.mp h
  obtain ⟨hseq, h⟩ := holds_append.mp h
  obtain ⟨-, h⟩ := holds_append.mp h
  obtain ⟨hfamily, hattrs⟩ := holds_append.mp h
  have hl : nlmsgLen b off = 16 + (body m).length := holds_le32 hlen (by omega)
  have hbody := length_body m
  refine ⟨hl, holds_le16 htype m.typeFits, ?_, ?_, ?_, fun max => ?_⟩
  · have hword : wordAt b (off + 6) = m.flags.toNat := holds_le16 hflags m.flags.toNat_lt
    rw [nlmsgFlags, hword, UInt16.ofNat_toNat]
  · have hword : wordAt b (off + 8) + 65536 * wordAt b (off + 10) = m.seq.toNat :=
      holds_le32 hseq m.seq.toNat_lt
    rw [nlmsgSeq, hword, UInt32.ofNat_toNat]
  · exact (@holds_shift (fun i => b.bytes.getD i 0) 0 _ (off + sizeofNlmsghdr)).mpr hfamily
  · have hleft : nlmsgLen b off - sizeofNlmsghdr - m.family.length =
        (encodeAttrs m.attrs).length := by
      rw [hl, sizeofNlmsghdr]
      omega
    rw [hleft]
    refine parse_encoded ?_ (by omega)
    apply (@holds_shift (fun i => b.bytes.getD (off + sizeofNlmsghdr + i) 0) 0 _ _).mpr
    apply (@holds_shift (fun i => b.bytes.getD i 0) _ _ (off + sizeofNlmsghdr)).mpr
    exact hattrs

theorem loop_encoded (fuel : Nat) {off : Nat} {s : Sys} (h : HoldsAt b off (encodeAll ms))
    (hlen : off + (encodeAll ms).length = b.bytes.length) (hwhole : ∀ m ∈ ms, Whole m)
    (hfuel : ms.length ≤ fuel) : ∃ e, loopFrom env b fuel off s = some e ∧ e.failed = false ∧
      rtnlRecvAll s (e.headers.map (messageAt env b)) = (e.sys, false) ∧
      List.Forall₂ (fun off m => HoldsAt b off (encode m) ∧ Inside b off ∧ Decodes b off m)
        e.headers ms := by
  induction ms generalizing off s fuel with
  | nil =>
    have hpast : b.bytes.length ≤ off := Nat.le_of_eq hlen.symm
    exact ⟨_, loop_past hpast, rfl, rfl, .nil⟩
  | cons m ms ih =>
    obtain ⟨fuel, rfl⟩ : ∃ k, fuel = k + 1 := ⟨fuel - 1, by
      rw [List.length_cons] at hfuel
      omega⟩
    rw [encodeAll_cons] at h
    rw [encodeAll_cons, List.length_append] at hlen
    obtain ⟨hm, hrest⟩ := holds_append.mp h
    have hfits := b.fits
    have hsize := length_encode m
    have hdec := decodes_of_holds hm (by omega)
    have hin : Inside b off := by
      refine ⟨?_, ?_⟩
      · rw [sizeofNlmsghdr]
        omega
      · rw [hdec.len]
        omega
    have hlong : tooShort b off = false := by
      rw [tooShort, Bool.and_eq_false_iff, decide_eq_false_iff_not, decide_eq_false_iff_not]
      by_cases herr : m.type = nlmsgError
      · have hbody := hwhole m List.mem_cons_self herr
        right
        rw [hdec.len, sizeSub, if_neg (by omega)]
        omega
      · left
        rwa [hdec.type]
    have halign : nlmsgAlign (nlmsgLen b off) = (encode m).length := by
      have hmod := length_encode_mod m
      rw [rtnlBuffsiz] at hfits
      rw [hdec.len, ← hsize, nlmsgAlign]
      omega
    obtain ⟨e, he, hok, hrun, hall⟩ := @ih fuel (off + (encode m).length)
      (rtnlNsRecv s (messageAt env b off)).1 hrest (by omega)
      (fun m hm => hwhole m (List.mem_cons_of_mem _ hm)) (Nat.le_of_succ_le_succ hfuel)
    refine ⟨{ e with headers := off :: e.headers }, ?_, hok, ?_, .cons ⟨hm, hin, hdec⟩ hall⟩
    · rw [loop_next hin hlong, halign, he]
      rfl
    · have hret : ¬ (rtnlNsRecv s (messageAt env b off)).2 ≠ 0 := by
        rw [nsRecv_tooShort, hlong]
        exact Bool.false_ne_true
      rw [List.map_cons, rtnlRecvAll]
      exact (if_neg hret).trans hrun

theorem length_le_encodeAll (ms : List Message) : ms.length ≤ (encodeAll ms).length := by
  induction ms with
  | nil => exact Nat.le_refl _
  | cons m ms ih =>
    have hsize := length_encode m
    rw [encodeAll_cons, List.length_append, List.length_cons]
    omega

end Messages

/-- The messages of a buffer that the kernel has filled are handed on one by one and in
their order, and each of them is read as it was written. -/
theorem processBuffer_encoded (env : Env) (s : Sys) (ms : List Message)
    (hfits : (encodeAll ms).length ≤ rtnlBuffsiz) (hwhole : ∀ m ∈ ms, Whole m) :
    ∃ fuel e, processBuffer env ⟨encodeAll ms, hfits⟩ fuel s = some e ∧ e.failed = false ∧
      rtnlRecvAll s (e.headers.map (messageAt env ⟨encodeAll ms, hfits⟩)) = (e.sys, false) ∧
      List.Forall₂ (Decodes ⟨encodeAll ms, hfits⟩) e.headers ms := by
  obtain ⟨e, he, hok, hrun, hall⟩ := @loop_encoded env ⟨encodeAll ms, hfits⟩ ms
    (encodeAll ms).length 0 s (holds_getD _) (Nat.zero_add _) hwhole (length_le_encodeAll ms)
  exact ⟨_, e, processBuffer_eq.trans he, hok, hrun, hall.imp fun _ _ h => h.2.2⟩

/-- A message of a link with an index and a name, and the end of a dump. -/
def linkDump : List Message :=
  [⟨16, 2, 7, 0, [0, 0, 1, 0, 2, 0, 0, 0, 0, 0, 0, 0, 0, 0, 0, 0],
    [⟨3, [101, 116, 104, 48, 0], by decide, by decide⟩], by decide, by decide⟩,
   ⟨3, 2, 7, 0, [0, 0, 0, 0], [], by decide, by decide⟩]

theorem processBuffer_encoded_dump :
    ∃ fuel e, processBuffer ⟨fun _ _ => none, fun _ => true⟩ ⟨encodeAll linkDump, by decide⟩ fuel
        (fresh blank 0) = some e ∧ e.failed = false ∧
      rtnlRecvAll (fresh blank 0) (e.headers.map
        (messageAt ⟨fun _ _ => none, fun _ => true⟩ ⟨encodeAll linkDump, by decide⟩)) =
          (e.sys, false) ∧
      List.Forall₂ (Decodes ⟨encodeAll linkDump, by decide⟩) e.headers linkDump :=
  processBuffer_encoded _ _ linkDump (by decide) (by
    intro m hm
    simp only [linkDump, List.mem_cons, List.not_mem_nil, or_false] at hm
    obtain rfl | rfl := hm
    · exact fun h => absurd h (by decide)
    · exact fun h => absurd h (by decide))

end Vppsb.RtnlEncoding
