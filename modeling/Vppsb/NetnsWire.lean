import Vppsb.NetnsObjects
import Vppsb.NetnsPayloads
import Vppsb.RouterObjects

namespace Vppsb.NetnsWire

open Vppsb.ByteImage Vppsb.StepRun Vppsb.NetnsEntry Vppsb.NetnsTables Vppsb.NetnsObjects
  Vppsb.NetnsPayloads Vppsb.RtnlStream Vppsb.RtnlBuffer Vppsb.RtnlEncoding
open Vppsb.NetnsUnique (IsRoute IsAddr)
open Vppsb.RouterObjects (Config Router receive start Mirrored Benign StepLegible)

/-- The highest types of attributes, as the headers of the kernel have them. -/
structure Headers where
  iflaMax : Nat
  rtaMax : Nat
  ifaMax : Nat
  ndaMax : Nat
  ifla : 10 ≤ iflaMax
  rta : rtaEncap ≤ rtaMax
  ifa : 6 ≤ ifaMax
  nda : 4 ≤ ndaMax

def isRoute (type : Nat) : Prop := type = rtmNewroute ∨ type = rtmDelroute
def isLink (type : Nat) : Prop := type = rtmNewlink ∨ type = rtmDellink
def isAddr (type : Nat) : Prop := type = rtmNewaddr ∨ type = rtmDeladdr

instance (type : Nat) : Decidable (isRoute type) := inferInstanceAs (Decidable (_ ∨ _))
instance (type : Nat) : Decidable (isLink type) := inferInstanceAs (Decidable (_ ∨ _))
instance (type : Nat) : Decidable (isAddr type) := inferInstanceAs (Decidable (_ ∨ _))

/-- The sizes of `rtmsg`, `ifinfomsg`, `ifaddrmsg` and `ndmsg`. -/
def headerSize (type : Nat) : Nat :=
  if isRoute type then 12 else if isLink type then 16 else if isAddr type then 8 else 12

def attrMax (h : Headers) (type : Nat) : Nat :=
  if isRoute type then h.rtaMax
  else if isLink type then h.iflaMax
  else if isAddr type then h.ifaMax
  else h.ndaMax

structure Filled where
  received : Received
  behind : Nat → UInt8

def Filled.mem (b : Filled) (i : Nat) : UInt8 := b.received.bytes.getD i (b.behind i)

/-- The message at an offset, as the function that gets it reads it. -/
def nlmsgAt (h : Headers) (b : Filled) (off : Nat) : Nlmsg :=
  let type := nlmsgType b.received off
  let n := headerSize type
  { nlmsgLen := nlmsgLen b.received off
    nlmsgType := type
    data := fun i => b.mem (off + sizeofNlmsghdr + i)
    parsed := parseRtattr (fun i => b.mem (off + sizeofNlmsghdr + (n + i))) (attrMax h type)
      (nlmsgLen b.received off - sizeofNlmsghdr - n) }

def attrOf (behind : Nat → UInt8) (a : Attr) : Rtattr :=
  ⟨4 + a.payload.length, fun i => a.payload.getD i (behind i)⟩

/-- The message that was sent, without its bytes. What `RTA_ENCAP` encapsulates is copied with
all the bytes of its field, so those behind the attribute belong to it. -/
def meaning (behind : Nat → UInt8) (m : Message) : Nlmsg :=
  { nlmsgLen := 16 + (body m).length
    nlmsgType := m.type
    data := fun i => m.family.getD i 0
    parsed := some fun t => (lastAttr m.attrs t).map (attrOf behind) }

/-- The kernel sends the header of the kind in front. -/
structure Sent (m : Message) : Prop where
  whole : Whole m
  family : isObject m.type = true → m.family.length = headerSize m.type

section Meaning

variable {h : Headers} {b : Filled} {off n : Nat} {m : Message} {behind : Nat → UInt8}

theorem rtaPayload_attrOf (a : Attr) : rtaPayload (attrOf behind a) = a.payload.length := by
  change sizeSub (4 + a.payload.length) 4 = _
  rw [sizeSub, if_neg (by omega)]
  omega

theorem payloadOf_attrOf (a : Attr) : payloadOf (attrOf behind a) = a.payload := by
  rw [payloadOf, rtaPayload_attrOf]
  refine List.ext_getElem (by simp) fun i hi hi' => ?_
  rw [List.getElem_map, List.getElem_range]
  exact List.getD_eq_getElem _ _ hi'

theorem attributes_meaning (hn : m.family.length = n) :
    attributes n (meaning behind m) = some fun t => (lastAttr m.attrs t).map (attrOf behind) := by
  have hlen : datalen (meaning behind m) = n + (encodeAttrs m.attrs).length := by
    change sizeSub (16 + (body m).length) 16 = _
    rw [sizeSub, if_neg (by omega), length_body]
    omega
  rw [attributes, hlen, if_neg (by omega)]
  split
  · rfl
  · have hle := length_le_encodeAttrs m.attrs
    have hnil : m.attrs = [] := List.length_eq_zero_iff.mp (by omega)
    rw [hnil]
    rfl

theorem holds_mem {bytes : List UInt8} (hb : HoldsAt b.received off bytes)
    (hfits : off + bytes.length ≤ b.received.bytes.length) : Holds b.mem off bytes := by
  intro i hi
  have hi' : off + i < b.received.bytes.length := by omega
  rw [Filled.mem, ← hb i hi, List.getD_eq_getElem _ _ hi']
  exact (List.getD_eq_getElem _ _ hi').symm

structure Placed (b : Filled) (off : Nat) (m : Message) : Prop where
  decodes : Decodes b.received off m
  holds : Holds b.mem off (encode m)
  fits : (encode m).length ≤ rtnlBuffsiz

theorem family_at (hp : Placed b off m) :
    Holds (fun i => b.mem (off + sizeofNlmsghdr + i)) 0 (body m) := by
  obtain ⟨-, h⟩ := holds_append.mp hp.holds
  obtain ⟨-, h⟩ := holds_append.mp h
  obtain ⟨-, h⟩ := holds_append.mp h
  obtain ⟨-, h⟩ := holds_append.mp h
  obtain ⟨-, h⟩ := holds_append.mp h
  exact (@holds_shift b.mem 0 _ (off + sizeofNlmsghdr)).mpr h

theorem attributes_at (hp : Placed b off m) (hn : m.family.length = headerSize m.type) :
    ∃ rtas, attributes (headerSize m.type) (nlmsgAt h b off) = some rtas ∧
      ∀ t, t ≤ attrMax h m.type → (rtas t).map payloadOf = (lastAttr m.attrs t).map Attr.payload := by
  have htype : nlmsgType b.received off = m.type := hp.decodes.type
  have hfits := hp.fits
  have hbody := length_body m
  have hsize := length_encode m
  have hlen : nlmsgLen b.received off = 16 + (body m).length := hp.decodes.len
  have hdata : datalen (nlmsgAt h b off) = headerSize m.type + (encodeAttrs m.attrs).length := by
    change sizeSub (nlmsgLen b.received off) 16 = _
    rw [hlen, sizeSub, if_neg (by omega)]
    omega
  rw [attributes, hdata, if_neg (by omega)]
  split
  · have hleft : nlmsgLen b.received off - sizeofNlmsghdr - headerSize m.type =
        (encodeAttrs m.attrs).length := by
      rw [hlen, sizeofNlmsghdr]
      omega
    have hattrs := (holds_append.mp (family_at hp)).2
    rw [Nat.zero_add, hn] at hattrs
    rw [rtnlBuffsiz] at hfits
    obtain ⟨rtas, hparse, hall⟩ := @parse_encoded _ (attrMax h m.type) _
      ((@holds_shift (fun i => b.mem (off + sizeofNlmsghdr + i)) 0 _ (headerSize m.type)).mpr hattrs)
      (by omega)
    refine ⟨rtas, ?_, hall⟩
    rw [nlmsgAt, htype]
    dsimp only
    rw [hleft]
    exact hparse
  · have hle := length_le_encodeAttrs m.attrs
    have hnil : m.attrs = [] := List.length_eq_zero_iff.mp (by omega)
    refine ⟨_, rfl, fun t _ => ?_⟩
    rw [hnil]
    rfl

theorem header_at (hp : Placed b off m) (hn : m.family.length = n) :
    header n (nlmsgAt h b off) = header n (meaning behind m) := by
  funext i
  have hi := (holds_append.mp (family_at hp)).1 i (hn ▸ i.isLt)
  rw [Nat.zero_add] at hi
  exact hi.trans (List.getD_eq_getElem _ _ _).symm

section

variable {φ : Type} {size : φ → Nat} {map : List (Mapping φ)} {rtas : Rtas}

def behindEncap (rtas : Rtas) (i : Nat) : UInt8 :=
  match rtas rtaEncap with
  | some r => r.data i
  | none => 0

theorem alike_attrOf {max : Nat} (hmax : ∀ x ∈ map, x.type ≤ max)
    (hall : ∀ t, t ≤ max → (rtas t).map payloadOf = (lastAttr m.attrs t).map Attr.payload) :
    Alike size map rtas fun t => (lastAttr m.attrs t).map (attrOf (behindEncap rtas)) := by
  have hsame : ∀ t, t ≤ max →
      Same (rtas t) ((lastAttr m.attrs t).map (attrOf (behindEncap rtas))) := by
    intro t ht
    rw [Same, hall t ht, Option.map_map]
    exact congrArg (fun f => Option.map f _) (funext fun a => (payloadOf_attrOf a).symm)
  refine ⟨fun x hx => hsame _ (hmax x hx), fun x hx ht r r' hr hr' i _ => ?_⟩
  obtain ⟨a, ha, rfl⟩ := Option.map_eq_some_iff.mp hr'
  obtain ⟨hno, -⟩ | ⟨r₁, r₂, h₁, h₂, hlen, hdata⟩ := same_cases (hsame _ (hmax x hx))
  · exact absurd (hr.symm.trans hno) (Option.some_ne_none r)
  · obtain rfl := Option.some.inj (hr.symm.trans h₁)
    obtain rfl := Option.some.inj (hr'.symm.trans h₂)
    rw [rtaPayload_attrOf] at hlen
    by_cases hi : i < a.payload.length
    · exact hdata i (hlen ▸ hi)
    · have hbehind : (attrOf (behindEncap rtas) a).data i = behindEncap rtas i :=
        List.getD_eq_default _ _ (Nat.not_lt.mp hi)
      rw [hbehind, behindEncap, ← ht, hr]

theorem reads_at {k : Nat} (hp : Placed b off m) (hn : m.family.length = headerSize m.type)
    {rtas : Rtas} (ha : attributes (headerSize m.type) (nlmsgAt h b off) = some rtas)
    (hall : ∀ t, t ≤ attrMax h m.type →
      (rtas t).map payloadOf = (lastAttr m.attrs t).map Attr.payload)
    (hk : ∀ x ∈ map, x.type ≤ k) (hmax : k ≤ attrMax h m.type) :
    Reads size map (headerSize m.type) (nlmsgAt h b off) (meaning (behindEncap rtas) m) :=
  ⟨hp.decodes.type, header_at hp hn, rtas, _, ha, attributes_meaning hn,
    alike_attrOf (fun x hx => Nat.le_trans (hk x hx) hmax) hall⟩

end

theorem kinds_apart (type : Nat) : (isLink type → ¬ isRoute type) ∧
    (isAddr type → ¬ isRoute type ∧ ¬ isLink type) ∧
    (type = rtmNewneigh ∨ type = rtmDelneigh → ¬ isRoute type ∧ ¬ isLink type ∧ ¬ isAddr type) := by
  simp only [isRoute, isLink, isAddr, rtmNewroute, rtmDelroute, rtmNewlink, rtmDellink, rtmNewaddr,
    rtmDeladdr, rtmNewneigh, rtmDelneigh]
  omega

/-- A message that was sent is received as what it means. -/
theorem recv_meaning (hp : Placed b off m) (hs : Sent m) (ho : isObject m.type = true) :
    ∃ behind, ∀ ns, nsRecvRtnl ns (nlmsgAt h b off) = nsRecvRtnl ns (meaning behind m) := by
  have hn := hs.family ho
  have htype : nlmsgType b.received off = m.type := hp.decodes.type
  obtain ⟨dl, da, dn⟩ := kinds_apart m.type
  obtain ⟨rtas, ha, hall⟩ := @attributes_at h b off m hp hn
  refine ⟨behindEncap rtas, fun ns => ?_⟩
  refine recv_congr ns ⟨fun hr => ?_, fun hl => ?_, fun hd => ?_, fun hg => ?_, htype⟩
  · have hr : isRoute m.type := htype ▸ hr
    have hsize : headerSize m.type = 12 := if_pos hr
    have hmax : attrMax h m.type = h.rtaMax := if_pos hr
    rw [← hsize]
    exact reads_at hp hn ha hall (k := 22) (by decide) (hmax ▸ h.rta)
  · have hl : isLink m.type := htype ▸ hl
    have hsize : headerSize m.type = 16 := by rw [headerSize, if_neg (dl hl), if_pos hl]
    have hmax : attrMax h m.type = h.iflaMax := by rw [attrMax, if_neg (dl hl), if_pos hl]
    rw [← hsize]
    exact reads_at hp hn ha hall (k := 10) (by decide) (hmax ▸ h.ifla)
  · have hd : isAddr m.type := htype ▸ hd
    obtain ⟨hr, hl⟩ := da hd
    have hsize : headerSize m.type = 8 := by
      rw [headerSize, if_neg hr, if_neg hl, if_pos hd]
    have hmax : attrMax h m.type = h.ifaMax := by
      rw [attrMax, if_neg hr, if_neg hl, if_pos hd]
    rw [← hsize]
    exact reads_at hp hn ha hall (k := 6) (by decide) (hmax ▸ h.ifa)
  · obtain ⟨hr, hl, hd⟩ : ¬ isRoute m.type ∧ ¬ isLink m.type ∧ ¬ isAddr m.type :=
      dn (htype ▸ hg)
    have hsize : headerSize m.type = 12 := by
      rw [headerSize, if_neg hr, if_neg hl, if_neg hd]
    have hmax : attrMax h m.type = h.ndaMax := by
      rw [attrMax, if_neg hr, if_neg hl, if_neg hd]
    rw [← hsize]
    exact reads_at hp hn ha hall (k := 4) (by decide) (hmax ▸ h.nda)

end Meaning

/-- A stream, and the namespace and the plugin behind its callback. -/
structure Daemon where
  sys : Sys
  router : Router

def recvMessage (h : Headers) (c : Config) (b : Filled) (r : Router) (off : Nat) : Option Router :=
  if isObject (nlmsgType b.received off) then receive c r (nlmsgAt h b off) else some r

def nsRecv (h : Headers) (c : Config) (env : Env) (b : Filled) (off : Nat) (d : Daemon) :
    Option (Daemon × Int) :=
  let r := rtnlNsRecv d.sys (messageAt env b.received off)
  (recvMessage h c b d.router off).map fun router => (⟨r.1, router⟩, r.2)

/-- The message loop of `rtnl_process_read`, with the callbacks. The result tells whether the
function returns `-1`. -/
def readLoop (h : Headers) (c : Config) (env : Env) (b : Filled) :
    Nat → Nat → Int → Daemon → Option (Daemon × Bool)
  | 0, _, len, d => if len ≤ 0 then some (d, false) else none
  | fuel + 1, off, len, d =>
    if len ≤ 0 then some (d, false)
    else if sizeofNlmsghdr > len.toNat ∨ nlmsgLen b.received off > len.toNat then some (d, true)
    else
      (nsRecv h c env b off d).bind fun r =>
        if r.2 ≠ 0 then some (r.1, true)
        else
          let aligned := nlmsgAlign (nlmsgLen b.received off)
          readLoop h c env b fuel (off + aligned) (len - aligned) r.1

/-- `rtnl_process_read`. The buffers are those that `recv` fills before it fails. -/
def processRead (h : Headers) (c : Config) (fuel : Nat) :
    List (Env × Filled) → Daemon → Option Daemon
  | [], d => some { d with sys := emit d.sys (.recv d.sys.ns.rtnlSocket) }
  | (env, b) :: rest, d =>
    (readLoop h c env b fuel 0 b.received.bytes.length
      { d with sys := emit d.sys (.recv d.sys.ns.rtnlSocket) }).bind fun r =>
        if r.2 then some r.1 else processRead h c fuel rest r.1

/-- What the kernel puts into one buffer, the memory behind it, and which dump requests can be
sent. -/
structure Frame where
  msgs : List Message
  behind : Nat → UInt8
  ok : Nat → Bool
  fits : (encodeAll msgs).length ≤ rtnlBuffsiz
  sent : ∀ m ∈ msgs, Sent m

def Frame.env (f : Frame) : Env := ⟨fun _ _ => none, f.ok⟩

def Frame.filled (f : Frame) : Filled := ⟨⟨encodeAll f.msgs, f.fits⟩, f.behind⟩

def Frame.arrival (f : Frame) : Env × Filled := (f.env, f.filled)

def objects (ms : List Message) : List Message := ms.filter fun m => isObject m.type

/-- Messages that are received, each with some memory behind its attributes. -/
def Heard (ms : List Message) (ns : List Nlmsg) : Prop :=
  List.Forall₂ (fun m n => ∃ behind, n = meaning behind m) ms ns

section Loop

variable {h : Headers} {c : Config} {env : Env} {b : Filled} {m : Message} {ms : List Message}

/-- The callbacks do not disturb the loop. -/
theorem readLoop_eq (fuel off : Nat) (len : Int) (s : Sys) (r : Router) :
    readLoop h c env b fuel off len ⟨s, r⟩ =
      (messageLoop env b.received fuel off len s).bind fun e =>
        (run (recvMessage h c b) r e.headers).map fun r => (⟨e.sys, r⟩, e.failed) := by
  induction fuel generalizing off len s r with
  | zero =>
    rw [readLoop, messageLoop]
    split <;> rfl
  | succ fuel ih =>
    rw [readLoop, messageLoop]
    split
    · rfl
    · split
      · rfl
      · dsimp only [nsRecv]
        cases hr : recvMessage h c b r off with
        | none =>
          split
          · simp [run, hr]
          · cases messageLoop env b.received fuel (off + nlmsgAlign (nlmsgLen b.received off))
              (len - nlmsgAlign (nlmsgLen b.received off)) _ with
            | none => rfl
            | some e => simp [run, hr]
        | some r' =>
          dsimp only [Option.map_some, Option.bind_some]
          split
          · simp [run, hr]
          · rw [ih, Option.bind_map]
            congr 1
            funext e
            simp [run, hr]

theorem objects_cons_of_object (ho : isObject m.type = true) :
    objects (m :: ms) = m :: objects ms := by
  rw [objects, List.filter_cons, if_pos ho]
  rfl

theorem objects_cons_of_other (ho : isObject m.type = false) : objects (m :: ms) = objects ms := by
  rw [objects, List.filter_cons, ho]
  rfl

/-- The callbacks are called for what the messages mean. -/
theorem run_recvMessage {offs : List Nat} (hp : List.Forall₂ (Placed b) offs ms)
    (hs : ∀ m ∈ ms, Sent m) : ∃ ns, Heard (objects ms) ns ∧
      ∀ r, run (recvMessage h c b) r offs = run (receive c) r ns := by
  induction hp with
  | nil => exact ⟨[], .nil, fun _ => rfl⟩
  | @cons off m offs ms hm _ ih =>
    obtain ⟨ns, hheard, hrun⟩ := ih fun x hx => hs x (List.mem_cons_of_mem m hx)
    have htype : nlmsgType b.received off = m.type := hm.decodes.type
    cases ho : isObject m.type with
    | false =>
      refine ⟨ns, (objects_cons_of_other ho).symm ▸ hheard, fun r => ?_⟩
      rw [run_cons, recvMessage, htype, if_neg (ho ▸ Bool.false_ne_true)]
      exact hrun r
    | true =>
      obtain ⟨behind, hrecv⟩ := @recv_meaning h b off m hm (hs m List.mem_cons_self) ho
      refine ⟨meaning behind m :: ns, ?_, fun r => ?_⟩
      · rw [objects_cons_of_object ho]
        exact .cons ⟨behind, rfl⟩ hheard
      · have hstep : recvMessage h c b r off = receive c r (meaning behind m) := by
          rw [recvMessage, htype, if_pos ho, receive, receive, hrecv]
        rw [run_cons, run_cons, hstep]
        exact congrArg _ (funext hrun)

theorem placed_of_read {off : Nat} (h : HoldsAt b.received off (encode m))
    (hin : Inside b.received off) (hdec : Decodes b.received off m) : Placed b off m := by
  have hlen : (encode m).length = nlmsgLen b.received off := (length_encode m).trans hdec.len.symm
  have hfits := b.received.fits
  have hend := hin.2
  exact ⟨hdec, holds_mem h (by omega), by omega⟩

theorem readLoop_frame {fuel : Nat} (hfuel : rtnlBuffsiz ≤ fuel) (f : Frame) (s : Sys) :
    ∃ ns sys, Heard (objects f.msgs) ns ∧ ∀ r,
      readLoop h c f.env f.filled fuel 0 f.filled.received.bytes.length ⟨s, r⟩ =
        (run (receive c) r ns).map fun r => (⟨sys, r⟩, false) := by
  have hcount : f.msgs.length ≤ fuel :=
    Nat.le_trans (length_le_encodeAll f.msgs) (Nat.le_trans f.fits hfuel)
  obtain ⟨e, he, hok, -, hall⟩ := @loop_encoded f.env f.filled.received f.msgs fuel 0 s
    (holds_getD _) (Nat.zero_add _) (fun m hm => (f.sent m hm).whole) hcount
  have hloop : messageLoop f.env f.filled.received fuel 0 f.filled.received.bytes.length s =
      some e := processBuffer_eq.trans he
  have hplaced : List.Forall₂ (Placed f.filled) e.headers f.msgs :=
    hall.imp fun off m hm => placed_of_read hm.1 hm.2.1 hm.2.2
  obtain ⟨ns, hheard, hrun⟩ := @run_recvMessage h c f.filled f.msgs e.headers hplaced f.sent
  refine ⟨ns, e.sys, hheard, fun r => ?_⟩
  rw [readLoop_eq, hloop, Option.bind_some, hrun, hok]

theorem processRead_frames {fuel : Nat} (hfuel : rtnlBuffsiz ≤ fuel) (frames : List Frame)
    (s : Sys) : ∃ ns sys, Heard (objects (frames.flatMap Frame.msgs)) ns ∧ ∀ r,
      processRead h c fuel (frames.map Frame.arrival) ⟨s, r⟩ =
        (run (receive c) r ns).map fun r => ⟨sys, r⟩ := by
  induction frames generalizing s with
  | nil => exact ⟨[], emit s (.recv s.ns.rtnlSocket), .nil, fun _ => rfl⟩
  | cons f frames ih =>
    obtain ⟨ns, sys, hheard, hloop⟩ := @readLoop_frame h c fuel hfuel f
      (emit s (.recv s.ns.rtnlSocket))
    obtain ⟨ns', sys', hheard', hrest⟩ := ih sys
    refine ⟨ns ++ ns', sys', ?_, fun r => ?_⟩
    · rw [List.flatMap_cons, objects, List.filter_append]
      exact List.rel_append hheard hheard'
    · rw [run_append, List.map_cons, Frame.arrival, processRead, hloop]
      cases run (receive c) r ns with
      | none => rfl
      | some r' => exact hrest r'

end Loop

section Objects

variable (m : Message)

def familyByte (i : Nat) : UInt8 := m.family.getD i 0

def spoken (k t : Nat) : List UInt8 :=
  List.ofFn fun i : Fin k => ((lastAttr m.attrs t).map fun a => a.payload.getD i 0).getD 0

def addrSpoken : AddrObject :=
  ⟨familyByte m 0, familyByte m 1,
    [familyByte m 4, familyByte m 5, familyByte m 6, familyByte m 7], spoken m 16 1, spoken m 16 2⟩

/-- A route in a table below 256 may name it in its header. -/
def routeSpoken : RouteObject :=
  ⟨familyByte m 0, familyByte m 1, familyByte m 3,
    if spoken m 4 15 = List.replicate 4 0 then [familyByte m 4, 0, 0, 0] else spoken m 4 15,
    spoken m 16 1, spoken m 4 6, spoken m 16 5, spoken m 16 18, spoken m 4 4⟩

variable {m} {behind : Nat → UInt8}

theorem value_attrOf (k t : Nat) :
    value k ((lastAttr m.attrs t).map (attrOf behind)) = spoken m k t := by
  apply congrArg List.ofFn
  funext i
  cases lastAttr m.attrs t with
  | none => rfl
  | some a =>
    change (if (i : Nat) < rtaPayload (attrOf behind a) then a.payload.getD i (behind i) else 0) =
      a.payload.getD i 0
    rw [rtaPayload_attrOf]
    split
    · rw [List.getD_eq_getElem _ _ (by assumption), List.getD_eq_getElem _ _ (by assumption)]
    · exact (List.getD_eq_default _ _ (by omega)).symm

theorem addrMessageObject_meaning : addrMessageObject (meaning behind m)
    (fun t => (lastAttr m.attrs t).map (attrOf behind)) = addrSpoken m := by
  rw [addrMessageObject, value_attrOf, value_attrOf]
  rfl

theorem routeMessageObject_meaning : routeMessageObject (meaning behind m)
    (fun t => (lastAttr m.attrs t).map (attrOf behind)) = routeSpoken m := by
  have htable : List.ofFn
      (fun i : Fin 4 => zeroExtended ((lastAttr m.attrs 15).map (attrOf behind)) i) =
      spoken m 4 15 := value_attrOf 4 15
  have hzero : (∀ i : Fin 4, zeroExtended ((lastAttr m.attrs 15).map (attrOf behind)) i = 0) ↔
      spoken m 4 15 = List.replicate 4 0 := by
    rw [List.eq_replicate_iff, ← htable, List.forall_mem_ofFn_iff, List.length_ofFn]
    exact (and_iff_right rfl).symm
  rw [routeMessageObject, tableId, value_attrOf, value_attrOf, value_attrOf, value_attrOf,
    value_attrOf, htable]
  simp only [hzero]
  rfl

end Objects

def sayAddr (S : Set AddrObject) (m : Message) : Set AddrObject :=
  if m.type = rtmNewaddr then insert (addrSpoken m) S
  else if m.type = rtmDeladdr then S \ {addrSpoken m}
  else S

def sayRoute (S : Set RouteObject) (m : Message) : Set RouteObject :=
  if m.type = rtmNewroute then insert (routeSpoken m) S
  else if m.type = rtmDelroute then S \ {routeSpoken m}
  else S

section Announced

variable {m : Message}

theorem announceAddr_meaning (hs : Sent m) (ho : isObject m.type = true) (behind : Nat → UInt8)
    (S : Set AddrObject) : announceAddr S (meaning behind m) = sayAddr S m := by
  by_cases ha : isAddr m.type
  · obtain ⟨hr, hl⟩ := (kinds_apart m.type).2.1 ha
    have hsize : headerSize m.type = 8 := by rw [headerSize, if_neg hr, if_neg hl, if_pos ha]
    have hn := @attributes_meaning 8 m behind ((hs.family ho).trans hsize)
    have hkind : IsAddr (meaning behind m) := ha
    have hann : announceAddr S (meaning behind m) =
        announce (decide (m.type = rtmDeladdr)) (addrSpoken m) S := by
      rw [announceAddr, if_pos hkind, hn]
      dsimp only
      rw [addrMessageObject_meaning]
      rfl
    rw [hann, sayAddr]
    obtain hnew | hdel := ha
    · rw [if_pos hnew, hnew]
      rfl
    · rw [hdel]
      rfl
  · have hkind : ¬ IsAddr (meaning behind m) := ha
    have hno := not_or.mp ha
    rw [announceAddr, if_neg hkind, sayAddr, if_neg hno.1, if_neg hno.2]

theorem announceRoute_meaning (hs : Sent m) (ho : isObject m.type = true) (behind : Nat → UInt8)
    (S : Set RouteObject) : announceRoute S (meaning behind m) = sayRoute S m := by
  by_cases hr : isRoute m.type
  · have hn := @attributes_meaning 12 m behind ((hs.family ho).trans (if_pos hr))
    have hkind : IsRoute (meaning behind m) := hr
    have hann : announceRoute S (meaning behind m) =
        announce (decide (m.type = rtmDelroute)) (routeSpoken m) S := by
      rw [announceRoute, if_pos hkind, hn]
      dsimp only
      rw [routeMessageObject_meaning]
      rfl
    rw [hann, sayRoute]
    obtain hnew | hdel := hr
    · rw [if_pos hnew, hnew]
      rfl
    · rw [hdel]
      rfl
  · have hkind : ¬ IsRoute (meaning behind m) := hr
    have hno := not_or.mp hr
    rw [announceRoute, if_neg hkind, sayRoute, if_neg hno.1, if_neg hno.2]

theorem kinds_of_other {type : Nat} (ho : isObject type = false) :
    (type ≠ rtmNewaddr ∧ type ≠ rtmDeladdr) ∧ type ≠ rtmNewroute ∧ type ≠ rtmDelroute := by
  refine ⟨⟨?_, ?_⟩, ?_, ?_⟩ <;> rintro rfl <;> exact Bool.noConfusion ho

theorem foldl_announce {ms : List Message} (hs : ∀ m ∈ ms, Sent m) {ns : List Nlmsg}
    (hheard : Heard (objects ms) ns) (A : Set AddrObject) (R : Set RouteObject) :
    ns.foldl announceAddr A = ms.foldl sayAddr A ∧
      ns.foldl announceRoute R = ms.foldl sayRoute R := by
  induction ms generalizing ns A R with
  | nil =>
    obtain rfl := List.forall₂_nil_left_iff.mp hheard
    exact ⟨rfl, rfl⟩
  | cons m ms ih =>
    have ih := fun ns hns A R => @ih (fun x hx => hs x (List.mem_cons_of_mem m hx)) ns hns A R
    have hm := hs m List.mem_cons_self
    cases ho : isObject m.type with
    | true =>
      rw [objects_cons_of_object ho] at hheard
      obtain ⟨n, ns, ⟨behind, rfl⟩, hrest, rfl⟩ := List.forall₂_cons_left_iff.mp hheard
      simp only [List.foldl_cons, announceAddr_meaning hm ho, announceRoute_meaning hm ho]
      exact ih ns hrest _ _
    | false =>
      obtain ⟨⟨ha, ha'⟩, hr, hr'⟩ := kinds_of_other ho
      have hA : sayAddr A m = A := by rw [sayAddr, if_neg ha, if_neg ha']
      have hR : sayRoute R m = R := by rw [sayRoute, if_neg hr, if_neg hr']
      rw [objects_cons_of_other ho] at hheard
      rw [List.foldl_cons, List.foldl_cons, hA, hR]
      exact ih ns hheard A R

end Announced

section Run

variable {h : Headers} {c : Config} {fuel : Nat}

theorem receive_ns (r : Router) (m : Nlmsg) (t : Router) (ht : receive c r m = some t) :
    NetnsUnique.receive r.ns m = some t.ns := by
  rw [receive] at ht
  split at ht
  · obtain rfl := Option.some.inj ht
    rfl
  · obtain ⟨vpp, -, rfl⟩ := Option.map_eq_some_iff.mp ht
    rfl

end Run

def linuxHeaders : Headers := ⟨62, 30, 11, 15, by decide, by decide, by decide, by decide⟩

def sentRoute : Message :=
  ⟨rtmNewroute, 0, 0, 0, [2, 8, 0, 0, 254, 4, 0, 1, 0, 0, 0, 0],
    [⟨1, [10, 0, 0, 0], by decide, by decide⟩, ⟨4, [3, 0, 0, 0], by decide, by decide⟩,
      ⟨22, [8, 0, 1, 0, 0, 6, 65, 0], by decide, by decide⟩],
    by decide, by decide⟩

theorem sent_sentRoute : Sent sentRoute := ⟨fun h => absurd h (by decide), fun _ => rfl⟩

def routeFrame : Frame :=
  ⟨[sentRoute], fun _ => 255, fun _ => true, by decide,
    fun _ hm => List.mem_singleton.mp hm ▸ sent_sentRoute⟩

section Sample

variable (behind : Nat → UInt8)

def storedRoute : Route := (nsRecvRtnl emptyNetns (meaning behind sentRoute)).1.routes.elt 0

theorem family_storedRoute : byteAt (storedRoute behind).hdr 0 = FibPaths.afInet := rfl

theorem entries_storedRoute : RouterObjects.encapEntries (storedRoute behind) =
    409856 :: MplsLabels.words (RouterObjects.bytes ((storedRoute behind).get .encap)) 1 6 := by
  have h0 : RouterObjects.bytes ((storedRoute behind).get .encap) 0 = 0 := rfl
  have h1 : RouterObjects.bytes ((storedRoute behind).get .encap) 1 = 6 := rfl
  have h2 : RouterObjects.bytes ((storedRoute behind).get .encap) 2 = 65 := rfl
  have h3 : RouterObjects.bytes ((storedRoute behind).get .encap) 3 = 0 := rfl
  rw [RouterObjects.encapEntries, RouterObjects.mplsStackDepth, MplsLabels.words_succ,
    MplsLabels.mplsEntry, h0, h1, h2, h3]
  rfl

theorem legible_storedRoute : RouterObjects.Legible (storedRoute behind) := by
  refine ⟨fun _ => .inr ?_, fun h => ?_, fun h => ?_⟩
  · rw [entries_storedRoute]
    exact (MplsLabels.terminated_cons (by decide)).mpr (.inl (by decide))
  · exact absurd ((family_storedRoute behind).symm.trans h) (by decide)
  · exact absurd ((family_storedRoute behind).symm.trans h) (by decide)

theorem path_storedRoute : RouterObjects.pathOf RouterObjects.oneTap (storedRoute behind) =
    some ⟨.ip4, 8, [10, 0, 0, 0], 0, [0, 0, 0, 0], 7, [100]⟩ := by
  have hpushed : RouterObjects.pushed (storedRoute behind) = [100] := by
    rw [RouterObjects.pushed, entries_storedRoute,
      if_neg fun h => absurd (h _ List.mem_cons_self) (by decide)]
    rfl
  have hbytes : List.ofFn ((storedRoute behind).get .oif) = [3, 0, 0, 0] := rfl
  have hoif : FibPaths.oif (storedRoute behind) = 3 := by
    rw [FibPaths.oif, List.ofFn_injective (hbytes.trans (List.ofFn_get _).symm)]
    decide
  rw [RouterObjects.pathOf, hoif, family_storedRoute, hpushed]
  rfl

end Sample

end Vppsb.NetnsWire
