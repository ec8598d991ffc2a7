import Vppsb.NetnsUnique
import Vppsb.RtnlEncoding

namespace Vppsb.NetnsPayloads

open Vppsb.PoolStore Vppsb.NetnsEntry Vppsb.NetnsTables Vppsb.NetnsUnique Vppsb.RtnlEncoding

variable {φ : Type} [DecidableEq φ] {size : φ → Nat} {n : Nat} {r r' : Option Rtattr}
  {rtas rtas' : Rtas} {map : List (Mapping φ)}

def Same (r r' : Option Rtattr) : Prop := r.map payloadOf = r'.map payloadOf

/-- Two readings of the attributes that a table cannot tell apart. A nested attribute is
copied as far as its field goes, so they agree on what is behind it as well. -/
structure Alike (size : φ → Nat) (map : List (Mapping φ)) (rtas rtas' : Rtas) : Prop where
  same : ∀ m ∈ map, Same (rtas m.type) (rtas' m.type)
  nested : ∀ m ∈ map, m.type = rtaEncap → ∀ a b, rtas m.type = some a → rtas' m.type = some b →
    ∀ i < 4 + size m.field, a.data i = b.data i

theorem payloadOf_eq_iff (a b : Rtattr) : payloadOf a = payloadOf b ↔
    rtaPayload a = rtaPayload b ∧ ∀ i < rtaPayload a, a.data i = b.data i := by
  constructor
  · intro h
    have hlen : rtaPayload a = rtaPayload b := by simpa [payloadOf] using congrArg List.length h
    refine ⟨hlen, fun i hi => ?_⟩
    have hget := congrArg (fun l : List UInt8 => l[i]?) h
    simpa [payloadOf, hi, hlen ▸ hi] using hget
  · rintro ⟨hlen, hdata⟩
    rw [payloadOf, payloadOf, ← hlen]
    exact List.map_congr_left fun i hi => hdata i (List.mem_range.mp hi)

theorem same_cases (h : Same r r') : (r = none ∧ r' = none) ∨
    ∃ a b, r = some a ∧ r' = some b ∧ rtaPayload a = rtaPayload b ∧
      ∀ i < rtaPayload a, a.data i = b.data i := by
  cases r with
  | none => exact .inl ⟨rfl, Option.map_eq_none_iff.mp h.symm⟩
  | some a =>
    cases r' with
    | none => exact absurd h (Option.some_ne_none _)
    | some b => exact .inr ⟨a, b, rfl, rfl, (payloadOf_eq_iff a b).mp (Option.some.inj h)⟩

theorem Same.payloadLen (h : Same r r') : payloadLen r = payloadLen r' := by
  obtain ⟨rfl, rfl⟩ | ⟨a, b, rfl, rfl, hlen, -⟩ := same_cases h
  · rfl
  · exact hlen

theorem Same.zeroExtended (h : Same r r') : zeroExtended r = zeroExtended r' := by
  obtain ⟨rfl, rfl⟩ | ⟨a, b, rfl, rfl, hlen, hdata⟩ := same_cases h
  · rfl
  · funext i
    simp only [NetnsEntry.zeroExtended, ← hlen]
    split
    · exact hdata i (by assumption)
    · rfl

theorem Same.payloadDiffers (h : Same r r') {k : Nat} (b : Fin k → UInt8) :
    payloadDiffers r b = payloadDiffers r' b := by
  obtain ⟨rfl, rfl⟩ | ⟨a, a', rfl, rfl, hlen, hdata⟩ := same_cases h
  · rfl
  · have hiff : (∀ i : Fin k, i < rtaPayload a → a.data i = b i) ↔
        ∀ i : Fin k, i < rtaPayload a' → a'.data i = b i := by
      rw [← hlen]
      exact forall_congr' fun i => forall_congr' fun hi => by rw [hdata i hi]
    exact congrArg (fun p => !p) (decide_eq_decide.mpr hiff)

omit [DecidableEq φ] in
theorem match_congr (e : Entry n size) (h : ∀ m ∈ map, Same (rtas m.type) (rtas' m.type)) :
    rtnlEntryMatch e rtas map = rtnlEntryMatch e rtas' map := by
  induction map with
  | nil => rfl
  | cons m map ih =>
    have hm := h m List.mem_cons_self
    have ih := ih fun x hx => h x (List.mem_cons_of_mem m hx)
    have hlen := hm.payloadLen
    have hrest : restDiffers (rtas m.type) (e.get m.field) =
        restDiffers (rtas' m.type) (e.get m.field) := by rw [restDiffers, restDiffers, hlen]
    rw [rtnlEntryMatch, rtnlEntryMatch, hlen, hm.payloadDiffers, hrest, ih]

theorem nested_congr {a b : Rtattr} {k : Nat} (h : ∀ i < 4 + k, a.data i = b.data i) :
    rtaPayload (nested a) = rtaPayload (nested b) ∧
      ∀ i < k, (nested a).data i = (nested b).data i := by
  constructor
  · simp only [rtaPayload, nested]
    rw [h 0 (by omega), h 1 (by omega)]
  · exact fun i hi => h (4 + i) (by omega)

omit [DecidableEq φ] in
theorem Alike.tail {m : Mapping φ} (h : Alike size (m :: map) rtas rtas') :
    Alike size map rtas rtas' :=
  ⟨fun x hx => h.same x (List.mem_cons_of_mem m hx),
    fun x hx => h.nested x (List.mem_cons_of_mem m hx)⟩

theorem set_congr (init : Bool) (e : Entry n size) (h : Alike size map rtas rtas') :
    rtnlEntrySet rtas init map e = rtnlEntrySet rtas' init map e := by
  induction map generalizing e with
  | nil => rfl
  | cons m map ih =>
    have ih := fun e => ih e h.tail
    have hm := h.same m List.mem_cons_self
    rw [rtnlEntrySet, rtnlEntrySet]
    obtain ⟨hr, hr'⟩ | ⟨a, b, hr, hr', hlen, hdata⟩ := same_cases hm
    · rw [hr, hr']
      exact ih _
    · have hz : zeroExtended (some a) = zeroExtended (some b) := by
        rw [← hr, ← hr']
        exact hm.zeroExtended
      have hnested := h.nested m List.mem_cons_self
      rw [hr, hr']
      dsimp only
      by_cases hencap : m.type = rtaEncap
      · obtain ⟨hlen', hcopy⟩ := nested_congr (hnested hencap a b hr hr')
        have hfield : (fun i : Fin (size m.field) => (nested a).data i) =
            fun i : Fin (size m.field) => (nested b).data i := funext fun i => hcopy i i.isLt
        rw [if_pos hencap, if_pos hencap, hlen', hfield, ih]
      · rw [if_neg hencap, if_neg hencap, hlen, hz, ih]

omit [DecidableEq φ] in
theorem get_congr {mask : List UInt8} (table : Pool (Entry n size)) (hdr : Fin n → UInt8)
    (h : ∀ m ∈ map, Same (rtas m.type) (rtas' m.type)) :
    nsGet mask map table hdr rtas = nsGet mask map table hdr rtas' := by
  have haccepts : ∀ e : Entry n size,
      accepts mask map hdr rtas e = accepts mask map hdr rtas' e := by
    intro e
    rw [accepts, accepts, match_congr e h]
  rw [nsGet, nsGet, funext haccepts]

structure Reads (size : φ → Nat) (map : List (Mapping φ)) (n : Nat) (m m' : Nlmsg) : Prop where
  type : m.nlmsgType = m'.nlmsgType
  header : header n m = header n m'
  attributes : ∃ rtas rtas', attributes n m = some rtas ∧ attributes n m' = some rtas' ∧
    Alike size map rtas rtas'

section

variable {find : Pool (Entry n size) → (Fin n → UInt8) → Rtas → Option Nat} {clear : Bool}
  {delType : Nat} {p : Pool (Entry n size)} {m m' : Nlmsg}

theorem nsRcv_congr (h : Reads size map n m m')
    (hfind : ∀ hdr rtas rtas', Alike size map rtas rtas' → find p hdr rtas = find p hdr rtas') :
    nsRcv find map clear delType p m = nsRcv find map clear delType p m' := by
  obtain ⟨rtas, rtas', ha, ha', halike⟩ := h.attributes
  have hset : ∀ init (e : Entry n size),
      rtnlEntrySet rtas init map e = rtnlEntrySet rtas' init map e :=
    fun init e => set_congr init e halike
  rw [nsRcv, nsRcv, ha, ha']
  simp only [h.type, h.header, hfind _ _ _ halike, hset]

end

/-- An object as it is read from a message: the header and the attributes of its kind. -/
structure Heard (m m' : Nlmsg) : Prop where
  route : IsRoute m → Reads RouteField.size nsRoutemap 12 m m'
  link : IsLink m → Reads LinkField.size nsIfmap 16 m m'
  addr : IsAddr m → Reads AddrField.size nsAddrmap 8 m m'
  neigh : IsNeigh m → Reads NeighField.size nsNeighmap 12 m m'
  type : m.nlmsgType = m'.nlmsgType

/-- Nothing but the header and the payloads of the attributes matters. -/
theorem recv_congr (ns : Netns) {m m' : Nlmsg} (h : Heard m m') :
    nsRecvRtnl ns m = nsRecvRtnl ns m' := by
  by_cases hr : IsRoute m
  · have hrcv : nsRcvRoute ns.routes m = nsRcvRoute ns.routes m' :=
      nsRcv_congr (h.route hr) fun _ _ _ ha => get_congr _ _ ha.same
    have hr' : IsRoute m' := by rwa [IsRoute, ← h.type]
    rw [recv_route ns hr, recv_route ns hr', hrcv]
  by_cases hl : IsLink m
  · have hrcv : nsRcvLink ns.links m = nsRcvLink ns.links m' :=
      nsRcv_congr (h.link hl) fun _ _ _ _ => rfl
    have hl' : IsLink m' := by rwa [IsLink, ← h.type]
    rw [recv_link ns hl, recv_link ns hl', hrcv]
  by_cases ha : IsAddr m
  · have hrcv : nsRcvAddr ns.addresses m = nsRcvAddr ns.addresses m' :=
      nsRcv_congr (h.addr ha) fun _ _ _ ha => get_congr _ _ ha.same
    have ha' : IsAddr m' := by rwa [IsAddr, ← h.type]
    rw [recv_addr ns ha, recv_addr ns ha', hrcv]
  by_cases hn : IsNeigh m
  · have hrcv : nsRcvNeigh ns.neighbors m = nsRcvNeigh ns.neighbors m' :=
      nsRcv_congr (h.neigh hn) fun _ _ _ ha => get_congr _ _ ha.same
    have hn' : IsNeigh m' := by rwa [IsNeigh, ← h.type]
    rw [recv_neigh ns hn, recv_neigh ns hn', hrcv]
  · have hno : ¬ IsRoute m' ∧ ¬ IsLink m' ∧ ¬ IsAddr m' ∧ ¬ IsNeigh m' := by
      rw [IsRoute, IsLink, IsAddr, IsNeigh, ← h.type]
      exact ⟨hr, hl, ha, hn⟩
    rw [recv_other ns ⟨hr, hl, ha, hn⟩, recv_other ns hno]

end Vppsb.NetnsPayloads
