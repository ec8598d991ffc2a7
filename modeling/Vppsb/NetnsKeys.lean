import Vppsb.NetnsReceive
import Vppsb.StepRun
import Mathlib.Data.List.OfFn

namespace Vppsb.NetnsKeys

open Vppsb.StepRun Vppsb.PoolStore Vppsb.KeyedPool Vppsb.NetnsEntry Vppsb.NetnsTables
  Vppsb.NetnsReceive

section

variable {φ : Type} [DecidableEq φ] {size : φ → Nat} {n : Nat}

/-- What identifies an object: the masked bytes of its header, and its unique
attributes, zero extended. -/
structure Key where
  header : List UInt8
  attributes : List (List UInt8)
deriving DecidableEq

def maskedHeader (mask : List UInt8) (hdr : Fin n → UInt8) : List UInt8 :=
  (List.range mask.length).map (fun i => byteAt hdr i &&& mask.getD i 0)

def entryKey (mask : List UInt8) (map : List (Mapping φ)) (e : Entry n size) : Key :=
  ⟨maskedHeader mask e.hdr,
    (map.filter Mapping.unique).map (fun m => List.ofFn (e.get m.field))⟩

def messageKey (size : φ → Nat) (mask : List UInt8) (map : List (Mapping φ)) (hdr : Fin n → UInt8)
    (rtas : Rtas) : Key :=
  ⟨maskedHeader mask hdr, (map.filter Mapping.unique).map
    (fun m => List.ofFn (fun i : Fin (size m.field) => zeroExtended (rtas m.type) i))⟩

variable {mask : List UInt8} {map : List (Mapping φ)} {hdr : Fin n → UInt8} {rtas : Rtas}
  {e : Entry n size}

omit [DecidableEq φ] in
theorem entryKey_eq_iff :
    entryKey mask map e = messageKey size mask map hdr rtas ↔
      maskedHeader mask e.hdr = maskedHeader mask hdr ∧
        ∀ m ∈ map, m.unique = true → ∀ i, e.get m.field i = zeroExtended (rtas m.type) i := by
  rw [entryKey, messageKey, Key.mk.injEq, List.map_inj_left]
  apply and_congr_right'
  simp only [List.mem_filter, and_imp, List.ofFn_injective.eq_iff, funext_iff]

omit [DecidableEq φ] in
theorem maskMatch_iff_header (a b : Fin n → UInt8) :
    maskMatch (byteAt a) (byteAt b) (fun i => mask.getD i 0) mask.length = true ↔
      maskedHeader mask a = maskedHeader mask b := by
  rw [maskMatch_iff, maskedHeader, maskedHeader, List.map_inj_left]
  simp only [List.mem_range]

omit [DecidableEq φ] in
/-- The search compares keys, as long as nothing is too long. -/
theorem accepts_iff (hf : Fits size map rtas) :
    accepts mask map hdr rtas e = true ↔
      entryKey mask map e = messageKey size mask map hdr rtas := by
  rw [accepts, Bool.and_eq_true, decide_eq_true_eq, rtnlEntryMatch_iff e hf, maskMatch_iff_header,
    entryKey_eq_iff]

theorem stored_eq {rta : Option Rtattr} {init : Bool} {k : Nat} {old : Fin k → UInt8}
    (h : init = false → ∀ i, old i = zeroExtended rta i) (i : Fin k) :
    stored rta init old i = zeroExtended rta i := by
  rw [stored]
  split
  · rename_i hc
    exact h hc.2 i
  · rfl

theorem get_written {m : Nlmsg} {init : Bool} (hm : ∀ x ∈ map, x.type ≠ rtaEncap)
    (hf : Fits size map rtas) (hn : (map.map Mapping.field).Nodup)
    (hk : init = false →
      ∀ x ∈ map, x.unique = true → ∀ i, e.get x.field i = zeroExtended (rtas x.type) i)
    {x : Mapping φ} (hx : x ∈ map) (hu : x.unique = true) (i : Fin (size x.field)) :
    (written map m rtas init e).get x.field i = zeroExtended (rtas x.type) i := by
  rw [written, (get_rtnlEntrySet hm hf hn e).1 x hx]
  exact stored_eq (fun hi => hk hi x hx hu) i

theorem nsRcv_handled_plain {m : Nlmsg} {p : Pool (Entry n size)} {clear : Bool} {delType : Nat}
    (hm : ∀ x ∈ map, x.type ≠ rtaEncap) (hn : (map.map Mapping.field).Nodup)
    (ha : attributes n m = some rtas) (hf : Fits size map rtas) :
    Handled (entryKey mask map) (messageKey size mask map (header n m) rtas) p
      (decide (m.nlmsgType = delType)) (nsRcv (nsGet mask map) map clear delType p m) := by
  apply nsRcv_handled ha rfl (fun i _ => accepts_iff hf)
  · intro _ _
    apply entryKey_eq_iff.mpr
    exact ⟨rfl, fun x hx hu i => get_written hm hf hn (fun h => Bool.noConfusion h) hx hu i⟩
  · intro _ i hi hk
    apply entryKey_eq_iff.mpr
    exact ⟨rfl, fun x hx hu j =>
      get_written hm hf hn (fun _ => (entryKey_eq_iff.mp hk).2) hx hu j⟩

end

def linkKey (link : Link) : List UInt8 := ifiIndex link.hdr
def routeKey : Route → Key := entryKey routeMask nsRoutemap
def addrKey : Addr → Key := entryKey addrMask nsAddrmap
def neighKey : Neigh → Key := entryKey neighMask nsNeighmap

def routeMessageKey (m : Nlmsg) (rtas : Rtas) : Key :=
  messageKey RouteField.size routeMask nsRoutemap (header 12 m) rtas

theorem rtnlEntrySet_encap (rtas : Rtas) (init : Bool) (e : Route) :
    rtnlEntrySet rtas init [encapMapping] e =
      match rtas rtaEncap with
      | some rta => if rtaPayload (nested rta) > 28 then (e, -1)
        else (setField e .encap (fun i => (nested rta).data i), 0)
      | none => (if init then setField e .encap (fun _ => 0) else e, 0) := rfl

theorem get_encap (rtas : Rtas) (init : Bool) (e : Route)
    (hf : Fits RouteField.size nsRoutemapPlain rtas) :
    (rtnlEntrySet rtas init nsRoutemap e).1.get .encap =
      match rtas rtaEncap with
      | some rta => if rtaPayload (nested rta) > 28 then e.get .encap
        else fun i => (nested rta).data i
      | none => if init then fun _ => 0 else e.get .encap := by
  have hkeep : (rtnlEntrySet rtas init nsRoutemapPlain e).1.get .encap = e.get .encap :=
    (get_rtnlEntrySet (by decide) hf (by decide) e).2 .encap (by decide)
  rw [nsRoutemap, rtnlEntrySet_append (by decide) hf, rtnlEntrySet_encap]
  cases h : rtas rtaEncap with
  | none =>
    cases init with
    | false => exact hkeep
    | true => exact get_setField_self _ _ _
  | some rta =>
    dsimp only
    by_cases hl : rtaPayload (nested rta) > 28
    · rw [if_pos hl, if_pos hl]
      exact hkeep
    · rw [if_neg hl, if_neg hl]
      exact get_setField_self _ _ _

theorem get_plain {rtas : Rtas} {init : Bool} {e : Route}
    (hf : Fits RouteField.size nsRoutemapPlain rtas) {x : Mapping RouteField}
    (hx : x ∈ nsRoutemapPlain) :
    (rtnlEntrySet rtas init nsRoutemap e).1.get x.field =
      stored (rtas x.type) init (e.get x.field) := by
  have hne : x.field ≠ .encap := fun h => by revert x; decide
  rw [nsRoutemap, rtnlEntrySet_append (by decide) hf, rtnlEntrySet_encap,
    ← (get_rtnlEntrySet (by decide) hf (by decide) e).1 x hx]
  cases rtas rtaEncap with
  | none =>
    cases init with
    | false => rfl
    | true => exact get_setField_of_ne _ hne _
  | some rta =>
    dsimp only
    split
    · rfl
    · exact get_setField_of_ne _ hne _

/-- The field of `RTA_ENCAP` ends up as the attribute itself, zero extended,
although it is the attribute nested in it that is copied. The alternative is for
a nested attribute that is too long, which leaves the field as it is. -/
def EncapKept (routes : Pool Route) (m : Nlmsg) (rtas : Rtas) : Prop :=
  ∀ rta, rtas rtaEncap = some rta →
    if rtaPayload (nested rta) > 28 then
      Holds routeKey routes (routeMessageKey m rtas) ∨
        ∀ i : Fin 28, zeroExtended (some rta) i = 0
    else ∀ i : Fin 28, (nested rta).data i = zeroExtended (some rta) i

theorem routeKey_written {m : Nlmsg} {rtas : Rtas} {init : Bool} {old : Route}
    (hf : Fits RouteField.size nsRoutemap rtas)
    (hk : init = false → routeKey old = routeMessageKey m rtas)
    (he : ∀ rta, rtas rtaEncap = some rta →
      if rtaPayload (nested rta) > 28 then ∀ i, old.get .encap i = zeroExtended (some rta) i
      else ∀ i : Fin 28, (nested rta).data i = zeroExtended (some rta) i) :
    routeKey (written nsRoutemap m rtas init old) = routeMessageKey m rtas := by
  have hfp : Fits RouteField.size nsRoutemapPlain rtas :=
    fun x hx => hf x (List.mem_append_left _ hx)
  apply entryKey_eq_iff.mpr
  refine ⟨rfl, fun x hx hu => ?_⟩
  have hold : init = false → ∀ i, old.get x.field i = zeroExtended (rtas x.type) i :=
    fun h => (entryKey_eq_iff.mp (hk h)).2 x hx hu
  cases List.mem_append.mp hx with
  | inl hx =>
    rw [written, get_plain hfp hx]
    exact stored_eq hold
  | inr hx =>
    obtain rfl := List.mem_singleton.mp hx
    change ∀ i, (rtnlEntrySet rtas init nsRoutemap old).1.get .encap i =
      zeroExtended (rtas rtaEncap) i
    change init = false → ∀ i, old.get .encap i = zeroExtended (rtas rtaEncap) i at hold
    rw [get_encap rtas init old hfp]
    cases h : rtas rtaEncap with
    | none =>
      rw [h] at hold
      cases init with
      | false => exact hold rfl
      | true => exact fun i => rfl
    | some rta =>
      have he := he rta h
      dsimp only
      by_cases hl : rtaPayload (nested rta) > 28
      · rw [if_pos hl] at he ⊢
        exact he
      · rw [if_neg hl] at he ⊢
        exact he

theorem encap_eq {m : Nlmsg} {rtas : Rtas} {e : Route} (hk : routeKey e = routeMessageKey m rtas)
    (i : Fin 28) : e.get .encap i = zeroExtended (rtas rtaEncap) i :=
  (entryKey_eq_iff.mp hk).2 encapMapping (by simp [nsRoutemap]) rfl i

theorem nsRcvRoute_handled {m : Nlmsg} {rtas : Rtas} {p : Pool Route}
    (ha : attributes 12 m = some rtas) (hf : Fits RouteField.size nsRoutemap rtas)
    (he : m.nlmsgType ≠ rtmDelroute → EncapKept p m rtas) :
    Handled routeKey (routeMessageKey m rtas) p (decide (m.nlmsgType = rtmDelroute))
      (nsRcvRoute p m) := by
  have hfind : nsGetRoute p (header 12 m) rtas =
      findLive (accepts routeMask nsRoutemap (header 12 m) rtas) p := rfl
  apply nsRcv_handled ha hfind (fun i _ => accepts_iff hf)
  · intro hd hk
    apply routeKey_written hf (fun h => Bool.noConfusion h)
    intro rta hr
    have he := he hd rta hr
    by_cases hl : rtaPayload (nested rta) > 28
    · rw [if_pos hl] at he ⊢
      exact fun i => (he.resolve_left hk i).symm
    · rwa [if_neg hl] at he ⊢
  · intro hd i hi hk
    apply routeKey_written hf (fun _ => hk)
    intro rta hr
    have he := he hd rta hr
    by_cases hl : rtaPayload (nested rta) > 28
    · rw [if_pos hl]
      exact fun j => hr ▸ encap_eq hk j
    · rwa [if_neg hl] at he ⊢

theorem nsRcvLink_handled {m : Nlmsg} {rtas : Rtas} {p : Pool Link}
    (ha : attributes 16 m = some rtas) :
    Handled linkKey (ifiIndex (header 16 m)) p (decide (m.nlmsgType = rtmDellink))
      (nsRcvLink p m) := by
  apply nsRcv_handled ha rfl
  · intro i _
    rw [decide_eq_true_eq]
    exact eq_comm
  · intro _ _
    rfl
  · intro _ i _ _
    rfl

end Vppsb.NetnsKeys
