import Mathlib.Data.Nat.Notation
import Mathlib.Logic.Function.Basic

namespace Vppsb.NetnsEntry

/-- An attribute, with the memory behind its header: `data` goes on after the
payload ends. -/
structure Rtattr where
  rtaLen : Nat
  data : Nat → UInt8

/-- The difference of two lengths in `size_t`, which wraps around below zero. -/
def sizeSub (len hdr : Nat) : Nat :=
  if len < hdr then len + (18446744073709551616 - hdr) else len - hdr

def rtaPayload (rta : Rtattr) : Nat := sizeSub rta.rtaLen 4

/-- The attribute whose header stands where the payload of `rta` starts. -/
def nested (rta : Rtattr) : Rtattr :=
  ⟨(rta.data 0).toNat + 256 * (rta.data 1).toNat, fun i => rta.data (4 + i)⟩

/-- The attributes found by `rtnl_parse_rtattr`, by type. -/
abbrev Rtas := Nat → Option Rtattr

def rtaEncap : Nat := 22

variable {φ : Type} [DecidableEq φ] {size : φ → Nat} {n : Nat}

/-- One line of a mapping table. The field has the offset and the size. -/
structure Mapping (φ : Type) where
  type : Nat
  field : φ
  unique : Bool

/-- An object of a table: the fixed header of its last message and the fields
into which attributes are copied. -/
structure Entry (n : Nat) (size : φ → Nat) where
  hdr : Fin n → UInt8
  get : (f : φ) → Fin (size f) → UInt8

def zeroEntry : Entry n size := ⟨fun _ => 0, fun _ _ => 0⟩

def setField (e : Entry n size) (f : φ) (b : Fin (size f) → UInt8) : Entry n size :=
  { e with get := Function.update e.get f b }

/-- The payload of an attribute, followed by zeros. An absent attribute is all
zeros. -/
def zeroExtended (rta : Option Rtattr) (i : Nat) : UInt8 :=
  match rta with
  | some rta => if i < rtaPayload rta then rta.data i else 0
  | none => 0

def payloadLen (rta : Option Rtattr) : Nat :=
  match rta with
  | some rta => rtaPayload rta
  | none => 0

/-- The first `memcmp` of `rtnl_entry_match` finds a difference. -/
def payloadDiffers (rta : Option Rtattr) {k : Nat} (b : Fin k → UInt8) : Bool :=
  match rta with
  | some rta => !decide (∀ i : Fin k, i < rtaPayload rta → rta.data i = b i)
  | none => false

/-- The second `memcmp` of `rtnl_entry_match` finds a difference. -/
def restDiffers (rta : Option Rtattr) {k : Nat} (b : Fin k → UInt8) : Bool :=
  !decide (∀ i : Fin k, payloadLen rta ≤ i → b i = 0)

/-- The result is -1, which callers take for a match, where an attribute is too
long. -/
def rtnlEntryMatch (e : Entry n size) (rtas : Rtas) : List (Mapping φ) → Int
  | [] => 1
  | m :: map =>
    if m.unique = false then rtnlEntryMatch e rtas map
    else if payloadLen (rtas m.type) > size m.field then -1
    else if payloadDiffers (rtas m.type) (e.get m.field) || restDiffers (rtas m.type) (e.get m.field)
    then 0
    else rtnlEntryMatch e rtas map

/-- Copies the attributes into their fields, up to the first one that is too
long. For `RTA_ENCAP` it is the payload of the nested attribute that is copied,
as many bytes as the field has. -/
def rtnlEntrySet (rtas : Rtas) (init : Bool) :
    List (Mapping φ) → Entry n size → Entry n size × Int
  | [], e => (e, 0)
  | m :: map, e =>
    match rtas m.type with
    | some rta =>
      if m.type = rtaEncap then
        if rtaPayload (nested rta) > size m.field then (e, -1)
        else rtnlEntrySet rtas init map (setField e m.field (fun i => (nested rta).data i))
      else if rtaPayload rta > size m.field then (e, -1)
      else rtnlEntrySet rtas init map (setField e m.field (fun i => zeroExtended (some rta) i))
    | none => rtnlEntrySet rtas init map (if init then setField e m.field (fun _ => 0) else e)

def maskMatch (a b mask : Nat → UInt8) : Nat → Bool
  | 0 => true
  | len + 1 => if (a len ^^^ b len) &&& mask len ≠ 0 then false else maskMatch a b mask len

def byteAt (hdr : Fin n → UInt8) (i : Nat) : UInt8 := if h : i < n then hdr ⟨i, h⟩ else 0

/-- No attribute with a line in the table is longer than its field. -/
def Fits (size : φ → Nat) (map : List (Mapping φ)) (rtas : Rtas) : Prop :=
  ∀ m ∈ map, payloadLen (rtas m.type) ≤ size m.field

theorem restDiffers_iff (rta : Option Rtattr) {k : Nat} (b : Fin k → UInt8) :
    restDiffers rta b = false ↔ ∀ i : Fin k, payloadLen rta ≤ i → b i = 0 := by
  rw [restDiffers, Bool.not_eq_false', decide_eq_true_eq]

theorem payloadDiffers_iff (rta : Rtattr) {k : Nat} (b : Fin k → UInt8) :
    payloadDiffers (some rta) b = false ↔ ∀ i : Fin k, i < rtaPayload rta → rta.data i = b i := by
  rw [payloadDiffers, Bool.not_eq_false', decide_eq_true_eq]

theorem same_iff (rta : Option Rtattr) {k : Nat} (b : Fin k → UInt8) :
    (payloadDiffers rta b || restDiffers rta b) = false ↔ ∀ i, b i = zeroExtended rta i := by
  rw [Bool.or_eq_false_iff, restDiffers_iff]
  cases rta with
  | none => simp [payloadDiffers, payloadLen, zeroExtended]
  | some rta =>
    rw [payloadDiffers_iff]
    simp only [payloadLen, zeroExtended]
    constructor
    · intro h i
      by_cases hi : (i : Nat) < rtaPayload rta
      · rw [if_pos hi, h.1 i hi]
      · rw [if_neg hi, h.2 i (Nat.le_of_not_lt hi)]
    · intro h
      refine ⟨fun i hi => ?_, fun i hi => ?_⟩
      · rw [h i, if_pos hi]
      · rw [h i, if_neg (Nat.not_lt.mpr hi)]

omit [DecidableEq φ] in
/-- As long as nothing is too long, the comparison is that of the unique fields
with the attributes, zero extended. -/
theorem rtnlEntryMatch_iff (e : Entry n size) {rtas : Rtas} {map : List (Mapping φ)}
    (hf : Fits size map rtas) :
    rtnlEntryMatch e rtas map ≠ 0 ↔
      ∀ m ∈ map, m.unique = true → ∀ i, e.get m.field i = zeroExtended (rtas m.type) i := by
  induction map with
  | nil => simp [rtnlEntryMatch]
  | cons m map ih =>
    have ih := ih fun x hx => hf x (List.mem_cons_of_mem m hx)
    have hm := hf m List.mem_cons_self
    simp only [rtnlEntryMatch, List.forall_mem_cons]
    cases hu : m.unique with
    | false => simpa using ih
    | true =>
      rw [if_neg (by simp), if_neg (Nat.not_lt.mpr hm)]
      cases hd : payloadDiffers (rtas m.type) (e.get m.field) ||
          restDiffers (rtas m.type) (e.get m.field) with
      | false =>
        have := (same_iff _ _).mp hd
        simpa [this] using ih
      | true =>
        have : ¬ ∀ i, e.get m.field i = zeroExtended (rtas m.type) i :=
          fun h => Bool.noConfusion (hd.symm.trans ((same_iff _ _).mpr h))
        simp [this]

omit [DecidableEq φ] in
theorem rtnlEntryMatch_append {e : Entry n size} {rtas : Rtas} {map : List (Mapping φ)}
    (hf : Fits size map rtas) (rest : List (Mapping φ)) :
    rtnlEntryMatch e rtas (map ++ rest) ≠ 0 ↔
      rtnlEntryMatch e rtas map ≠ 0 ∧ rtnlEntryMatch e rtas rest ≠ 0 := by
  induction map with
  | nil => simp [rtnlEntryMatch]
  | cons m map ih =>
    have ih := ih fun x hx => hf x (List.mem_cons_of_mem m hx)
    have hm := Nat.not_lt.mpr (hf m List.mem_cons_self)
    rw [List.cons_append, rtnlEntryMatch, rtnlEntryMatch, if_neg hm, if_neg hm]
    split
    · exact ih
    · split
      · simp
      · exact ih

theorem xor_and (a b m : UInt8) : (a ^^^ b) &&& m = (a &&& m) ^^^ (b &&& m) := by
  apply UInt8.toBitVec_inj.mp
  ext i hi
  simp [Bool.and_xor_distrib_right]

theorem and_ff (a : UInt8) : a &&& 255 = a := UInt8.and_neg_one

theorem maskMatch_iff (a b mask : Nat → UInt8) (len : Nat) :
    maskMatch a b mask len = true ↔ ∀ i < len, a i &&& mask i = b i &&& mask i := by
  induction len with
  | zero => simp [maskMatch]
  | succ len ih =>
    have h : (a len ^^^ b len) &&& mask len = 0 ↔ a len &&& mask len = b len &&& mask len := by
      rw [xor_and, UInt8.xor_eq_zero_iff]
    rw [maskMatch]
    by_cases h0 : (a len ^^^ b len) &&& mask len = 0
    · rw [if_neg (not_not.mpr h0), ih]
      constructor
      · intro hl i hi
        cases Nat.lt_succ_iff_lt_or_eq.mp hi with
        | inl hi => exact hl i hi
        | inr hi =>
          rw [hi]
          exact h.mp h0
      · intro hl i hi
        exact hl i (Nat.lt_succ_of_lt hi)
    · rw [if_pos h0]
      simp only [Bool.false_eq_true, false_iff]
      intro hl
      exact h0 (h.mpr (hl len (Nat.lt_succ_self len)))

theorem get_setField_self (e : Entry n size) (f : φ) (b : Fin (size f) → UInt8) :
    (setField e f b).get f = b := by simp [setField]

theorem get_setField_of_ne (e : Entry n size) {f g : φ} (h : g ≠ f) (b : Fin (size f) → UInt8) :
    (setField e f b).get g = e.get g := by simp [setField, h]

def stored (rta : Option Rtattr) (init : Bool) {k : Nat} (old : Fin k → UInt8) : Fin k → UInt8 :=
  if rta = none ∧ init = false then old else fun i => zeroExtended rta i

theorem rtnlEntrySet_cons {rtas : Rtas} {m : Mapping φ} (map : List (Mapping φ)) (init : Bool)
    (e : Entry n size) (hm : m.type ≠ rtaEncap) (hf : payloadLen (rtas m.type) ≤ size m.field) :
    rtnlEntrySet rtas init (m :: map) e =
      rtnlEntrySet rtas init map (setField e m.field (stored (rtas m.type) init (e.get m.field))) := by
  rw [rtnlEntrySet]
  cases h : rtas m.type with
  | none =>
    cases init with
    | false => simp [stored, setField]
    | true => simp [stored, zeroExtended]
  | some rta =>
    rw [h] at hf
    change rtaPayload rta ≤ size m.field at hf
    dsimp only
    rw [if_neg hm, if_neg (Nat.not_lt.mpr hf)]
    simp [stored]

theorem get_rtnlEntrySet {rtas : Rtas} {init : Bool} {map : List (Mapping φ)}
    (hm : ∀ m ∈ map, m.type ≠ rtaEncap) (hf : Fits size map rtas)
    (hn : (map.map Mapping.field).Nodup) (e : Entry n size) :
    (∀ m ∈ map, (rtnlEntrySet rtas init map e).1.get m.field =
      stored (rtas m.type) init (e.get m.field)) ∧
    ∀ f, f ∉ map.map Mapping.field → (rtnlEntrySet rtas init map e).1.get f = e.get f := by
  induction map generalizing e with
  | nil => exact ⟨fun m h => absurd h List.not_mem_nil, fun f _ => rfl⟩
  | cons m map ih =>
    obtain ⟨hm0, hm⟩ := List.forall_mem_cons.mp hm
    obtain ⟨hf0, hf⟩ := List.forall_mem_cons.mp hf
    obtain ⟨hn0, hn⟩ := List.nodup_cons.mp hn
    rw [rtnlEntrySet_cons map init e hm0 hf0]
    obtain ⟨hget, hkeep⟩ := ih hm hf hn
      (setField e m.field (stored (rtas m.type) init (e.get m.field)))
    constructor
    · intro x hx
      cases List.mem_cons.mp hx with
      | inl h =>
        rw [h, hkeep _ hn0, get_setField_self]
      | inr h =>
        have hne : x.field ≠ m.field := fun he => hn0 (he ▸ List.mem_map_of_mem h)
        rw [hget x h, get_setField_of_ne _ hne]
    · intro f hnot
      obtain ⟨hne, hnot⟩ := List.ne_and_not_mem_of_not_mem_cons hnot
      rw [hkeep f hnot, get_setField_of_ne _ hne]

theorem rtnlEntrySet_append {rtas : Rtas} {init : Bool} {map : List (Mapping φ)}
    (hm : ∀ m ∈ map, m.type ≠ rtaEncap) (hf : Fits size map rtas) (rest : List (Mapping φ))
    (e : Entry n size) :
    rtnlEntrySet rtas init (map ++ rest) e =
      rtnlEntrySet rtas init rest (rtnlEntrySet rtas init map e).1 := by
  induction map generalizing e with
  | nil => rfl
  | cons m map ih =>
    obtain ⟨hm0, hm⟩ := List.forall_mem_cons.mp hm
    obtain ⟨hf0, hf⟩ := List.forall_mem_cons.mp hf
    rw [List.cons_append, rtnlEntrySet_cons _ init e hm0 hf0, rtnlEntrySet_cons _ init e hm0 hf0]
    exact ih hm hf _

/-- The copy stops at an attribute that is too long. -/
theorem rtnlEntrySet_overlong {rtas : Rtas} {init : Bool} {map : List (Mapping φ)}
    (hm : ∀ m ∈ map, m.type ≠ rtaEncap) (hf : ¬ Fits size map rtas) (rest : List (Mapping φ))
    (e : Entry n size) :
    rtnlEntrySet rtas init (map ++ rest) e = rtnlEntrySet rtas init map e := by
  induction map generalizing e with
  | nil => exact absurd (fun m h => absurd h List.not_mem_nil) hf
  | cons m map ih =>
    obtain ⟨hm0, hm⟩ := List.forall_mem_cons.mp hm
    rw [List.cons_append]
    by_cases hf0 : payloadLen (rtas m.type) ≤ size m.field
    · rw [rtnlEntrySet_cons _ init e hm0 hf0, rtnlEntrySet_cons _ init e hm0 hf0]
      exact ih hm (fun h => hf (List.forall_mem_cons.mpr ⟨hf0, h⟩)) _
    · rw [rtnlEntrySet, rtnlEntrySet]
      cases h : rtas m.type with
      | none =>
        rw [h] at hf0
        exact absurd (Nat.zero_le _) hf0
      | some rta =>
        rw [h] at hf0
        have hl : rtaPayload rta > size m.field := Nat.not_le.mp hf0
        dsimp only
        rw [if_neg hm0, if_neg hm0, if_pos hl, if_pos hl]

theorem get_set_of_notMem {rtas : Rtas} {init : Bool} {map : List (Mapping φ)} {f : φ}
    (hf : f ∉ map.map Mapping.field) (e : Entry n size) :
    (rtnlEntrySet rtas init map e).1.get f = e.get f := by
  induction map generalizing e with
  | nil => rfl
  | cons m map ih =>
    obtain ⟨hne, hf⟩ := List.ne_and_not_mem_of_not_mem_cons hf
    have hset : ∀ b, (rtnlEntrySet rtas init map (setField e m.field b)).1.get f = e.get f := by
      intro b
      rw [ih hf, get_setField_of_ne _ hne]
    rw [rtnlEntrySet]
    cases rtas m.type with
    | none =>
      cases init with
      | false => exact ih hf e
      | true => exact hset _
    | some rta =>
      dsimp only
      split
      · split
        · rfl
        · exact hset _
      · split
        · rfl
        · exact hset _

theorem match_setField {rtas : Rtas} {map : List (Mapping φ)} {g : φ}
    (hg : g ∉ map.map Mapping.field) (e : Entry n size) (b : Fin (size g) → UInt8) :
    rtnlEntryMatch (setField e g b) rtas map = rtnlEntryMatch e rtas map := by
  induction map with
  | nil => rfl
  | cons m map ih =>
    obtain ⟨hne, hg⟩ := List.ne_and_not_mem_of_not_mem_cons hg
    simp only [rtnlEntryMatch, ih hg, get_setField_of_ne e (Ne.symm hne)]

theorem setField_same {e : Entry n size} {f : φ} {b : Fin (size f) → UInt8}
    (h : ∀ i, e.get f i = b i) : setField e f b = e := by
  have hb : b = e.get f := funext fun i => (h i).symm
  rw [setField, hb, Function.update_eq_self]

/-- What is found by its unique fields keeps them when it is updated. This holds
even where an attribute is too long: the copy stops there, and what is in front
of it was compared. -/
theorem get_set_of_match {rtas : Rtas} {map rest : List (Mapping φ)} {f : φ} {e : Entry n size}
    (hm : ∀ m ∈ map, m.type ≠ rtaEncap) (hn : ((map ++ rest).map Mapping.field).Nodup)
    (hmatch : rtnlEntryMatch e rtas (map ++ rest) ≠ 0)
    (hf : ∀ m ∈ map, m.field = f → m.unique = true) (hrest : f ∉ rest.map Mapping.field) :
    (rtnlEntrySet rtas false (map ++ rest) e).1.get f = e.get f := by
  induction map generalizing e with
  | nil => exact get_set_of_notMem hrest e
  | cons m map ih =>
    obtain ⟨hm0, hm⟩ := List.forall_mem_cons.mp hm
    obtain ⟨hf0, hf⟩ := List.forall_mem_cons.mp hf
    rw [List.cons_append, List.map_cons, List.nodup_cons] at hn
    obtain ⟨hn0, hn⟩ := hn
    rw [List.cons_append, rtnlEntryMatch] at hmatch
    rw [List.cons_append, rtnlEntrySet]
    cases hr : rtas m.type with
    | none =>
      change (rtnlEntrySet rtas false (map ++ rest) e).1.get f = e.get f
      apply ih hm hn _ hf
      cases hu : m.unique with
      | false => rwa [hu, if_pos rfl] at hmatch
      | true =>
        have hl : ¬ payloadLen none > size m.field := Nat.not_lt_zero _
        rw [hu, if_neg (by decide), hr, if_neg hl] at hmatch
        exact fun h0 => hmatch (by rw [h0, ite_self])
    | some rta =>
      dsimp only
      rw [if_neg hm0]
      split
      · rfl
      · rename_i hl
        cases hu : m.unique with
        | false =>
          have hne : f ≠ m.field := fun he => Bool.noConfusion (hu.symm.trans (hf0 he.symm))
          rw [hu, if_pos rfl] at hmatch
          rw [ih hm hn (by rwa [match_setField hn0]) hf, get_setField_of_ne _ hne]
        | true =>
          have hl : ¬ payloadLen (some rta) > size m.field := hl
          rw [hu, if_neg (by decide), hr, if_neg hl] at hmatch
          cases hd : payloadDiffers (some rta) (e.get m.field) ||
              restDiffers (some rta) (e.get m.field) with
          | true =>
            rw [hd, if_pos rfl] at hmatch
            exact absurd rfl hmatch
          | false =>
            rw [hd, if_neg Bool.false_ne_true] at hmatch
            rw [setField_same ((same_iff _ _).mp hd)]
            exact ih hm hn hmatch hf

end Vppsb.NetnsEntry
