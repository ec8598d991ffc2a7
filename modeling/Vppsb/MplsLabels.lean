import Mathlib.Algebra.Group.Nat.Defs
import Mathlib.Data.List.GetD

namespace Vppsb.MplsLabels

section Entries

def label (e : Nat) : Nat := e / 4096

def bottom (e : Nat) : Bool := decide (e / 256 % 2 = 1)

/-- The entries after which no label is read. -/
def Stops (e : Nat) : Prop := label e = 0 ∨ bottom e = true

instance (e : Nat) : Decidable (Stops e) := inferInstanceAs (Decidable (_ ∨ _))

/-- The labels in front of a label zero or down to the bottom bit. There is no result where
the entries have neither. -/
def decode : List Nat → Option (List Nat)
  | [] => none
  | e :: es =>
    if label e = 0 then some []
    else if bottom e then some [label e]
    else (decode es).map (List.cons (label e))

def upToBottom : List Nat → List Nat
  | [] => []
  | e :: es => if bottom e then [label e] else label e :: upToBottom es

/-- The stack has a bottom, and no label zero down to it. -/
def Terminated (stack : List Nat) : Prop :=
  ∃ above e below, stack = above ++ e :: below ∧ bottom e = true ∧ label e ≠ 0 ∧
    ∀ x ∈ above, ¬ Stops x

theorem terminated_cons {e : Nat} {es : List Nat} (h : label e ≠ 0) :
    Terminated (e :: es) ↔ bottom e = true ∨ Terminated es := by
  constructor
  · rintro ⟨above, x, below, hs, hb, hl, ha⟩
    cases above with
    | nil =>
      obtain ⟨rfl, _⟩ := List.cons.inj hs
      exact .inl hb
    | cons y above =>
      obtain ⟨rfl, rfl⟩ := List.cons.inj hs
      exact .inr ⟨above, x, below, rfl, hb, hl, fun z hz => ha z (List.mem_cons_of_mem _ hz)⟩
  · rintro (hb | ⟨above, x, below, rfl, hb, hl, ha⟩)
    · exact ⟨[], e, es, rfl, hb, h, fun _ hx => absurd hx List.not_mem_nil⟩
    · by_cases hbe : bottom e = true
      · exact ⟨[], e, _, rfl, hbe, h, fun _ hx => absurd hx List.not_mem_nil⟩
      · refine ⟨e :: above, x, below, rfl, hb, hl, List.forall_mem_cons.mpr ⟨?_, ha⟩⟩
        rintro (h0 | hb')
        · exact h h0
        · exact hbe hb'

theorem not_terminated_of_label {e : Nat} {es : List Nat} (h : label e = 0) :
    ¬ Terminated (e :: es) := by
  rintro ⟨above, x, below, hs, _, hl, ha⟩
  cases above with
  | nil =>
    obtain ⟨rfl, _⟩ := List.cons.inj hs
    exact hl h
  | cons y above =>
    obtain ⟨rfl, _⟩ := List.cons.inj hs
    exact ha e List.mem_cons_self (.inl h)

theorem decode_of_terminated {stack : List Nat} (h : Terminated stack) (tail : List Nat) :
    decode (stack ++ tail) = some (upToBottom stack) := by
  obtain ⟨above, e, below, rfl, hb, hl, ha⟩ := h
  induction above with
  | nil =>
    rw [List.nil_append, List.cons_append, decode, upToBottom, if_neg hl, if_pos hb, if_pos hb]
  | cons x above ih =>
    obtain ⟨hx, ha⟩ := List.forall_mem_cons.mp ha
    rw [List.cons_append, List.cons_append, decode, upToBottom, if_neg (fun h => hx (.inl h)),
      if_neg (fun h => hx (.inr h)), if_neg (fun h => hx (.inr h)), ih ha]
    rfl

def someBottom : Nat := 4294967295

/-- Only a stack that is terminated is decoded whatever follows it. -/
theorem terminated_of_decode {stack : List Nat} {n : Nat} (hne : stack ≠ [])
    (h : decode (stack ++ List.replicate n someBottom) = some (upToBottom stack)) :
    Terminated stack := by
  induction stack with
  | nil => exact absurd rfl hne
  | cons e es ih =>
    rw [List.cons_append, decode, upToBottom] at h
    by_cases hl : label e = 0
    · rw [if_pos hl] at h
      have hnil := Option.some.inj h
      split at hnil <;> exact absurd hnil.symm (List.cons_ne_nil _ _)
    rw [if_neg hl] at h
    rw [terminated_cons hl]
    by_cases hb : bottom e = true
    · exact .inl hb
    · rw [if_neg hb, if_neg hb] at h
      obtain ⟨ls, hls, hcons⟩ := Option.map_eq_some_iff.mp h
      obtain ⟨_, rfl⟩ := List.cons.inj hcons
      cases es with
      | nil =>
        -- nothing is left of the stack, and what follows it gives a label or no result
        cases n with
        | zero => exact absurd hls.symm (Option.some_ne_none _)
        | succ n => exact absurd (Option.some.inj hls) (List.cons_ne_nil _ _)
      | cons x es => exact .inr (ih (List.cons_ne_nil x es) hls)

theorem decode_zero {e : Nat} (h : label e = 0) (es : List Nat) : decode (e :: es) = some [] :=
  if_pos h

theorem exists_decode {es : List Nat} : (∃ ls, decode es = some ls) ↔ ∃ e ∈ es, Stops e := by
  induction es with
  | nil => exact iff_of_false (fun ⟨ls, h⟩ => Option.some_ne_none ls h.symm) nofun
  | cons e es ih =>
    simp only [List.mem_cons, exists_eq_or_imp]
    rw [← ih, decode]
    by_cases hl : label e = 0
    · rw [if_pos hl]
      exact iff_of_true ⟨_, rfl⟩ (.inl (.inl hl))
    rw [if_neg hl]
    by_cases hb : bottom e = true
    · rw [if_pos hb]
      exact iff_of_true ⟨_, rfl⟩ (.inl (.inr hb))
    rw [if_neg hb]
    simp only [show ¬ Stops e from not_or.mpr ⟨hl, hb⟩, false_or, Option.map_eq_some_iff]
    constructor
    · rintro ⟨_, ls, h, _⟩
      exact ⟨ls, h⟩
    · rintro ⟨ls, h⟩
      exact ⟨_, ls, h, rfl⟩

theorem upToBottom_ne_nil {stack : List Nat} (h : stack ≠ []) : upToBottom stack ≠ [] := by
  cases stack with
  | nil => exact absurd rfl h
  | cons e es =>
    rw [upToBottom]
    split <;> exact List.cons_ne_nil _ _

end Entries

section Words

/-- The 32 bits of a label stack entry, in network order. -/
def mplsEntry (b : Nat → UInt8) (i : Nat) : Nat :=
  (((b (4 * i)).toNat * 256 + (b (4 * i + 1)).toNat) * 256 + (b (4 * i + 2)).toNat) * 256 +
    (b (4 * i + 3)).toNat

def words (b : Nat → UInt8) (i n : Nat) : List Nat := (List.range' i n).map (mplsEntry b)

variable {a b : Nat → UInt8}

theorem words_succ (b : Nat → UInt8) (i n : Nat) :
    words b i (n + 1) = mplsEntry b i :: words b (i + 1) n := by
  rw [words, List.range'_succ, List.map_cons, words]

theorem words_append (b : Nat → UInt8) (i n len : Nat) :
    words b i (n + len) = words b i n ++ words b (i + n) len := by
  rw [words, words, words, ← List.map_append, List.range'_append_1]

theorem mplsEntry_congr {i n : Nat} (hi : i < n) (h : ∀ j, j < 4 * n → a j = b j) :
    mplsEntry a i = mplsEntry b i := by
  rw [mplsEntry, mplsEntry, h _ (by omega), h _ (by omega), h _ (by omega), h _ (by omega)]

theorem words_congr {i n len : Nat} (hi : i + len ≤ n) (h : ∀ j, j < 4 * n → a j = b j) :
    words a i len = words b i len := by
  rw [words, words]
  apply List.map_congr_left
  intro j hj
  rw [List.mem_range'_1] at hj
  exact mplsEntry_congr (by omega) h

def entryByte (e r : Nat) : UInt8 := UInt8.ofNat (e / 256 ^ (3 - r))

theorem mplsEntry_entryByte (ws : Nat → Nat) {j : Nat} (h : ws j < 4294967296) :
    mplsEntry (fun i => entryByte (ws (i / 4)) (i % 4)) j = ws j := by
  have h0 : 4 * j / 4 = j := by omega
  have h1 : (4 * j + 1) / 4 = j := by omega
  have h2 : (4 * j + 2) / 4 = j := by omega
  have h3 : (4 * j + 3) / 4 = j := by omega
  have m0 : 4 * j % 4 = 0 := by omega
  have m1 : (4 * j + 1) % 4 = 1 := by omega
  have m2 : (4 * j + 2) % 4 = 2 := by omega
  have m3 : (4 * j + 3) % 4 = 3 := by omega
  simp only [mplsEntry, h0, h1, h2, h3, m0, m1, m2, m3, entryByte, UInt8.toNat_ofNat']
  omega

end Words

end Vppsb.MplsLabels
