import Mathlib.Logic.Function.Basic
import Mathlib.Algebra.BigOperators.Group.List.Basic
import Mathlib.Algebra.Ring.Int.Defs

namespace Vppsb.VlibBuffer

structure Buffer where
  data : Int → UInt8
  currentData : Int
  currentLength : Int
  nextPresent : Bool
  totalLengthValid : Bool
  nextBuffer : Nat
  totalLengthNotIncludingFirstBuffer : Nat
  swIfIndexRx : Nat
  swIfIndexTx : Nat

def vlibBufferAdvance (b : Buffer) (n : Int) : Buffer :=
  { b with currentData := b.currentData + n, currentLength := b.currentLength - n }

def byteAt (b : Buffer) (i : Nat) : UInt8 := b.data (b.currentData + i)

def netWordAt (b : Buffer) (i : Nat) : Nat := (byteAt b i).toNat * 256 + (byteAt b (i + 1)).toNat

def currentBytes (b : Buffer) : List UInt8 := (List.range b.currentLength.toNat).map (byteAt b)

/-- A number stored in a `current_length`, which has so many values. -/
def lengthField (lengths : Nat) (n : Int) : Int := n % lengths

def u32 (n : Int) : Nat := (n % 0x100000000).toNat

def stored (bytes : List UInt8) (d : Int → UInt8) : Int → UInt8 :=
  fun i => if 0 ≤ i ∧ i.toNat < bytes.length then bytes.getD i.toNat 0 else d i

/-- What `readv` does with buffers of one size. -/
def readvInto (size : Nat) : List Nat → List UInt8 → (Nat → Buffer) → Nat → Buffer
  | [], _, m => m
  | b :: bs, bytes, m =>
    readvInto size bs (bytes.drop size)
      (Function.update m b { m b with data := stored (bytes.take size) (m b).data })

/-- A chain of buffers that holds `n` bytes, all but the last one full. -/
inductive Chain (m : Nat → Buffer) (size : Nat) : Nat → List Nat → Prop
  | last (n b : Nat) (pos : 0 < n) (fits : n ≤ size) (length : (m b).currentLength = n)
      (ends : (m b).nextPresent = false) : Chain m size n [b]
  | more (n b b' : Nat) (bs : List Nat) (full : (m b).currentLength = size)
      (present : (m b).nextPresent = true) (next : (m b).nextBuffer = b')
      (rest : Chain m size n (b' :: bs)) : Chain m size (size + n) (b :: b' :: bs)

def payload (m : Nat → Buffer) (bs : List Nat) : List UInt8 :=
  bs.flatMap (fun b => (List.range (m b).currentLength.toNat).map (fun i : Nat => (m b).data i))

namespace Chain

variable {m m' : Nat → Buffer} {size n : Nat} {bs : List Nat}

theorem pos (h : Chain m size n bs) : 0 < n := by
  induction h with
  | last n b pos => exact pos
  | more n b b' bs _ _ _ _ ih => omega

theorem sum (h : Chain m size n bs) : (bs.map (fun b => (m b).currentLength)).sum = n := by
  induction h with
  | last n b _ _ length => simp [length]
  | more n b b' bs full _ _ _ ih =>
    rw [List.map_cons, List.sum_cons, ih, full]
    omega

theorem length (h : Chain m size n bs) (hsize : 0 < size) : bs.length = (n + size - 1) / size := by
  induction h with
  | last n b pos fits =>
    have hone : n + size - 1 = n - 1 + size := by omega
    rw [hone, Nat.add_div_right _ hsize, Nat.div_eq_of_lt (by omega)]
    rfl
  | more n b b' bs _ _ _ rest ih =>
    have hpos := rest.pos
    have hsucc : size + n + size - 1 = n + size - 1 + size := by omega
    rw [List.length_cons, ih, hsucc, Nat.add_div_right _ hsize]

theorem congr (h : Chain m size n bs) (heq : ∀ b ∈ bs, m' b = m b) : Chain m' size n bs := by
  induction h with
  | last n b pos fits length ends =>
    have hb := heq b List.mem_cons_self
    exact .last n b pos fits (by rw [hb]; exact length) (by rw [hb]; exact ends)
  | more n b b' bs full present next rest ih =>
    have hb := heq b List.mem_cons_self
    exact .more n b b' bs (by rw [hb]; exact full) (by rw [hb]; exact present)
      (by rw [hb]; exact next) (ih fun c hc => heq c (List.mem_cons_of_mem b hc))

theorem head_full {b : Nat} (h : Chain m size n (b :: bs)) (hn : size < n) :
    (m b).currentLength = size := by
  cases h with
  | last _ _ _ fits => omega
  | more _ _ _ _ full => exact full

end Chain

theorem lengthField_of_lt {lengths n : Nat} (h : n < lengths) : lengthField lengths n = n :=
  Int.emod_eq_of_lt (Int.natCast_nonneg n) (Int.ofNat_lt.mpr h)

section Read

variable {size : Nat} {m : Nat → Buffer}

theorem stored_nil (d : Int → UInt8) : stored [] d = d := by
  funext i
  exact if_neg fun h => absurd h.2 (Nat.not_lt_zero _)

theorem readvInto_nil (bs : List Nat) (m : Nat → Buffer) : readvInto size bs [] m = m := by
  induction bs generalizing m with
  | nil => rfl
  | cons b bs ih =>
    rw [readvInto, List.drop_nil, List.take_nil, stored_nil, Function.update_eq_self]
    exact ih m

theorem readvInto_data (bs : List Nat) (bytes : List UInt8) (b : Nat) :
    readvInto size bs bytes m b = { m b with data := (readvInto size bs bytes m b).data } := by
  induction bs generalizing bytes m with
  | nil => rfl
  | cons c bs ih =>
    rw [readvInto, ih]
    by_cases hbc : b = c
    · subst hbc
      rw [Function.update_self]
    · rw [Function.update_of_ne hbc]

theorem readvInto_of_notMem {bs : List Nat} {bytes : List UInt8} {b : Nat} (hb : b ∉ bs) :
    readvInto size bs bytes m b = m b := by
  induction bs generalizing bytes m with
  | nil => rfl
  | cons c bs ih =>
    obtain ⟨hbc, hbs⟩ := List.ne_and_not_mem_of_not_mem_cons hb
    rw [readvInto, ih hbs, Function.update_of_ne hbc]

theorem readvInto_kept (hsize : 0 < size) {bs : List Nat} {bytes : List UInt8} {b : Nat}
    (hb : b ∉ bs.take ((bytes.length + size - 1) / size)) : readvInto size bs bytes m b = m b := by
  induction bs generalizing bytes m with
  | nil => rfl
  | cons c bs ih =>
    by_cases hnil : bytes = []
    · rw [hnil, readvInto_nil]
    · have hpos := List.length_pos_iff.mpr hnil
      have hcount : (bytes.length + size - 1) / size = (bytes.length - 1) / size + 1 := by
        rw [← Nat.add_div_right _ hsize]
        congr 1
        omega
      rw [hcount, List.take_succ_cons] at hb
      obtain ⟨hbc, hbs⟩ := List.ne_and_not_mem_of_not_mem_cons hb
      have hrest : ((bytes.drop size).length + size - 1) / size ≤ (bytes.length - 1) / size := by
        rw [List.length_drop]
        by_cases hle : bytes.length ≤ size
        · rw [Nat.sub_eq_zero_of_le hle, Nat.div_eq_of_lt (by omega)]
          exact Nat.zero_le _
        · exact Nat.div_le_div_right (by omega)
      have hnot : b ∉ bs.take (((bytes.drop size).length + size - 1) / size) :=
        fun h => hbs ((List.take_subset_take_left bs hrest) h)
      rw [readvInto, ih hnot, Function.update_of_ne hbc]

theorem map_stored (bytes : List UInt8) (d : Int → UInt8) :
    (List.range bytes.length).map (fun i : Nat => stored bytes d i) = bytes := by
  apply List.ext_getElem
  · simp
  · intro i h h'
    have hi : (0 : Int) ≤ (i : Nat) ∧ ((i : Nat) : Int).toNat < bytes.length := ⟨by omega, h'⟩
    rw [List.getElem_map, List.getElem_range, stored, if_pos hi, Int.toNat_natCast,
      List.getD_eq_getElem?_getD, List.getElem?_eq_getElem h', Option.getD_some]

/-- A chain of the leading buffers holds the bytes that have been read into them. -/
theorem payload_readvInto {m' : Nat → Buffer} {bi bs : List Nat} {bytes : List UInt8}
    (hn : bi.Nodup) (hc : Chain m' size bytes.length bs) (hp : bs <+: bi)
    (hdata : ∀ b ∈ bi, (m' b).data = (readvInto size bi bytes m b).data) :
    payload m' bs = bytes := by
  induction bs generalizing bi bytes m with
  | nil =>
    generalize bytes.length = n at hc
    cases hc
  | cons b bs ih =>
    obtain ⟨tail, rfl⟩ := hp
    rw [List.cons_append] at hn hdata
    obtain ⟨hb, hn'⟩ := List.nodup_cons.mp hn
    have hstored : (m' b).data = stored (bytes.take size) (m b).data := by
      rw [hdata b List.mem_cons_self, readvInto, readvInto_of_notMem hb, Function.update_self]
    rw [payload, List.flatMap_cons, hstored]
    generalize hlen : bytes.length = n at hc
    cases hc with
    | last _ _ _ fits length =>
      rw [length, Int.toNat_natCast, List.take_of_length_le (hlen.trans_le fits), ← hlen, map_stored]
      exact List.append_nil _
    | more n _ b' bs full _ _ rest =>
      have htake : (bytes.take size).length = size := by
        rw [List.length_take]
        omega
      have hdrop : (bytes.drop size).length = n := by
        rw [List.length_drop]
        omega
      rw [← hdrop] at rest
      have hrest : ∀ c ∈ b' :: bs ++ tail, (m' c).data = (readvInto size (b' :: bs ++ tail) (bytes.drop size)
          (Function.update m b { m b with data := stored (bytes.take size) (m b).data }) c).data := by
        intro c hc
        rw [hdata c (List.mem_cons_of_mem b hc), readvInto]
      have htail := ih hn' rest (List.prefix_append _ tail) hrest
      have hhead := map_stored (bytes.take size) (m b).data
      rw [htake] at hhead
      rw [payload] at htail
      rw [full, Int.toNat_natCast, hhead, htail, List.take_append_drop]

end Read

end Vppsb.VlibBuffer
