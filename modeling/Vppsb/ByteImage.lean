import Mathlib.Data.List.GetD

namespace Vppsb.ByteImage

/-- The memory holds these bytes from the offset on. -/
def Holds (mem : Nat → UInt8) (off : Nat) (bytes : List UInt8) : Prop :=
  ∀ i (h : i < bytes.length), mem (off + i) = bytes[i]

def le16 (n : Nat) : List UInt8 := [UInt8.ofNat n, UInt8.ofNat (n / 256)]

def le32 (n : Nat) : List UInt8 := le16 n ++ le16 (n / 65536)

def padded (l : List UInt8) : List UInt8 := l ++ List.replicate ((4 - l.length % 4) % 4) 0

def word (mem : Nat → UInt8) (off : Nat) : Nat := (mem off).toNat + 256 * (mem (off + 1)).toNat

variable {mem : Nat → UInt8} {off n : Nat} {l r : List UInt8}

theorem holds_append : Holds mem off (l ++ r) ↔ Holds mem off l ∧ Holds mem (off + l.length) r := by
  constructor
  · intro h
    refine ⟨fun i hi => ?_, fun i hi => ?_⟩
    · rw [h i (by rw [List.length_append]; omega), List.getElem_append_left hi]
    · have hlt : l.length + i < (l ++ r).length := by
        rw [List.length_append]
        omega
      have hm := h (l.length + i) hlt
      rw [← Nat.add_assoc] at hm
      rw [hm, List.getElem_append_right (Nat.le_add_right _ _)]
      congr 1
      omega
  · rintro ⟨hl, hr⟩ i hi
    by_cases hlt : i < l.length
    · rw [List.getElem_append_left hlt]
      exact hl i hlt
    · rw [List.length_append] at hi
      have hm := hr (i - l.length) (by omega)
      rw [List.getElem_append_right (by omega), ← hm]
      congr 1
      omega

theorem holds_getD (l : List UInt8) : Holds (fun i => l.getD i 0) 0 l := by
  intro i hi
  rw [Nat.zero_add]
  exact List.getD_eq_getElem l 0 hi

theorem holds_shift (k : Nat) : Holds (fun i => mem (k + i)) off l ↔ Holds mem (k + off) l := by
  simp only [Holds, Nat.add_assoc]

theorem holds_le16 (h : Holds mem off (le16 n)) (hn : n < 65536) : word mem off = n := by
  have h0 := h 0 Nat.zero_lt_two
  have h1 := h 1 Nat.one_lt_two
  rw [word, ← Nat.add_zero off, h0, Nat.add_zero, h1]
  simp only [le16, List.getElem_cons_zero, List.getElem_cons_succ, UInt8.toNat_ofNat']
  omega

theorem holds_le32 (h : Holds mem off (le32 n)) (hn : n < 4294967296) :
    word mem off + 65536 * word mem (off + 2) = n := by
  obtain ⟨hl, hr⟩ := holds_append.mp h
  have hlow : Holds mem off (le16 (n % 65536)) := by
    have he : le16 (n % 65536) = le16 n := by
      simp only [le16, List.cons.injEq, and_true]
      constructor <;> apply UInt8.toNat_inj.mp <;> simp only [UInt8.toNat_ofNat'] <;> omega
    rwa [he]
  have hhigh : word mem (off + 2) = n / 65536 := holds_le16 hr (by omega)
  rw [holds_le16 hlow (Nat.mod_lt _ (by decide)), hhigh]
  omega

theorem length_padded (l : List UInt8) : (padded l).length = (l.length + 3) / 4 * 4 := by
  rw [padded, List.length_append, List.length_replicate]
  omega

theorem holds_padded (h : Holds mem off (padded l)) : Holds mem off l := (holds_append.mp h).1

end Vppsb.ByteImage
