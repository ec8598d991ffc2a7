import Mathlib.Algebra.Group.Int.Defs
import Mathlib.Algebra.Group.Nat.Defs
import Vppsb.VcomTimeLeft

namespace Vppsb.VcomTimespec

open Vppsb.VcomTimeLeft

/-- `struct timespec` as the two words that it is. -/
structure Timespec where
  sec : Int64
  nsec : Int64

def nsecPerSec : Int64 := 1000000000

theorem toInt_nsecPerSec : nsecPerSec.toInt = 1000000000 := by decide

def InWord (n : Int) : Prop := -2 ^ 63 ≤ n ∧ n < 2 ^ 63

section Words

variable {x y : Int64}

theorem inWord_toInt (x : Int64) : InWord x.toInt := ⟨x.le_toInt, x.toInt_lt⟩

theorem bmod_of_inWord {n : Int} (h : InWord n) : n.bmod (2 ^ 64) = n := by
  obtain ⟨hl, hu⟩ := h
  apply Int.bmod_eq_of_le <;> omega

theorem toInt_add_of_inWord (h : InWord (x.toInt + y.toInt)) : (x + y).toInt = x.toInt + y.toInt := by
  rw [Int64.toInt_add, bmod_of_inWord h]

theorem toInt_sub_of_inWord (h : InWord (x.toInt - y.toInt)) : (x - y).toInt = x.toInt - y.toInt := by
  rw [Int64.toInt_sub, bmod_of_inWord h]

theorem toInt_lower (h : nsecPerSec ≤ x) : (x - nsecPerSec).toInt = x.toInt - 1000000000 := by
  rw [Int64.le_iff_toInt_le, toInt_nsecPerSec] at h
  have hx := (inWord_toInt x).2
  rw [toInt_sub_of_inWord, toInt_nsecPerSec]
  rw [toInt_nsecPerSec]
  exact ⟨by omega, by omega⟩

theorem toInt_raise (h : x < 0) : (x + nsecPerSec).toInt = x.toInt + 1000000000 := by
  rw [Int64.lt_iff_toInt_lt, Int64.toInt_zero] at h
  have hx := (inWord_toInt x).1
  rw [toInt_add_of_inWord, toInt_nsecPerSec]
  rw [toInt_nsecPerSec]
  exact ⟨by omega, by omega⟩

end Words

def carryLoop (sec nsec : Int64) : Int64 × Int64 :=
  if nsecPerSec ≤ nsec then carryLoop (sec + 1) (nsec - nsecPerSec) else (sec, nsec)
termination_by nsec.toInt.toNat
decreasing_by
  rename_i h
  rw [toInt_lower h]
  rw [Int64.le_iff_toInt_le, toInt_nsecPerSec] at h
  omega

def borrowLoop (sec nsec : Int64) : Int64 × Int64 :=
  if nsec < 0 then borrowLoop (sec - 1) (nsec + nsecPerSec) else (sec, nsec)
termination_by (-nsec.toInt).toNat
decreasing_by
  rename_i h
  rw [toInt_raise h]
  rw [Int64.lt_iff_toInt_lt, Int64.toInt_zero] at h
  omega

def setNormalizedTimespec (sec nsec : Int64) : Timespec :=
  let (sec, nsec) := carryLoop sec nsec
  let (sec, nsec) := borrowLoop sec nsec
  ⟨sec, nsec⟩

def timespecAdd (lhs rhs : Timespec) : Timespec :=
  setNormalizedTimespec (lhs.sec + rhs.sec) (lhs.nsec + rhs.nsec)

def timespecSub (lhs rhs : Timespec) : Timespec :=
  setNormalizedTimespec (lhs.sec - rhs.sec) (lhs.nsec - rhs.nsec)

/-- The difference of the nanoseconds is returned as an `int`. -/
def timespecCompare (lhs rhs : Timespec) : Int32 :=
  if lhs.sec < rhs.sec then -1
  else if rhs.sec < lhs.sec then 1
  else (lhs.nsec - rhs.nsec).toInt32

structure Carried (sec nsec : Int64) (k : Int) (r : Int64 × Int64) : Prop where
  sec : r.1.toInt = (sec.toInt + k).bmod (2 ^ 64)
  nsec : r.2.toInt = nsec.toInt - k * 1000000000

section Loops

variable {sec nsec : Int64} {k : Int} {r : Int64 × Int64}

theorem carried_zero (sec nsec : Int64) : Carried sec nsec 0 (sec, nsec) where
  sec := by rw [Int.add_zero, bmod_of_inWord (inWord_toInt sec)]
  nsec := by rw [Int.zero_mul, Int.sub_zero]

theorem Carried.up (h : nsecPerSec ≤ nsec) (hc : Carried (sec + 1) (nsec - nsecPerSec) k r) :
    Carried sec nsec (k + 1) r where
  sec := by
    rw [hc.sec, Int64.toInt_add, Int64.toInt_one, Int.bmod_add_bmod, Int.add_assoc, Int.add_comm 1]
  nsec := by
    rw [hc.nsec, toInt_lower h]
    omega

theorem Carried.down (h : nsec < 0) (hc : Carried (sec - 1) (nsec + nsecPerSec) k r) :
    Carried sec nsec (k - 1) r where
  sec := by
    rw [hc.sec, Int64.toInt_sub, Int64.toInt_one, Int.bmod_add_bmod]
    congr 1
    omega
  nsec := by
    rw [hc.nsec, toInt_raise h]
    omega

theorem Carried.trans {sec' nsec' : Int64} {l : Int} (hk : Carried sec nsec k (sec', nsec'))
    (hl : Carried sec' nsec' l r) : Carried sec nsec (k + l) r where
  sec := by rw [hl.sec, hk.sec, Int.bmod_add_bmod, Int.add_assoc]
  nsec := by
    rw [hl.nsec, hk.nsec]
    omega

theorem carryLoop_spec (sec nsec : Int64) : ∃ k, Carried sec nsec k (carryLoop sec nsec) ∧
    (carryLoop sec nsec).2.toInt < 1000000000 ∧
      (0 ≤ nsec.toInt → 0 ≤ (carryLoop sec nsec).2.toInt) := by
  induction sec, nsec using carryLoop.induct with
  | case1 sec nsec h ih =>
    obtain ⟨k, hc, hlt, hpos⟩ := ih
    rw [carryLoop, if_pos h]
    refine ⟨k + 1, hc.up h, hlt, fun _ => hpos ?_⟩
    rw [toInt_lower h]
    rw [Int64.le_iff_toInt_le, toInt_nsecPerSec] at h
    omega
  | case2 sec nsec h =>
    rw [carryLoop, if_neg h]
    rw [Int64.le_iff_toInt_le, toInt_nsecPerSec] at h
    exact ⟨0, carried_zero sec nsec, Int.not_le.mp h, id⟩

theorem borrowLoop_spec (sec nsec : Int64) (hlt : nsec.toInt < 1000000000) :
    ∃ k, Carried sec nsec k (borrowLoop sec nsec) ∧
      0 ≤ (borrowLoop sec nsec).2.toInt ∧ (borrowLoop sec nsec).2.toInt < 1000000000 := by
  induction sec, nsec using borrowLoop.induct with
  | case1 sec nsec h ih =>
    have hn : nsec.toInt < 0 := by
      rwa [Int64.lt_iff_toInt_lt, Int64.toInt_zero] at h
    obtain ⟨k, hc, hpos, hlt⟩ := ih (by rw [toInt_raise h]; omega)
    rw [borrowLoop, if_pos h]
    exact ⟨k - 1, hc.down h, hpos, hlt⟩
  | case2 sec nsec h =>
    rw [borrowLoop, if_neg h]
    rw [Int64.lt_iff_toInt_lt, Int64.toInt_zero] at h
    exact ⟨0, carried_zero sec nsec, Int.not_lt.mp h, hlt⟩

/-- Without bounds: the words of the result, where seconds wrap around. -/
theorem setNormalizedTimespec_words (sec nsec : Int64) :
    (setNormalizedTimespec sec nsec).sec.toInt =
        (sec.toInt + nsec.toInt / 1000000000).bmod (2 ^ 64) ∧
      (setNormalizedTimespec sec nsec).nsec.toInt = nsec.toInt % 1000000000 := by
  obtain ⟨k, hk, hlt, _⟩ := carryLoop_spec sec nsec
  obtain ⟨l, hl, hpos, hlt'⟩ := borrowLoop_spec (carryLoop sec nsec).1 (carryLoop sec nsec).2 hlt
  have hkl : Carried sec nsec (k + l) _ := hk.trans hl
  have hn := hkl.nsec
  have hdiv : k + l = nsec.toInt / 1000000000 := by omega
  constructor
  · rw [← hdiv]
    exact hkl.sec
  · show (borrowLoop (carryLoop sec nsec).1 (carryLoop sec nsec).2).2.toInt = _
    rw [hn, hdiv]
    omega

end Loops

def Timespec.value (ts : Timespec) : VcomSelect.Timespec := ⟨ts.sec.toInt, ts.nsec.toInt⟩

def Normalized (ts : Timespec) : Prop := 0 ≤ ts.nsec.toInt ∧ ts.nsec.toInt < 1000000000

/-- So many nanoseconds have a normalized form. -/
def Fits (n : Int) : Prop := InWord (n / 1000000000)

section Exact

variable {a b : Timespec} {sec nsec : Int64}

theorem setNormalizedTimespec_normalized (sec nsec : Int64) :
    Normalized (setNormalizedTimespec sec nsec) := by
  rw [Normalized, (setNormalizedTimespec_words sec nsec).2]
  exact ⟨by omega, by omega⟩

/-- The loops compute what division does. -/
theorem value_setNormalizedTimespec (h : Fits (sec.toInt * 1000000000 + nsec.toInt)) :
    (setNormalizedTimespec sec nsec).value =
      VcomSelect.setNormalizedTimespec sec.toInt nsec.toInt := by
  obtain ⟨hs, hn⟩ := setNormalizedTimespec_words sec nsec
  have hdiv : (sec.toInt * 1000000000 + nsec.toInt) / 1000000000 =
      sec.toInt + nsec.toInt / 1000000000 := by omega
  rw [Fits, hdiv] at h
  rw [Timespec.value, hs, hn, bmod_of_inWord h]
  rfl

theorem nanos_value (ts : Timespec) :
    nanos ts.value = ts.sec.toInt * 1000000000 + ts.nsec.toInt := rfl

theorem value_timespecAdd (hn : InWord (a.nsec.toInt + b.nsec.toInt))
    (h : Fits (nanos a.value + nanos b.value)) :
    (timespecAdd a b).value = VcomSelect.timespecAdd a.value b.value := by
  obtain ⟨hsec, hnsec⟩ := setNormalizedTimespec_words (a.sec + b.sec) (a.nsec + b.nsec)
  rw [toInt_add_of_inWord hn] at hsec hnsec
  rw [Int64.toInt_add, Int.bmod_add_bmod] at hsec
  have hdiv : (nanos a.value + nanos b.value) / 1000000000 =
      a.sec.toInt + b.sec.toInt + (a.nsec.toInt + b.nsec.toInt) / 1000000000 := by
    rw [nanos_value, nanos_value]
    omega
  rw [Fits, hdiv] at h
  rw [timespecAdd, Timespec.value, hsec, hnsec, bmod_of_inWord h]
  rfl

theorem value_timespecSub (hn : InWord (a.nsec.toInt - b.nsec.toInt))
    (h : Fits (nanos a.value - nanos b.value)) :
    (timespecSub a b).value = VcomSelect.timespecSub a.value b.value := by
  obtain ⟨hsec, hnsec⟩ := setNormalizedTimespec_words (a.sec - b.sec) (a.nsec - b.nsec)
  rw [toInt_sub_of_inWord hn] at hsec hnsec
  rw [Int64.toInt_sub, Int.bmod_add_bmod] at hsec
  have hdiv : (nanos a.value - nanos b.value) / 1000000000 =
      a.sec.toInt - b.sec.toInt + (a.nsec.toInt - b.nsec.toInt) / 1000000000 := by
    rw [nanos_value, nanos_value]
    omega
  rw [Fits, hdiv] at h
  rw [timespecSub, Timespec.value, hsec, hnsec, bmod_of_inWord h]
  rfl

theorem value_timespecCompare (ha : Normalized a) (hb : Normalized b) :
    (timespecCompare a b).toInt = VcomSelect.timespecCompare a.value b.value := by
  obtain ⟨ha₀, ha₁⟩ := ha
  obtain ⟨hb₀, hb₁⟩ := hb
  have hsub : (a.nsec - b.nsec).toInt = a.nsec.toInt - b.nsec.toInt :=
    toInt_sub_of_inWord ⟨by omega, by omega⟩
  have hnarrow : (a.nsec - b.nsec).toInt32.toInt = a.nsec.toInt - b.nsec.toInt := by
    rw [Int64.toInt_toInt32, hsub]
    apply Int.bmod_eq_of_le <;> omega
  simp only [timespecCompare, VcomSelect.timespecCompare, Timespec.value, gt_iff_lt,
    ← Int64.lt_iff_toInt_lt, apply_ite Int32.toInt, hnarrow]
  rfl

theorem Timespec.ext_value (h : a.value = b.value) : a = b := by
  obtain ⟨hs, hn⟩ := VcomSelect.Timespec.mk.inj h
  cases a
  cases b
  rw [Int64.toInt_inj] at hs hn
  obtain rfl := hs
  obtain rfl := hn
  rfl

theorem nanos_setNormalizedTimespec (h : Fits (sec.toInt * 1000000000 + nsec.toInt)) :
    nanos (setNormalizedTimespec sec nsec).value = sec.toInt * 1000000000 + nsec.toInt := by
  rw [value_setNormalizedTimespec h, VcomTimeLeft.nanos_setNormalizedTimespec]
  rfl

theorem nanos_timespecAdd (hn : InWord (a.nsec.toInt + b.nsec.toInt))
    (h : Fits (nanos a.value + nanos b.value)) :
    nanos (timespecAdd a b).value = nanos a.value + nanos b.value := by
  rw [value_timespecAdd hn h, VcomTimeLeft.nanos_timespecAdd]

theorem nanos_timespecSub (hn : InWord (a.nsec.toInt - b.nsec.toInt))
    (h : Fits (nanos a.value - nanos b.value)) :
    nanos (timespecSub a b).value = nanos a.value - nanos b.value := by
  rw [value_timespecSub hn h, VcomSelect.timespecSub, VcomTimeLeft.nanos_setNormalizedTimespec]
  simp only [nanos, VcomSelect.nsecPerSec]
  omega

theorem timespecSub_timespecAdd (ha : Normalized a) (hb : Normalized b) :
    timespecSub (timespecAdd a b) b = a := by
  obtain ⟨ha₀, ha₁⟩ := ha
  obtain ⟨hb₀, hb₁⟩ := hb
  obtain ⟨hs, hn⟩ := setNormalizedTimespec_words (a.sec + b.sec) (a.nsec + b.nsec)
  obtain ⟨hs', hn'⟩ := setNormalizedTimespec_words ((timespecAdd a b).sec - b.sec)
    ((timespecAdd a b).nsec - b.nsec)
  have hsum : (a.nsec + b.nsec).toInt = a.nsec.toInt + b.nsec.toInt :=
    toInt_add_of_inWord ⟨by omega, by omega⟩
  rw [hsum] at hs hn
  rw [Int64.toInt_add, Int.bmod_add_bmod] at hs
  have hdiff : ((timespecAdd a b).nsec - b.nsec).toInt =
      (a.nsec.toInt + b.nsec.toInt) % 1000000000 - b.nsec.toInt := by
    rw [timespecAdd, toInt_sub_of_inWord, hn]
    rw [hn]
    exact ⟨by omega, by omega⟩
  have hsec : a.sec.toInt + b.sec.toInt + (a.nsec.toInt + b.nsec.toInt) / 1000000000 -
      b.sec.toInt + ((a.nsec.toInt + b.nsec.toInt) % 1000000000 - b.nsec.toInt) / 1000000000 =
      a.sec.toInt := by omega
  rw [hdiff] at hs' hn'
  apply Timespec.ext_value
  rw [Timespec.value, Timespec.value, VcomSelect.Timespec.mk.injEq]
  constructor
  · show (setNormalizedTimespec _ _).sec.toInt = a.sec.toInt
    rw [hs', Int64.toInt_sub, timespecAdd, hs, Int.bmod_sub_bmod, Int.bmod_add_bmod, hsec,
      bmod_of_inWord (inWord_toInt a.sec)]
  · show (setNormalizedTimespec _ _).nsec.toInt = a.nsec.toInt
    rw [hn']
    omega

theorem sign_timespecCompare (ha : Normalized a) (hb : Normalized b) :
    (timespecCompare a b).toInt.sign = (nanos a.value - nanos b.value).sign := by
  obtain ⟨ha₀, ha₁⟩ := ha
  obtain ⟨hb₀, hb₁⟩ := hb
  rw [value_timespecCompare ⟨ha₀, ha₁⟩ ⟨hb₀, hb₁⟩, nanos_value, nanos_value]
  simp only [VcomSelect.timespecCompare, Timespec.value, gt_iff_lt]
  split
  · rw [Int.sign_eq_neg_one_of_neg (by decide), Int.sign_eq_neg_one_of_neg (by omega)]
  · split
    · rw [Int.sign_eq_one_of_pos (by decide), Int.sign_eq_one_of_pos (by omega)]
    · congr 1
      omega

end Exact

/-- The arithmetic that the deadline of `vcom_select` and its time left rest on. -/
theorem timespec_exact :
    (∀ sec nsec : Int64, Fits (sec.toInt * 1000000000 + nsec.toInt) →
      Normalized (setNormalizedTimespec sec nsec) ∧
        nanos (setNormalizedTimespec sec nsec).value = sec.toInt * 1000000000 + nsec.toInt) ∧
    (∀ a b : Timespec, InWord (a.nsec.toInt + b.nsec.toInt) →
      Fits (nanos a.value + nanos b.value) →
      Normalized (timespecAdd a b) ∧
        nanos (timespecAdd a b).value = nanos a.value + nanos b.value) ∧
    (∀ a b : Timespec, InWord (a.nsec.toInt - b.nsec.toInt) →
      Fits (nanos a.value - nanos b.value) →
      Normalized (timespecSub a b) ∧
        nanos (timespecSub a b).value = nanos a.value - nanos b.value) ∧
    ∀ a b : Timespec, Normalized a → Normalized b →
      timespecSub (timespecAdd a b) b = a ∧
        (timespecCompare a b).toInt.sign = (nanos a.value - nanos b.value).sign := by
  refine ⟨fun sec nsec h => ?_, fun a b hn h => ?_, fun a b hn h => ?_, fun a b ha hb => ?_⟩
  · exact ⟨setNormalizedTimespec_normalized sec nsec, nanos_setNormalizedTimespec h⟩
  · exact ⟨setNormalizedTimespec_normalized _ _, nanos_timespecAdd hn h⟩
  · exact ⟨setNormalizedTimespec_normalized _ _, nanos_timespecSub hn h⟩
  · exact ⟨timespecSub_timespecAdd ha hb, sign_timespecCompare ha hb⟩

theorem timespec_exact_sample :
    nanos (setNormalizedTimespec 5 (-1)).value = 4999999999 ∧
      nanos (timespecAdd ⟨1, 600000000⟩ ⟨2, 700000000⟩).value = 4300000000 ∧
      nanos (timespecSub ⟨1, 600000000⟩ ⟨2, 700000000⟩).value = -1100000000 ∧
      timespecSub (timespecAdd ⟨1, 600000000⟩ ⟨2, 700000000⟩) ⟨2, 700000000⟩ = ⟨1, 600000000⟩ := by
  obtain ⟨hset, hadd, hsub, hboth⟩ := timespec_exact
  refine ⟨?_, ?_, ?_, ?_⟩
  · exact (hset 5 (-1) ⟨by decide, by decide⟩).2.trans (by decide)
  · have h := hadd ⟨1, 600000000⟩ ⟨2, 700000000⟩ ⟨by decide, by decide⟩ ⟨by decide, by decide⟩
    exact h.2.trans (by decide)
  · have h := hsub ⟨1, 600000000⟩ ⟨2, 700000000⟩ ⟨by decide, by decide⟩ ⟨by decide, by decide⟩
    exact h.2.trans (by decide)
  · exact (hboth ⟨1, 600000000⟩ ⟨2, 700000000⟩ ⟨by decide, by decide⟩ ⟨by decide, by decide⟩).1

end Vppsb.VcomTimespec
