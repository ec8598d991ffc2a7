import Mathlib.Data.List.Basic

namespace Vppsb.GrowVec

variable {α : Type} {v : List α} {a x : α} {i j : Nat}

/-- `vec_validate_init_empty`: the vector grows until it has index `i`. -/
def validate (v : List α) (i : Nat) (a : α) : List α := v ++ List.replicate (i + 1 - v.length) a

/-- A validated vector reads as before, where one past the end reads as `a`. -/
theorem getD_validate : (validate v i a).getD j a = v.getD j a := by
  rw [validate, List.getD_eq_getElem?_getD, List.getD_eq_getElem?_getD]
  by_cases hj : j < v.length
  · rw [List.getElem?_append_left hj]
  · have hle : v.length ≤ j := Nat.not_lt.mp hj
    rw [List.getElem?_append_right hle, List.getElem?_eq_none hle, List.getElem?_replicate]
    split <;> rfl

theorem lt_length_validate : i < (validate v i a).length := by
  rw [validate, List.length_append, List.length_replicate]
  omega

theorem length_le_validate : v.length ≤ (validate v i a).length := by
  rw [validate, List.length_append]
  exact Nat.le_add_right _ _

theorem getD_set (hi : i < v.length) : (v.set i x).getD j a = if j = i then x else v.getD j a := by
  rw [List.getD_eq_getElem?_getD, List.getElem?_set, List.getD_eq_getElem?_getD]
  by_cases hj : i = j
  · subst hj
    simp [hi]
  · simp [hj, Ne.symm hj]

theorem lt_length_of_getD_ne (h : v.getD i a ≠ a) : i < v.length := by
  by_contra hn
  rw [List.getD_eq_getElem?_getD, List.getElem?_eq_none (Nat.not_lt.mp hn)] at h
  exact h rfl

theorem getElem?_of_lt (hi : i < v.length) : v[i]? = some (v.getD i a) := by
  rw [List.getD_eq_getElem?_getD, List.getElem?_eq_getElem hi, Option.getD_some]

end Vppsb.GrowVec
