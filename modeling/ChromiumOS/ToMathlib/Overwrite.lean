import Mathlib

/-! # Overwriting part of a list

The contents of a file under writes at an offset: the elements are put one after another, and a gap between
the old end and the offset is filled. Reading with the filler as default, an overwritten list is the old one
everywhere outside the range.
-/

namespace ChromiumOS.Overwrite

variable {α : Type*} (fill : α)

/-- Put one element at an index, with the filler before it when the list ends earlier. -/
def put (contents : List α) (index : ℕ) (value : α) : List α :=
  if index < contents.length then contents.set index value
  else contents ++ List.replicate (index - contents.length) fill ++ [value]

/-- Put some elements from an index on. -/
def overwrite (contents : List α) (index : ℕ) : List α → List α
  | [] => contents
  | value :: values => overwrite (put fill contents index value) (index + 1) values

theorem getD_padded (contents : List α) (count index : ℕ) :
    (contents ++ List.replicate count fill).getD index fill = contents.getD index fill := by
  rcases Nat.lt_or_ge index contents.length with inside | outside
  · exact List.getD_append _ _ _ _ inside
  · rw [List.getD_append_right _ _ _ _ outside, List.getD_eq_default _ _ outside]
    simp only [List.getD_eq_getElem?_getD, List.getElem?_replicate]
    split
    · rfl
    · rfl

theorem getD_put (contents : List α) (index : ℕ) (value : α) (other : ℕ) :
    (put fill contents index value).getD other fill = if other = index then value else contents.getD other fill := by
  rw [put]
  split
  · next inside =>
    simp only [List.getD_eq_getElem?_getD, List.getElem?_set, eq_comm (a := index), if_pos inside]
    split
    · rfl
    · rfl
  · next outside =>
    have length : (contents ++ List.replicate (index - contents.length) fill).length = index := by
      rw [List.length_append, List.length_replicate]
      omega
    rcases lt_trichotomy other index with before | rfl | after
    · rw [if_neg before.ne, List.getD_append _ _ _ _ (by omega), getD_padded]
    · rw [if_pos rfl, List.getD_append_right _ _ _ _ length.le, length, Nat.sub_self]
      rfl
    · rw [if_neg after.ne', List.getD_eq_default _ _ (by rw [List.length_append, length]; exact after),
        List.getD_eq_default _ _ (by omega)]

/-- What is read from an overwritten list. -/
theorem getD_overwrite (values contents : List α) (index other : ℕ) :
    (overwrite fill contents index values).getD other fill =
      if index ≤ other ∧ other < index + values.length then values.getD (other - index) fill
      else contents.getD other fill := by
  induction values generalizing contents index with
  | nil =>
    rw [overwrite, if_neg]
    simp
  | cons value values ih =>
    rw [overwrite, ih, getD_put]
    rcases lt_trichotomy other index with before | rfl | after
    · rw [if_neg (by omega), if_neg before.ne, if_neg (by omega)]
    · rw [if_neg (by omega), if_pos rfl, if_pos (by simp), Nat.sub_self, List.getD_cons_zero]
    · have behind : other - index = other - (index + 1) + 1 := by omega
      rw [if_neg after.ne', behind, List.getD_cons_succ, List.length_cons]
      exact if_congr (by omega) rfl rfl

theorem length_overwrite {values contents : List α} {index : ℕ} (fits : index + values.length ≤ contents.length) :
    (overwrite fill contents index values).length = contents.length := by
  induction values generalizing contents index with
  | nil => rfl
  | cons value values ih =>
    rw [List.length_cons] at fits
    have same : (put fill contents index value).length = contents.length := by
      rw [put, if_pos (by omega), List.length_set]
    rw [overwrite, ih (by omega), same]

/-- Elements put after others are put behind them. -/
theorem overwrite_append (contents : List α) (index : ℕ) (first second : List α) :
    overwrite fill contents index (first ++ second) =
      overwrite fill (overwrite fill contents index first) (index + first.length) second := by
  induction first generalizing contents index with
  | nil => rfl
  | cons value first ih =>
    rw [List.cons_append, overwrite, ih, overwrite, List.length_cons]
    congr 1
    omega

end ChromiumOS.Overwrite
