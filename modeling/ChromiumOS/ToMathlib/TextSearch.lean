import Mathlib

/-! # Searching a text for a key at the start of a field

The fields of a text are what stands between its separators. A key without separators stands at the start of
a field when the text starts with it or when it follows a separator, so a search for the separator and the
key finds the first such field after the first.
-/

namespace ChromiumOS.TextSearch

variable {α : Type*} [DecidableEq α]

/-- The first position at which a pattern stands in a text. -/
def find (pattern : List α) : List α → Option ℕ
  | [] => if pattern = [] then some 0 else none
  | head :: text => if pattern <+: head :: text then some 0 else (find pattern text).map (· + 1)

/-- What follows a key in the first of the fields that start with it. -/
def valueOf (key : List α) (fields : List (List α)) : Option (List α) :=
  (fields.find? fun field => key <+: field).map (List.drop key.length)

@[simp] theorem valueOf_nil (key : List α) : valueOf key [] = none := rfl

theorem valueOf_cons (key field : List α) (fields : List (List α)) :
    valueOf key (field :: fields) =
      if key <+: field then some (field.drop key.length) else valueOf key fields := by
  rw [valueOf, List.find?_cons]
  split
  · next starts => rw [if_pos (of_decide_eq_true starts), Option.map_some]
  · next starts => rw [if_neg (of_decide_eq_false starts), valueOf]

theorem valueOf_append (key : List α) (fields later : List (List α)) :
    valueOf key (fields ++ later) = (valueOf key fields).or (valueOf key later) := by
  induction fields with
  | nil => rfl
  | cons field fields ih =>
    rw [List.cons_append, valueOf_cons, valueOf_cons, ih]
    split <;> rfl

theorem valueOf_eq_none {key : List α} {fields : List (List α)} :
    valueOf key fields = none ↔ ∀ field ∈ fields, ¬ key <+: field := by
  rw [valueOf, Option.map_eq_none_iff, List.find?_eq_none]
  simp only [decide_eq_true_eq]

section Fields

variable (separator : α)

/-- The text of the field that starts at a position. -/
def fieldAt (text : List α) (position : ℕ) : List α :=
  (text.drop position).takeWhile (· ≠ separator)

theorem splitOn_eq_cons (text : List α) :
    ∃ later, text.splitOn separator = text.takeWhile (· ≠ separator) :: later := by
  induction text with
  | nil => exact ⟨[], rfl⟩
  | cons head text ih =>
    obtain ⟨later, fields⟩ := ih
    rw [List.splitOn_cons_eq_if_modifyHead, fields]
    by_cases same : head = separator
    · exact ⟨text.takeWhile (· ≠ separator) :: later, by simp [same]⟩
    · exact ⟨later, by simp [same]⟩

variable {separator} {key : List α}

/-- A key without separators that a text starts with is in the first field. -/
theorem isPrefix_takeWhile (clear : separator ∉ key) (text : List α) :
    key <+: text.takeWhile (· ≠ separator) ↔ key <+: text := by
  constructor
  · intro starts
    exact starts.trans (List.takeWhile_prefix _)
  · rintro ⟨rest, rfl⟩
    rw [List.takeWhile_append_of_pos]
    · exact List.prefix_append _ _
    · intro char member
      rw [decide_eq_true_eq]
      rintro rfl
      exact clear member

theorem drop_takeWhile (clear : separator ∉ key) {text : List α} (starts : key <+: text) :
    (text.takeWhile (· ≠ separator)).drop key.length = fieldAt separator text key.length := by
  obtain ⟨rest, rfl⟩ := starts
  rw [List.takeWhile_append_of_pos, List.drop_left, fieldAt, List.drop_left]
  intro char member
  rw [decide_eq_true_eq]
  rintro rfl
  exact clear member

/-- A search for the separator and the key finds the fields after the first. -/
theorem find_separator (clear : separator ∉ key) (text : List α) :
    ((find (separator :: key) text).map fun position => fieldAt separator text (position + 1 + key.length)) =
      valueOf key (text.splitOn separator).tail := by
  induction text with
  | nil => rfl
  | cons head text ih =>
    obtain ⟨later, fields⟩ := splitOn_eq_cons separator text
    have shifted (position : ℕ) : fieldAt separator (head :: text) (position + 1 + 1 + key.length) =
        fieldAt separator text (position + 1 + key.length) := by
      rw [fieldAt, add_right_comm (position + 1) 1, List.drop_succ_cons, ← fieldAt]
    rw [find, List.splitOn_cons_eq_if_modifyHead, fields]
    rw [fields, List.tail_cons] at ih
    by_cases same : head = separator
    · subst same
      have started := isPrefix_takeWhile clear text
      rw [beq_self_eq_true, if_pos rfl, List.tail_cons, valueOf_cons]
      by_cases starts : key <+: text
      · rw [if_pos (List.cons_prefix_cons.mpr ⟨rfl, starts⟩), if_pos (started.mpr starts),
          drop_takeWhile clear starts]
        rw [Option.map_some, fieldAt, zero_add, add_comm 1, List.drop_succ_cons, fieldAt]
      · rw [if_neg (fun both => starts (List.cons_prefix_cons.mp both).2), if_neg (starts ∘ started.mp), ← ih,
          Option.map_map]
        exact Option.map_congr fun position _ => shifted position
    · rw [if_neg (fun both => same (List.cons_prefix_cons.mp both).1.symm), Option.map_map]
      rw [if_neg (by simpa using same), List.modifyHead_cons, List.tail_cons, ← ih]
      exact Option.map_congr fun position _ => shifted position

/-- The position of the first field that starts with a key. -/
def startOf (separator : α) (key text : List α) : Option ℕ :=
  if key <+: text then some 0 else (find (separator :: key) text).map (· + 1)

theorem startOf_value (clear : separator ∉ key) (text : List α) :
    ((startOf separator key text).map fun position => fieldAt separator text (position + key.length)) =
      valueOf key (text.splitOn separator) := by
  obtain ⟨later, fields⟩ := splitOn_eq_cons separator text
  have searched := find_separator clear text
  rw [fields, List.tail_cons] at searched
  have started := isPrefix_takeWhile clear text
  rw [startOf, fields, valueOf_cons]
  by_cases starts : key <+: text
  · rw [if_pos starts, if_pos (started.mpr starts), Option.map_some, drop_takeWhile clear starts, zero_add]
  · rw [if_neg starts, if_neg (starts ∘ started.mp), Option.map_map, ← searched]
    rfl

end Fields

end ChromiumOS.TextSearch
