import ChromiumOS.Model.Autox.ScriptRunner

/-! # The map from keysyms to keys

The map is built in one pass over the keys. It has for every keysym the first key that gives it without Shift, and the
first that gives it with Shift where none does so without, in whatever order the keys come.
-/

namespace ChromiumOS.Autox

namespace KeyboardMapping

variable (mapping : KeyboardMapping)

/-- The keysym of the key with an index when Shift is not held. -/
def plain (i : ℕ) : KeySym := mapping.keysym i 0

/-- The keysym of the key with an index when Shift is held. -/
def shifted (i : ℕ) : KeySym := if 1 < mapping.keysyms_per_keycode then mapping.keysym i 1 else NoSymbol

/-- The keysym that a keycode gives. -/
def gives (held : Bool) (keycode : ℕ) : KeySym :=
  if mapping.min_keycode ≤ keycode ∧ keycode < mapping.min_keycode + mapping.num_keycodes then
    if held then mapping.shifted (keycode - mapping.min_keycode) else mapping.plain (keycode - mapping.min_keycode)
  else NoSymbol

/-- The keysym is on a key. -/
def Occurs (keysym : KeySym) : Prop := keysym ≠ NoSymbol ∧ ∃ held keycode, mapping.gives held keycode = keysym

/-- The first key that gives Shift_L carries no other keysym. -/
def PlainShift : Prop :=
  ∃ keycode, mapping.gives false keycode = XK_Shift_L ∧ mapping.gives true keycode = NoSymbol ∧
    ∀ earlier < keycode, mapping.gives false earlier ≠ XK_Shift_L

/-- The first of some keys with a keysym without Shift, or else the first with Shift. -/
def preferred (count : ℕ) (keysym : KeySym) : Option (KeyCode × Bool) :=
  (((List.range count).find? (mapping.plain · == keysym)).map fun i => (mapping.min_keycode + i, false)).or
    (((List.range count).find? (mapping.shifted · == keysym)).map fun i => (mapping.min_keycode + i, true))

variable {mapping} {keysym : KeySym} {codes : KeyCodes} {i : ℕ}

theorem loadKeySym_other (other : mapping.keysym i j ≠ keysym) : loadKeySym mapping i codes j keysym = codes keysym := by
  rw [loadKeySym]
  split_ifs
  · rfl
  · rfl
  · rfl
  · exact Function.update_of_ne other.symm _ _

/-- A key without Shift replaces one with Shift. -/
theorem loadKeySym_zero (known : keysym ≠ NoSymbol) (here : mapping.keysym i 0 = keysym) :
    loadKeySym mapping i codes 0 keysym =
      if (codes keysym).any (!·.2) then codes keysym else some (mapping.min_keycode + i, false) := by
  rw [loadKeySym, here, if_neg (by decide), if_neg known]
  by_cases found : (codes keysym).any (!·.2) = true
  · rw [if_pos found, if_pos]
    simpa using found
  · rw [if_neg found, if_neg, Function.update_self]
    · rfl
    · simpa using found

/-- A key with Shift replaces no other. -/
theorem loadKeySym_one (known : keysym ≠ NoSymbol) (here : mapping.keysym i 1 = keysym) :
    loadKeySym mapping i codes 1 keysym = (codes keysym).or (some (mapping.min_keycode + i, true)) := by
  rw [loadKeySym, here, if_neg (by decide), if_neg known]
  cases found : codes keysym with
  | none =>
    rw [if_neg (by simp), Function.update_self]
    rfl
  | some code =>
    rw [if_pos (by simp), found]
    rfl

/-- Only the first two keysyms of a key matter. -/
theorem loadKeyCode_eq (mapping : KeyboardMapping) (codes : KeyCodes) (i : ℕ) :
    loadKeyCode mapping codes i =
      if 1 < mapping.keysyms_per_keycode then loadKeySym mapping i (loadKeySym mapping i codes 0) 1
      else loadKeySym mapping i codes 0 := by
  have some_column := mapping.one_keysym
  rw [loadKeyCode]
  generalize mapping.keysyms_per_keycode = columns at some_column ⊢
  induction columns, some_column using Nat.le_induction with
  | base => rfl
  | succ count positive ih =>
    rw [List.range_succ, List.foldl_append, ih, if_pos (show 1 < count + 1 by omega), List.foldl_cons, List.foldl_nil]
    rcases positive.eq_or_lt with one | more
    · rw [← one]
      rfl
    · rw [if_pos more, loadKeySym]
      exact if_pos more

/-- Going through one more key takes its keysyms where no key before gives them as well. -/
theorem loadKeyCode_preferred (known : keysym ≠ NoSymbol) (before : codes keysym = mapping.preferred i keysym) :
    loadKeyCode mapping codes i keysym = mapping.preferred (i + 1) keysym := by
  have first : loadKeySym mapping i codes 0 keysym =
      (((List.range (i + 1)).find? (mapping.plain · == keysym)).map fun i => (mapping.min_keycode + i, false)).or
        (((List.range i).find? (mapping.shifted · == keysym)).map fun i => (mapping.min_keycode + i, true)) := by
    rw [List.range_succ, List.find?_append]
    by_cases here : mapping.keysym i 0 = keysym
    · rw [loadKeySym_zero known here, before, preferred]
      have now : List.find? (mapping.plain · == keysym) [i] = some i :=
        List.find?_cons_of_pos (beq_iff_eq.mpr here)
      cases (List.range i).find? (mapping.plain · == keysym) with
      | some earlier => rfl
      | none =>
        rw [now]
        cases (List.range i).find? (mapping.shifted · == keysym) <;> rfl
    · have now : List.find? (mapping.plain · == keysym) [i] = none :=
        List.find?_eq_none.mpr fun other member equal => here (List.mem_singleton.mp member ▸ beq_iff_eq.mp equal)
      rw [loadKeySym_other here, before, now, Option.or_none]
      rfl
  rw [loadKeyCode_eq, preferred]
  have column : mapping.shifted i = if 1 < mapping.keysyms_per_keycode then mapping.keysym i 1 else NoSymbol := rfl
  rw [List.range_succ (n := i)] at first ⊢
  rw [List.find?_append (p := (mapping.shifted · == keysym))]
  split_ifs with two
  · rw [if_pos two] at column
    by_cases here : mapping.keysym i 1 = keysym
    · rw [loadKeySym_one known here, first]
      have now : List.find? (mapping.shifted · == keysym) [i] = some i :=
        List.find?_cons_of_pos (beq_iff_eq.mpr (column.trans here))
      rw [now]
      cases (List.range i ++ [i]).find? (mapping.plain · == keysym) with
      | some earlier => rfl
      | none => cases (List.range i).find? (mapping.shifted · == keysym) <;> rfl
    · have now : List.find? (mapping.shifted · == keysym) [i] = none := by
        rw [List.find?_cons_of_neg (by rw [column]; simpa using here)]
        rfl
      rw [loadKeySym_other here, first, now, Option.or_none]
  · rw [if_neg two] at column
    have now : List.find? (mapping.shifted · == keysym) [i] = none := by
      rw [List.find?_cons_of_neg (by rw [column]; simpa using known.symm)]
      rfl
    rw [first, now, Option.or_none]

/-- The map has the preferred key for every keysym. -/
theorem LoadKeyboardMapping_eq (known : keysym ≠ NoSymbol) :
    LoadKeyboardMapping mapping keysym = mapping.preferred mapping.num_keycodes keysym := by
  rw [LoadKeyboardMapping]
  induction mapping.num_keycodes with
  | zero => rfl
  | succ count ih =>
    rw [List.range_succ, List.foldl_append, List.foldl_cons, List.foldl_nil]
    exact loadKeyCode_preferred known ih

theorem gives_index (held : Bool) {i : ℕ} (inside : i < mapping.num_keycodes) :
    mapping.gives held (mapping.min_keycode + i) = if held then mapping.shifted i else mapping.plain i := by
  rw [gives, if_pos ⟨Nat.le_add_right _ _, by omega⟩, Nat.add_sub_cancel_left]

theorem gives_known {held : Bool} {keycode : ℕ} (known : keysym ≠ NoSymbol)
    (given : mapping.gives held keycode = keysym) :
    ∃ i < mapping.num_keycodes, keycode = mapping.min_keycode + i ∧
      (if held then mapping.shifted i else mapping.plain i) = keysym := by
  rw [gives] at given
  split at given
  · next inside => exact ⟨keycode - mapping.min_keycode, by omega, by omega, given⟩
  · exact absurd given.symm known

/-- A keysym that the map has without Shift is given by the key without Shift, and by no earlier key. -/
theorem LoadKeyboardMapping_plain {keycode : ℕ} (known : keysym ≠ NoSymbol)
    (found : LoadKeyboardMapping mapping keysym = some (keycode, false)) :
    mapping.gives false keycode = keysym ∧ ∀ earlier < keycode, mapping.gives false earlier ≠ keysym := by
  rw [LoadKeyboardMapping_eq known, preferred] at found
  cases plain : (List.range mapping.num_keycodes).find? (mapping.plain · == keysym) with
  | none =>
    rw [plain] at found
    cases shifted : (List.range mapping.num_keycodes).find? (mapping.shifted · == keysym) <;>
      rw [shifted] at found <;> exact nomatch found
  | some i =>
    rw [plain] at found
    cases found
    obtain ⟨here, member, before⟩ := List.find?_range_eq_some.mp plain
    refine ⟨?_, fun earlier below given => ?_⟩
    · rw [gives_index false (List.mem_range.mp member)]
      exact beq_iff_eq.mp here
    · obtain ⟨j, inside, rfl, value⟩ := gives_known known given
      have none_before := before j (by omega)
      rw [Bool.not_eq_true', beq_eq_false_iff_ne] at none_before
      exact none_before value

/-- A keysym that the map has with Shift is given by the key with Shift, and by no key without. -/
theorem LoadKeyboardMapping_shifted {keycode : ℕ} (known : keysym ≠ NoSymbol)
    (found : LoadKeyboardMapping mapping keysym = some (keycode, true)) :
    mapping.gives true keycode = keysym ∧ ∀ other, mapping.gives false other ≠ keysym := by
  rw [LoadKeyboardMapping_eq known, preferred] at found
  cases plain : (List.range mapping.num_keycodes).find? (mapping.plain · == keysym) with
  | some i =>
    rw [plain] at found
    exact nomatch found
  | none =>
    rw [plain] at found
    cases shifted : (List.range mapping.num_keycodes).find? (mapping.shifted · == keysym) with
    | none =>
      rw [shifted] at found
      exact nomatch found
    | some i =>
      rw [shifted] at found
      cases found
      obtain ⟨here, member, -⟩ := List.find?_range_eq_some.mp shifted
      refine ⟨?_, fun other given => ?_⟩
      · rw [gives_index true (List.mem_range.mp member)]
        exact beq_iff_eq.mp here
      · obtain ⟨j, inside, rfl, value⟩ := gives_known known given
        have none_there := List.find?_range_eq_none.mp plain j inside
        rw [Bool.not_eq_true', beq_eq_false_iff_ne] at none_there
        exact none_there value

/-- Every keysym that is on a key is in the map. -/
theorem Occurs.found (occurs : mapping.Occurs keysym) : ∃ code, LoadKeyboardMapping mapping keysym = some code := by
  obtain ⟨known, held, keycode, given⟩ := occurs
  obtain ⟨i, inside, rfl, value⟩ := gives_known known given
  rw [LoadKeyboardMapping_eq known, preferred]
  cases plain : (List.range mapping.num_keycodes).find? (mapping.plain · == keysym) with
  | some first => exact ⟨_, rfl⟩
  | none =>
    cases shifted : (List.range mapping.num_keycodes).find? (mapping.shifted · == keysym) with
    | some first => exact ⟨_, rfl⟩
    | none =>
      cases held with
      | false =>
        have none_there := List.find?_range_eq_none.mp plain i inside
        rw [Bool.not_eq_true', beq_eq_false_iff_ne] at none_there
        exact absurd value none_there
      | true =>
        have none_there := List.find?_range_eq_none.mp shifted i inside
        rw [Bool.not_eq_true', beq_eq_false_iff_ne] at none_there
        exact absurd value none_there

end KeyboardMapping

end ChromiumOS.Autox
