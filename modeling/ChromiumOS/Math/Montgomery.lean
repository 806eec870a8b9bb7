import Mathlib

/-! # Montgomery arithmetic over the natural numbers

Facts about a modulus, a radix and a residue form, with no words and no program. A reduction step
makes one low digit vanish; a fold of such steps divides by a power of the radix; a value in
Montgomery form keeps it under multiplication. The representation stays lazy: a value is only
required to be congruent to the residue it stands for.
-/

namespace ChromiumOS.Montgomery

/-- Adding the right multiple of the modulus clears the low digit. -/
theorem dvd_add_mul_modulus {base modulus inverse : ℕ} (unit : base ∣ modulus * inverse + 1)
    (value : ℕ) : base ∣ value + (value * inverse % base) * modulus := by
  apply (Nat.modEq_zero_iff_dvd).mp
  have digit : value * inverse % base ≡ value * inverse [MOD base] := Nat.mod_modEq _ _
  have clear : value * (modulus * inverse + 1) ≡ 0 [MOD base] :=
    (Nat.modEq_zero_iff_dvd).mpr (unit.mul_left value)
  calc
    value + (value * inverse % base) * modulus ≡ value + value * inverse * modulus [MOD base] :=
      (digit.mul_right modulus).add_left value
    _ = value * (modulus * inverse + 1) := by ring
    _ ≡ 0 [MOD base] := clear

section Fold

variable {γ ω : Type*} (base modulus multiplicand : ℕ) (value : γ → ℕ) (digit : ω → ℕ)
  (Valid : γ → Prop) (step : γ → ω → γ)

/-- Word-serial multiplication: a step that divides by the radix, folded over the digits of the
multiplier, divides the whole product by the corresponding power of the radix. -/
theorem foldl_modEq
    (each : ∀ acc word, Valid acc → Valid (step acc word) ∧
      base * value (step acc word) ≡ value acc + digit word * multiplicand [MOD modulus])
    (words : List ω) {acc : γ} (valid : Valid acc) :
    Valid (words.foldl step acc) ∧
      base ^ words.length * value (words.foldl step acc) ≡
        value acc + Nat.ofDigits base (words.map digit) * multiplicand [MOD modulus] := by
  induction words generalizing acc with
  | nil => simpa using ⟨valid, Nat.ModEq.refl _⟩
  | cons word rest ih =>
    obtain ⟨validNext, first⟩ := each acc word valid
    obtain ⟨validLast, last⟩ := ih validNext
    refine ⟨validLast, ?_⟩
    simp only [List.foldl_cons, List.length_cons, List.map_cons, Nat.ofDigits_cons]
    calc
      base ^ (rest.length + 1) * value (rest.foldl step (step acc word)) =
          base * (base ^ rest.length * value (rest.foldl step (step acc word))) := by ring
      _ ≡ base * (value (step acc word) +
            Nat.ofDigits base (rest.map digit) * multiplicand) [MOD modulus] := last.mul_left base
      _ = base * value (step acc word) +
            base * Nat.ofDigits base (rest.map digit) * multiplicand := by ring
      _ ≡ value acc + digit word * multiplicand +
            base * Nat.ofDigits base (rest.map digit) * multiplicand [MOD modulus] :=
          first.add_right _
      _ = value acc +
            (digit word + base * Nat.ofDigits base (rest.map digit)) * multiplicand := by ring

end Fold

section Form

variable {radix modulus : ℕ}

/-- `stored` stands for the residue `value` in Montgomery form. -/
def InForm (radix modulus stored value : ℕ) : Prop := stored ≡ value * radix [MOD modulus]

/-- Multiplication of two stored values followed by one division by the radix. -/
def IsProduct (radix modulus result left right : ℕ) : Prop :=
  radix * result ≡ left * right [MOD modulus]

/-- Dividing by the radix is harmless when it is a unit. -/
theorem cancel_radix (unit : Nat.Coprime modulus radix) {left right : ℕ}
    (scaled : radix * left ≡ radix * right [MOD modulus]) : left ≡ right [MOD modulus] :=
  Nat.ModEq.cancel_left_of_coprime unit scaled

theorem InForm.of_square (unit : Nat.Coprime modulus radix) {stored value square : ℕ}
    (isSquare : square ≡ radix ^ 2 [MOD modulus])
    (product : IsProduct radix modulus stored value square) :
    InForm radix modulus stored value := by
  apply cancel_radix unit
  calc
    radix * stored ≡ value * square [MOD modulus] := product
    _ ≡ value * radix ^ 2 [MOD modulus] := isSquare.mul_left value
    _ = radix * (value * radix) := by ring

theorem InForm.mul (unit : Nat.Coprime modulus radix) {result left right u v : ℕ}
    (leftForm : InForm radix modulus left u) (rightForm : InForm radix modulus right v)
    (product : IsProduct radix modulus result left right) :
    InForm radix modulus result (u * v) := by
  apply cancel_radix unit
  calc
    radix * result ≡ left * right [MOD modulus] := product
    _ ≡ (u * radix) * (v * radix) [MOD modulus] := Nat.ModEq.mul leftForm rightForm
    _ = radix * (u * v * radix) := by ring

/-- Multiplying by a plain value leaves Montgomery form. -/
theorem InForm.leave (unit : Nat.Coprime modulus radix) {result stored u v : ℕ}
    (form : InForm radix modulus stored u) (product : IsProduct radix modulus result stored v) :
    result ≡ u * v [MOD modulus] := by
  apply cancel_radix unit
  calc
    radix * result ≡ stored * v [MOD modulus] := product
    _ ≡ (u * radix) * v [MOD modulus] := Nat.ModEq.mul_right v form
    _ = radix * (u * v) := by ring

end Form

/-- A value below twice the modulus is reduced by at most one subtraction. -/
theorem sub_eq_mod {stored value modulus : ℕ} (bound : stored < 2 * modulus)
    (congruent : stored ≡ value [MOD modulus]) :
    (if modulus ≤ stored then stored - modulus else stored) = value % modulus := by
  rw [← congruent]
  split
  · next large =>
    rw [Nat.mod_eq_sub_mod large, Nat.mod_eq_of_lt (by omega)]
  · next small => rw [Nat.mod_eq_of_lt (by omega)]

end ChromiumOS.Montgomery
