import Mathlib

/-! # Powers modulo a product of distinct primes

An exponent that is one modulo every `p - 1` leaves every base unchanged, units or not. This is what
makes a private exponent undo the public one.
-/

namespace ChromiumOS.RsaPower

/-- Fermat's little theorem for every base, with the exponent given modulo `p - 1`. -/
theorem pow_modEq_self_of_prime {p exponent : ℕ} (prime : p.Prime) (unit : exponent % (p - 1) = 1)
    (base : ℕ) : base ^ exponent ≡ base [MOD p] := by
  have fact : Fact p.Prime := ⟨prime⟩
  rw [← ZMod.natCast_eq_natCast_iff, Nat.cast_pow]
  by_cases zero : (base : ZMod p) = 0
  · have positive : exponent ≠ 0 := by
      rintro rfl
      rw [Nat.zero_mod] at unit
      exact absurd unit (by decide)
    rw [zero, zero_pow positive]
  · have split := Nat.div_add_mod exponent (p - 1)
    rw [unit] at split
    rw [← split, pow_add, pow_mul, ZMod.pow_card_sub_one_eq_one zero, one_pow, one_mul, pow_one]

theorem pow_modEq_self {primes : List ℕ} {exponent : ℕ} (prime : ∀ p ∈ primes, p.Prime)
    (distinct : primes.Pairwise Nat.Coprime) (unit : ∀ p ∈ primes, exponent % (p - 1) = 1)
    (base : ℕ) : base ^ exponent ≡ base [MOD primes.prod] := by
  rw [Nat.modEq_list_prod_iff distinct]
  intro i
  exact pow_modEq_self_of_prime (prime _ (List.getElem_mem _)) (unit _ (List.getElem_mem _)) base

end ChromiumOS.RsaPower
