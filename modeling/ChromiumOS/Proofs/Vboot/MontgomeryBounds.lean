import ChromiumOS.Proofs.Vboot.MontgomeryWords

/-! # Bounds of the Montgomery step

The two accumulators of `montMulAdd` run side by side through the words. Their values are written down here as the
machine computes them and as they are without any bound; that they are the same means that nothing is cut off.
-/

namespace ChromiumOS.Vboot

open Radix Montgomery

/-- The values of the accumulators in the loop, one round after the other, and the last ones. -/
def loopAccumulators (a d0 : UInt32) :
    UInt64 → UInt64 → List UInt32 → List UInt32 → List UInt32 → List UInt64 × UInt64 × UInt64
  | A, B, b :: bs, c :: cs, n :: ns =>
      let A := (A >>> 32) + a.toUInt64 * b.toUInt64 + c.toUInt64
      let B := (B >>> 32) + d0.toUInt64 * n.toUInt64 + A.toUInt32.toUInt64
      let (values, last) := loopAccumulators a d0 A B bs cs ns
      (A :: B :: values, last)
  | A, B, _, _, _ => ([], A, B)

/-- The same without a bound. -/
def exactLoopAccumulators (a d0 : ℕ) : ℕ → ℕ → List UInt32 → List UInt32 → List UInt32 → List ℕ × ℕ × ℕ
  | A, B, b :: bs, c :: cs, n :: ns =>
      let A := A / 2 ^ 32 + a * b.toNat + c.toNat
      let B := B / 2 ^ 32 + d0 * n.toNat + A % 2 ^ 32
      let (values, last) := exactLoopAccumulators a d0 A B bs cs ns
      (A :: B :: values, last)
  | A, B, _, _, _ => ([], A, B)

/-- The values of the accumulators of `montMulAdd`. -/
def accumulators (key : RSAPublicKey) (c : List UInt32) (a : UInt32) (b : List UInt32) : List UInt64 :=
  match b, c, key.n with
  | b0 :: bs, c0 :: cs, n0 :: ns =>
      let A := a.toUInt64 * b0.toUInt64 + c0.toUInt64
      let d0 := A.toUInt32 * key.n0inv
      let B := d0.toUInt64 * n0.toUInt64 + A.toUInt32.toUInt64
      let (values, lastA, lastB) := loopAccumulators a d0 A B bs cs ns
      A :: B :: values ++ [(lastA >>> 32) + (lastB >>> 32)]
  | _, _, _ => []

def exactAccumulators (key : RSAPublicKey) (c : List UInt32) (a : UInt32) (b : List UInt32) : List ℕ :=
  match b, c, key.n with
  | b0 :: bs, c0 :: cs, n0 :: ns =>
      let A := a.toNat * b0.toNat + c0.toNat
      let d0 := A % 2 ^ 32 * key.n0inv.toNat % 2 ^ 32
      let B := d0 * n0.toNat + A % 2 ^ 32
      let (values, lastA, lastB) := exactLoopAccumulators a.toNat d0 A B bs cs ns
      A :: B :: values ++ [lastA / 2 ^ 32 + lastB / 2 ^ 32]
  | _, _, _ => []

/-- The loop of `montMulAdd` writes the low words of the second accumulator and ends with these accumulators. -/
theorem montMulAddLoop_accumulators (a d0 : UInt32) (A B : UInt64) (b c n : List UInt32) :
    (montMulAddLoop a d0 A B b c n).2 = (loopAccumulators a d0 A B b c n).2 := by
  induction b generalizing A B c n with
  | nil => simp only [montMulAddLoop, loopAccumulators]
  | cons b0 bs ih =>
    cases c with
    | nil => simp only [montMulAddLoop, loopAccumulators]
    | cons c0 cs =>
      cases n with
      | nil => simp only [montMulAddLoop, loopAccumulators]
      | cons n0 ns =>
        simp only [montMulAddLoop, loopAccumulators]
        exact ih _ _ _ _

theorem loopAccumulators_toNat (a d0 : UInt32) (A B : UInt64) (b c n : List UInt32) :
    exactLoopAccumulators a.toNat d0.toNat A.toNat B.toNat b c n =
      ((loopAccumulators a d0 A B b c n).1.map UInt64.toNat,
        (loopAccumulators a d0 A B b c n).2.1.toNat, (loopAccumulators a d0 A B b c n).2.2.toNat) := by
  induction b generalizing A B c n with
  | nil => simp only [exactLoopAccumulators, loopAccumulators, List.map_nil]
  | cons b0 bs ih =>
    cases c with
    | nil => simp only [exactLoopAccumulators, loopAccumulators, List.map_nil]
    | cons c0 cs =>
      cases n with
      | nil => simp only [exactLoopAccumulators, loopAccumulators, List.map_nil]
      | cons n0 ns =>
        have first := accumulate_toNat A a b0 c0
        have second := accumulate_toNat B d0 n0 ((A >>> 32) + a.toUInt64 * b0.toUInt64 + c0.toUInt64).toUInt32
        rw [low_toNat, first] at second
        simp only [exactLoopAccumulators, loopAccumulators, List.map_cons]
        rw [← second, ← first, ih]

/-- No accumulator overflows. -/
theorem accumulators_toNat (key : RSAPublicKey) (c : List UInt32) (a : UInt32) (b : List UInt32) :
    (accumulators key c a b).map UInt64.toNat = exactAccumulators key c a b := by
  cases b with
  | nil => rfl
  | cons b0 bs =>
    cases c with
    | nil => rfl
    | cons c0 cs =>
      cases modulus : key.n with
      | nil => simp only [accumulators, exactAccumulators, modulus, List.map_nil]
      | cons n0 ns =>
        have first := first_accumulate_toNat a b0 c0
        have digit : ((a.toUInt64 * b0.toUInt64 + c0.toUInt64).toUInt32 * key.n0inv).toNat =
            (a.toNat * b0.toNat + c0.toNat) % 2 ^ 32 * key.n0inv.toNat % 2 ^ 32 := by
          rw [UInt32.toNat_mul, low_toNat, first]
        have second := first_accumulate_toNat ((a.toUInt64 * b0.toUInt64 + c0.toUInt64).toUInt32 * key.n0inv) n0
          (a.toUInt64 * b0.toUInt64 + c0.toUInt64).toUInt32
        rw [low_toNat, first, digit] at second
        simp only [accumulators, exactAccumulators, modulus, List.map_append, List.map_cons, List.map_nil, first,
          second, high_sum_toNat]
        rw [← second, ← digit, ← first, loopAccumulators_toNat]

/-- The inverse of the lowest word is one of the modulus. -/
theorem isModulus_of_low {key : RSAPublicKey} {words : ℕ} (length : key.n.length = words)
    (odd : key.modulus % 2 = 1) (inverse : 2 ^ 32 ∣ key.n0inv.toNat * (key.n.headD 0).toNat + 1) :
    key.IsModulus words := by
  cases modulus : key.n with
  | nil =>
    rw [RSAPublicKey.modulus, modulus] at odd
    exact absurd odd (by decide)
  | cons n0 ns =>
    refine ⟨length, ?_, ?_⟩
    · rw [← length, modulus]
      exact Nat.succ_pos _
    · rw [modulus] at inverse
      have low : 2 ^ 32 ∣ n0.toNat * key.n0inv.toNat + 1 := Nat.mul_comm _ _ ▸ inverse
      rw [modulus, wordsNat_cons, Nat.add_mul, Nat.mul_assoc, Nat.add_right_comm]
      exact (Nat.dvd_add_left (Dvd.intro _ rfl)).mpr low

/-- The bounds and the value of every step, and of the product. -/
theorem montMul_bounds (key : RSAPublicKey) (words : ℕ) (length : key.n.length = words) (len : key.len = words)
    (odd : key.modulus % 2 = 1) (inverse : 2 ^ 32 ∣ key.n0inv.toNat * (key.n.headD 0).toNat + 1)
    (a b : List UInt32) (aLength : a.length = words) (bLength : b.length = words) :
    ((montMul key a b).length = words ∧ wordsNat (montMul key a b) < radixOf words) ∧
      (∃ unit, radixOf words * unit ≡ 1 [MOD key.modulus]) ∧
      (∀ unit, radixOf words * unit ≡ 1 [MOD key.modulus] →
        wordsNat (montMul key a b) ≡ wordsNat a * wordsNat b * unit [MOD key.modulus]) ∧
      ∀ c word, c.length = words →
        (accumulators key c word b).map UInt64.toNat = exactAccumulators key c word b ∧
          ∃ total digit, digit < 2 ^ 32 ∧
            2 ^ 32 * total = wordsNat c + word.toNat * wordsNat b + digit * key.modulus ∧
            total < radixOf words + key.modulus ∧
            wordsNat (montMulAdd key c word b) = if radixOf words ≤ total then total - key.modulus else total := by
  have valid := isModulus_of_low length odd inverse
  obtain ⟨size, product⟩ := montMul_isProduct key valid len a b aLength bLength
  refine ⟨⟨size, ?_⟩, ?_, fun unit one => ?_, fun c word cLength => ⟨accumulators_toNat key c word b, ?_⟩⟩
  · have bound := wordsNat_lt (montMul key a b)
    rw [size] at bound
    exact bound
  · have coprime : Nat.Coprime (radixOf words) key.modulus := by
      refine Nat.Coprime.pow_left _ (Nat.Coprime.pow_left _ ?_)
      exact (Nat.coprime_two_left).mpr (Nat.odd_iff.mpr odd)
    by_cases large : 1 < key.modulus
    · obtain ⟨unit, -, one⟩ := Nat.exists_mul_mod_eq_one_of_coprime coprime large
      exact ⟨unit, one.trans (Nat.mod_eq_of_lt large).symm⟩
    · have trivial_modulus : key.modulus = 1 := by omega
      exact ⟨0, trivial_modulus ▸ Nat.modEq_one⟩
  · calc
      wordsNat (montMul key a b) = 1 * wordsNat (montMul key a b) := (Nat.one_mul _).symm
      _ ≡ radixOf words * unit * wordsNat (montMul key a b) [MOD key.modulus] := one.symm.mul_right _
      _ = radixOf words * wordsNat (montMul key a b) * unit := by ring
      _ ≡ wordsNat a * wordsNat b * unit [MOD key.modulus] := product.mul_right unit
  · exact (montMulAdd_value key valid c b word cLength bLength).2

/-- The modulus 3 in one word, with words that are not below it. -/
theorem montMul_bounds_three : wordsNat (montMul ⟨1, 1431655765, [3], [1]⟩ [7] [0xffffffff]) < radixOf 1 :=
  (montMul_bounds ⟨1, 1431655765, [3], [1]⟩ 1 rfl rfl (by decide) (by decide) [7] [0xffffffff] rfl rfl).1.2

end ChromiumOS.Vboot
