import ChromiumOS.ToMathlib.Radix
import ChromiumOS.Math.Montgomery
import ChromiumOS.Model.Vboot.Rsa

/-! # Word arithmetic of the RSA routines

Each word routine of `rsa.c` is given its exact value: subtraction with the borrow dropped,
comparison from the top word, and one Montgomery step with its two 64-bit accumulators and its
conditional subtraction. Everything else about the exponentiation follows from these equations.
-/

namespace ChromiumOS.Vboot

open Radix Montgomery

private theorem mod_split (low high : ℤ) (size : ℤ) (nonneg : 0 ≤ size) :
    (low + 2 ^ 32 * high) % (2 ^ 32 * size) =
      low % 2 ^ 32 + 2 ^ 32 * ((low / 2 ^ 32 + high) % size) := by
  have regroup : low + 2 ^ 32 * high = low % 2 ^ 32 + 2 ^ 32 * (low / 2 ^ 32 + high) := by omega
  rcases nonneg.eq_or_lt with rfl | positive
  · simpa using regroup
  · have low_lt : low % 2 ^ 32 < 2 ^ 32 := Int.emod_lt_of_pos _ (by norm_num)
    have low_nonneg : 0 ≤ low % 2 ^ 32 := Int.emod_nonneg _ (by norm_num)
    have high_lt := Int.emod_lt_of_pos (low / 2 ^ 32 + high) positive
    have high_nonneg := Int.emod_nonneg (low / 2 ^ 32 + high) positive.ne'
    have split := Int.emod_add_mul_ediv (low / 2 ^ 32 + high) size
    rw [regroup]
    generalize low / 2 ^ 32 + high = total at split high_lt high_nonneg ⊢
    have expand : low % 2 ^ 32 + 2 ^ 32 * total =
        low % 2 ^ 32 + 2 ^ 32 * (total % size) + 2 ^ 32 * size * (total / size) := by
      linear_combination (-(2 : ℤ) ^ 32) * split
    rw [expand, Int.add_mul_emod_self_left, Int.emod_eq_of_lt (by omega) (by omega)]

theorem subWords_length (A : ℤ) (a n : List UInt32) : (subWords A a n).length = a.length := by
  induction a generalizing A n with
  | nil => simp [subWords]
  | cons word rest ih =>
    cases n with
    | nil => simp [subWords]
    | cons modulus ns => simp [subWords, ih]

/-- `subM` subtracts modulo the word capacity: the final borrow is dropped. -/
theorem wordsNat_subWords (A : ℤ) (a n : List UInt32) (sameLength : a.length = n.length) :
    (wordsNat (subWords A a n) : ℤ) =
      (wordsNat a - wordsNat n + A) % (2 ^ 32) ^ a.length := by
  induction a generalizing A n with
  | nil =>
    obtain rfl := List.length_eq_zero_iff.mp sameLength.symm
    simp [subWords]
  | cons word rest ih =>
    cases n with
    | nil => simp at sameLength
    | cons modulus ns =>
      generalize difference : A + ((word.toNat : ℤ) - modulus.toNat) = diff
      have shifted : diff >>> (32 : ℕ) = diff / 2 ^ 32 := by
        rw [Int.shiftRight_eq_div_pow]
        norm_num
      have head : ((UInt32.ofNat (diff % 2 ^ 32).toNat).toNat : ℤ) = diff % 2 ^ 32 := by
        simp only [UInt32.toNat_ofNat']
        omega
      have tail := ih (diff >>> (32 : ℕ)) ns (by simpa using sameLength)
      have group : (wordsNat (word :: rest) : ℤ) - wordsNat (modulus :: ns) + A =
          diff + 2 ^ 32 * (wordsNat rest - wordsNat ns) := by
        simp only [wordsNat_cons, ← difference]
        push_cast
        ring
      rw [group, List.length_cons, pow_succ' ((2 : ℤ) ^ 32), mod_split _ _ _ (by positivity)]
      simp only [subWords, difference, wordsNat_cons, Nat.cast_add, Nat.cast_mul]
      rw [head, tail, shifted, add_comm (diff / 2 ^ 32)]
      norm_num

theorem wordsNat_subM (key : RSAPublicKey) (a : List UInt32) (sameLength : a.length = key.n.length) :
    (wordsNat (subM key a) : ℤ) = (wordsNat a - wordsNat key.n) % (2 ^ 32) ^ a.length := by
  simpa [subM] using wordsNat_subWords 0 a key.n sameLength

private theorem wordsNat_reverse_cons (word : UInt32) (rest : List UInt32) :
    wordsNat (word :: rest).reverse =
      wordsNat rest.reverse + (2 ^ 32) ^ rest.length * word.toNat := by
  simp [wordsNat_append]

private theorem geWords_iff (a n : List UInt32) (sameLength : a.length = n.length) :
    geWords a n = true ↔ wordsNat n.reverse ≤ wordsNat a.reverse := by
  induction a generalizing n with
  | nil =>
    obtain rfl := List.length_eq_zero_iff.mp sameLength.symm
    simp [geWords]
  | cons word rest ih =>
    cases n with
    | nil => simp at sameLength
    | cons modulus ns =>
      have lengths : rest.length = ns.length := by simpa using sameLength
      have restBound := wordsNat_lt rest.reverse
      have nsBound := wordsNat_lt ns.reverse
      rw [List.length_reverse] at restBound nsBound
      rw [← lengths] at nsBound
      rw [wordsNat_reverse_cons, wordsNat_reverse_cons, ← lengths]
      simp only [geWords]
      split
      · next less =>
        have step : word.toNat + 1 ≤ modulus.toNat := UInt32.lt_iff_toNat_lt.mp less
        have scaled := Nat.mul_le_mul_left ((2 ^ 32) ^ rest.length) step
        rw [Nat.mul_add, Nat.mul_one] at scaled
        simp only [Bool.false_eq_true, false_iff, not_le]
        omega
      · next notLess =>
        split
        · next greater =>
          have step : modulus.toNat + 1 ≤ word.toNat := UInt32.lt_iff_toNat_lt.mp greater
          have scaled := Nat.mul_le_mul_left ((2 ^ 32) ^ rest.length) step
          rw [Nat.mul_add, Nat.mul_one] at scaled
          simp only [true_iff]
          omega
        · next notGreater =>
          have same : word.toNat = modulus.toNat := by
            rw [UInt32.lt_iff_toNat_lt] at notLess notGreater
            omega
          rw [ih ns lengths, same]
          omega

/-- `geM` compares the values of the two word arrays. -/
theorem geM_iff (key : RSAPublicKey) (a : List UInt32) (sameLength : a.length = key.n.length) :
    geM key a = true ↔ wordsNat key.n ≤ wordsNat a := by
  simpa [geM] using geWords_iff a.reverse key.n.reverse (by simpa using sameLength)

/-- An accumulator of `montMulAdd` never overflows its 64 bits. -/
theorem accumulate_toNat (high : UInt64) (x y z : UInt32) :
    ((high >>> 32) + x.toUInt64 * y.toUInt64 + z.toUInt64).toNat =
      high.toNat / 2 ^ 32 + x.toNat * y.toNat + z.toNat := by
  have product : x.toNat * y.toNat ≤ (2 ^ 32 - 1) * (2 ^ 32 - 1) :=
    Nat.mul_le_mul (Nat.le_pred_of_lt x.toNat_lt) (Nat.le_pred_of_lt y.toNat_lt)
  have highBound := high.toNat_lt
  have zBound := z.toNat_lt
  have shifted : (high >>> 32).toNat = high.toNat / 2 ^ 32 := by
    simp [UInt64.toNat_shiftRight, Nat.shiftRight_eq_div_pow]
  rw [UInt64.toNat_add, UInt64.toNat_add, UInt64.toNat_mul, shifted]
  simp only [UInt32.toNat_toUInt64]
  rw [Nat.mod_eq_of_lt (a := x.toNat * y.toNat) (by omega), Nat.mod_eq_of_lt (by omega),
    Nat.mod_eq_of_lt (by omega)]

theorem first_accumulate_toNat (x y z : UInt32) :
    (x.toUInt64 * y.toUInt64 + z.toUInt64).toNat = x.toNat * y.toNat + z.toNat := by
  simpa using accumulate_toNat 0 x y z

theorem low_toNat (A : UInt64) : A.toUInt32.toNat = A.toNat % 2 ^ 32 := by simp

/-- The inner loop adds two products: nothing is lost between the words and the accumulators. -/
theorem montMulAddLoop_value (a d0 : UInt32) (A B : UInt64) (b c n : List UInt32)
    (cLength : c.length = b.length) (nLength : n.length = b.length) :
    (montMulAddLoop a d0 A B b c n).1.length = b.length ∧
      wordsNat (montMulAddLoop a d0 A B b c n).1 + (2 ^ 32) ^ b.length *
          ((montMulAddLoop a d0 A B b c n).2.1.toNat / 2 ^ 32 +
            (montMulAddLoop a d0 A B b c n).2.2.toNat / 2 ^ 32) =
        A.toNat / 2 ^ 32 + B.toNat / 2 ^ 32 + a.toNat * wordsNat b + wordsNat c +
          d0.toNat * wordsNat n := by
  induction b generalizing A B c n with
  | nil =>
    obtain rfl := List.length_eq_zero_iff.mp cLength
    obtain rfl := List.length_eq_zero_iff.mp nLength
    simp [montMulAddLoop]
  | cons b0 bs ih =>
    obtain ⟨c0, cs, rfl⟩ := List.exists_cons_of_length_eq_add_one (by simpa using cLength)
    obtain ⟨n0, ns, rfl⟩ := List.exists_cons_of_length_eq_add_one (by simpa using nLength)
    have first := accumulate_toNat A a b0 c0
    generalize nextA : (A >>> 32) + a.toUInt64 * b0.toUInt64 + c0.toUInt64 = A' at first
    have second := accumulate_toNat B d0 n0 A'.toUInt32
    generalize nextB : (B >>> 32) + d0.toUInt64 * n0.toUInt64 + A'.toUInt32.toUInt64 = B' at second
    obtain ⟨length, value⟩ := ih A' B' cs ns (by simpa using cLength) (by simpa using nLength)
    have unfolded : montMulAddLoop a d0 A B (b0 :: bs) (c0 :: cs) (n0 :: ns) =
        (B'.toUInt32 :: (montMulAddLoop a d0 A' B' bs cs ns).1,
          (montMulAddLoop a d0 A' B' bs cs ns).2) := by
      simp only [montMulAddLoop, nextA, nextB]
    rw [unfolded]
    refine ⟨by simp [length], ?_⟩
    simp only [wordsNat_cons, List.length_cons, pow_succ']
    rw [low_toNat] at second ⊢
    have splitA := Nat.mod_add_div A'.toNat (2 ^ 32)
    have splitB := Nat.mod_add_div B'.toNat (2 ^ 32)
    linear_combination 2 ^ 32 * value + splitB + splitA + first + second

/-- The array fields of a key of `words` words, with the inverse the reduction relies on. -/
structure RSAPublicKey.IsModulus (key : RSAPublicKey) (words : ℕ) : Prop where
  length : key.n.length = words
  positive : 0 < words
  inverse : 2 ^ 32 ∣ wordsNat key.n * key.n0inv.toNat + 1

/-- The modulus denoted by a key. -/
def RSAPublicKey.modulus (key : RSAPublicKey) : ℕ := wordsNat key.n

/-- The word capacity `R` of a key of `words` words. -/
def radixOf (words : ℕ) : ℕ := (2 ^ 32) ^ words

theorem RSAPublicKey.IsModulus.modulus_lt {key : RSAPublicKey} {words : ℕ}
    (valid : key.IsModulus words) : key.modulus < radixOf words := by
  have bound := wordsNat_lt key.n
  rwa [valid.length] at bound

theorem high_sum_toNat (A B : UInt64) :
    ((A >>> 32) + (B >>> 32)).toNat = A.toNat / 2 ^ 32 + B.toNat / 2 ^ 32 := by
  have boundA := A.toNat_lt
  have boundB := B.toNat_lt
  rw [UInt64.toNat_add, UInt64.toNat_shiftRight, UInt64.toNat_shiftRight]
  simp only [Nat.shiftRight_eq_div_pow, UInt64.reduceToNat, Nat.reduceMod]
  omega

private theorem high_ne_zero (A : UInt64) : A >>> 32 ≠ 0 ↔ A.toNat / 2 ^ 32 ≠ 0 := by
  rw [not_iff_not, ← UInt64.toNat_inj, UInt64.toNat_shiftRight]
  simp [Nat.shiftRight_eq_div_pow]

/-- The reduction digit `d0` clears the low word of the accumulators. -/
private theorem low_word_cleared {n0inv n0 : UInt32} (inverse : 2 ^ 32 ∣ n0.toNat * n0inv.toNat + 1)
    (A : UInt64) :
    2 ^ 32 ∣ A.toNat % 2 ^ 32 + (A.toUInt32 * n0inv).toNat * n0.toNat := by
  have digit : (A.toUInt32 * n0inv).toNat = A.toNat % 2 ^ 32 * n0inv.toNat % 2 ^ 32 := by
    rw [UInt32.toNat_mul, low_toNat]
  rw [digit]
  exact dvd_add_mul_modulus inverse _

/-- One Montgomery step before the conditional subtraction: the words kept, the digit chosen and
the exact total they represent. -/
private theorem montMulAdd_total (key : RSAPublicKey) {words : ℕ} (valid : key.IsModulus words)
    (c b : List UInt32) (a : UInt32) (cLength : c.length = words) (bLength : b.length = words) :
    ∃ (total : ℕ) (low : List UInt32) (digit : ℕ), low.length = words ∧ digit < 2 ^ 32 ∧
      2 ^ 32 * total = wordsNat c + a.toNat * wordsNat b + digit * key.modulus ∧
      total = wordsNat low + radixOf words * (total / radixOf words) ∧
      montMulAdd key c a b = if radixOf words ≤ total then subM key low else low := by
  obtain ⟨rest, rfl⟩ : ∃ rest, words = rest + 1 := ⟨words - 1, by have := valid.positive; omega⟩
  obtain ⟨b0, bs, rfl⟩ := List.exists_cons_of_length_eq_add_one bLength
  obtain ⟨c0, cs, rfl⟩ := List.exists_cons_of_length_eq_add_one cLength
  obtain ⟨n0, ns, modulus⟩ := List.exists_cons_of_length_eq_add_one valid.length
  have lengths := valid.length
  simp only [modulus, List.length_cons, Nat.add_right_cancel_iff] at bLength cLength lengths
  have inverse : 2 ^ 32 ∣ n0.toNat * key.n0inv.toNat + 1 := by
    have whole := valid.inverse
    rw [modulus, wordsNat_cons, Nat.add_mul, Nat.mul_assoc, Nat.add_right_comm] at whole
    exact (Nat.dvd_add_left (Dvd.intro _ rfl)).mp whole
  have firstA := first_accumulate_toNat a b0 c0
  generalize startA : a.toUInt64 * b0.toUInt64 + c0.toUInt64 = A at firstA
  have cleared := low_word_cleared inverse A
  generalize chosen : A.toUInt32 * key.n0inv = d0 at cleared
  have firstB := first_accumulate_toNat d0 n0 A.toUInt32
  generalize startB : d0.toUInt64 * n0.toUInt64 + A.toUInt32.toUInt64 = B at firstB
  rw [low_toNat] at firstB
  obtain ⟨loopLength, loopValue⟩ := montMulAddLoop_value a d0 A B bs cs ns
    (cLength.trans bLength.symm) (lengths.trans bLength.symm)
  have unfolded : montMulAdd key (c0 :: cs) a (b0 :: bs) =
      let loop := montMulAddLoop a d0 A B bs cs ns
      let top := (loop.2.1 >>> 32) + (loop.2.2 >>> 32)
      if top >>> 32 ≠ 0 then subM key (loop.1 ++ [top.toUInt32]) else loop.1 ++ [top.toUInt32] := by
    simp only [montMulAdd, modulus, startA, chosen, startB]
  dsimp only at unfolded
  have topValue := high_sum_toNat (montMulAddLoop a d0 A B bs cs ns).2.1
    (montMulAddLoop a d0 A B bs cs ns).2.2
  generalize ((montMulAddLoop a d0 A B bs cs ns).2.1 >>> 32) +
    ((montMulAddLoop a d0 A B bs cs ns).2.2 >>> 32) = top at topValue unfolded
  rw [← topValue] at loopValue
  generalize (montMulAddLoop a d0 A B bs cs ns).1 = written at loopLength loopValue unfolded
  rw [bLength] at loopLength loopValue
  have lowValue : wordsNat (written ++ [top.toUInt32]) =
      wordsNat written + (2 ^ 32) ^ rest * (top.toNat % 2 ^ 32) := by
    rw [wordsNat_append, loopLength, wordsNat_cons, low_toNat]
    simp
  have lowBound := wordsNat_lt (written ++ [top.toUInt32])
  have lowLength : (written ++ [top.toUInt32]).length = rest + 1 := by simp [loopLength]
  rw [lowLength] at lowBound
  change _ < radixOf (rest + 1) at lowBound
  have totalValue : wordsNat written + (2 ^ 32) ^ rest * top.toNat =
      wordsNat (written ++ [top.toUInt32]) + radixOf (rest + 1) * (top.toNat / 2 ^ 32) := by
    have split := Nat.mod_add_div top.toNat (2 ^ 32)
    rw [lowValue, radixOf, pow_succ (2 ^ 32)]
    calc
      wordsNat written + (2 ^ 32) ^ rest * top.toNat =
          wordsNat written + (2 ^ 32) ^ rest *
            (top.toNat % 2 ^ 32 + 2 ^ 32 * (top.toNat / 2 ^ 32)) := by rw [split]
      _ = _ := by rw [Nat.mul_add, ← Nat.mul_assoc, Nat.add_assoc]
  have quotient : (wordsNat written + (2 ^ 32) ^ rest * top.toNat) / radixOf (rest + 1) =
      top.toNat / 2 ^ 32 := by
    rw [totalValue, Nat.add_mul_div_left _ _ (by simp [radixOf]), Nat.div_eq_of_lt lowBound,
      Nat.zero_add]
  refine ⟨wordsNat written + (2 ^ 32) ^ rest * top.toNat, written ++ [top.toUInt32], d0.toNat,
    lowLength, d0.toNat_lt, ?_, ?_, ?_⟩
  · have splitA := Nat.mod_add_div A.toNat (2 ^ 32)
    have splitB := Nat.mod_add_div B.toNat (2 ^ 32)
    have exact : B.toNat % 2 ^ 32 = 0 := by
      rw [firstB, add_comm]
      exact Nat.mod_eq_zero_of_dvd cleared
    rw [loopValue, RSAPublicKey.modulus, modulus]
    simp only [wordsNat_cons]
    rw [exact] at splitB
    linear_combination splitA + splitB + firstA + firstB
  · rw [quotient, totalValue]
  · have overflow : top >>> 32 ≠ 0 ↔
        radixOf (rest + 1) ≤ wordsNat written + (2 ^ 32) ^ rest * top.toNat := by
      rw [high_ne_zero, ← quotient, ← Nat.pos_iff_ne_zero, Nat.div_pos_iff]
      simp [radixOf]
    rw [unfolded]
    simp only [overflow]

/-- The value of a Montgomery step: the carry is removed by one subtraction of the modulus. -/
theorem montMulAdd_value (key : RSAPublicKey) {words : ℕ} (valid : key.IsModulus words)
    (c b : List UInt32) (a : UInt32) (cLength : c.length = words) (bLength : b.length = words) :
    (montMulAdd key c a b).length = words ∧ ∃ total digit, digit < 2 ^ 32 ∧
      2 ^ 32 * total = wordsNat c + a.toNat * wordsNat b + digit * key.modulus ∧
      total < radixOf words + key.modulus ∧
      wordsNat (montMulAdd key c a b) = if radixOf words ≤ total then total - key.modulus else total := by
  obtain ⟨total, low, digit, lowLength, digitBound, scaled, split, result⟩ :=
    montMulAdd_total key valid c b a cLength bLength
  have modulusBound := valid.modulus_lt
  have cBound := wordsNat_lt c
  have bBound := wordsNat_lt b
  have lowBound := wordsNat_lt low
  rw [cLength] at cBound
  rw [bLength] at bBound
  rw [lowLength] at lowBound
  change wordsNat c < radixOf words at cBound
  change wordsNat b < radixOf words at bBound
  change wordsNat low < radixOf words at lowBound
  have totalBound : total < radixOf words + key.modulus := by
    have aBound := a.toNat_lt
    nlinarith
  rw [result]
  by_cases carry : radixOf words ≤ total
  · rw [if_pos carry]
    refine ⟨by rw [subM, subWords_length, lowLength], total, digit, digitBound, scaled, totalBound, ?_⟩
    rw [if_pos carry]
    have once : total / radixOf words = 1 := by
      apply Nat.div_eq_of_lt_le <;> omega
    rw [once, Nat.mul_one] at split
    have sameLength : low.length = key.n.length := lowLength.trans valid.length.symm
    have value := wordsNat_subM key low sameLength
    rw [lowLength] at value
    have wrap : ((wordsNat low : ℤ) - wordsNat key.n) % (2 ^ 32) ^ words =
        (total : ℤ) - wordsNat key.n := by
      have shifted : (wordsNat low : ℤ) - wordsNat key.n =
          ((total : ℤ) - wordsNat key.n) + (2 ^ 32) ^ words * (-1) := by
        have cast := congrArg (fun value : ℕ => (value : ℤ)) split
        simp only [radixOf, Nat.cast_add, Nat.cast_pow, Nat.cast_ofNat] at cast
        linarith
      rw [shifted, Int.add_mul_emod_self_left]
      apply Int.emod_eq_of_lt
      · simp only [RSAPublicKey.modulus] at modulusBound
        omega
      · have room : total - wordsNat key.n < radixOf words := by
          simp only [RSAPublicKey.modulus] at totalBound modulusBound
          omega
        have cast : ((total - wordsNat key.n : ℕ) : ℤ) < ((2 ^ 32) ^ words : ℕ) := by
          exact_mod_cast room
        push_cast [Nat.cast_sub (show wordsNat key.n ≤ total by
          simp only [RSAPublicKey.modulus] at modulusBound; omega)] at cast ⊢
        exact cast
    rw [wrap] at value
    simp only [RSAPublicKey.modulus] at modulusBound ⊢
    omega
  · rw [if_neg carry]
    refine ⟨lowLength, total, digit, digitBound, scaled, totalBound, ?_⟩
    rw [if_neg carry]
    have none : total / radixOf words = 0 := Nat.div_eq_of_lt (by omega)
    rw [none, Nat.mul_zero, Nat.add_zero] at split
    exact split.symm

/-- A Montgomery step keeps the word count and divides by one word, whatever the operands. -/
theorem montMulAdd_modEq (key : RSAPublicKey) {words : ℕ} (valid : key.IsModulus words)
    (c b : List UInt32) (a : UInt32) (cLength : c.length = words) (bLength : b.length = words) :
    (montMulAdd key c a b).length = words ∧
      2 ^ 32 * wordsNat (montMulAdd key c a b) ≡
        wordsNat c + a.toNat * wordsNat b [MOD key.modulus] := by
  obtain ⟨length, total, digit, -, scaled, -, value⟩ := montMulAdd_value key valid c b a cLength bLength
  have congruent : 2 ^ 32 * total ≡ wordsNat c + a.toNat * wordsNat b [MOD key.modulus] := by
    rw [scaled]
    exact Nat.modEq_of_dvd (by simp)
  have modulusBound := valid.modulus_lt
  refine ⟨length, ?_⟩
  rw [value]
  split
  · next carry =>
    have restore : total = (total - key.modulus) + key.modulus := by omega
    have drop : total - key.modulus ≡ total [MOD key.modulus] := by
      conv_rhs => rw [restore]
      exact (Nat.add_modEq_right).symm
    exact (drop.mul_left _).trans congruent
  · exact congruent

/-- `montMul` multiplies and divides by `R`, for all operands below `R`. -/
theorem montMul_isProduct (key : RSAPublicKey) {words : ℕ} (valid : key.IsModulus words)
    (len : key.len = words) (a b : List UInt32) (aLength : a.length = words)
    (bLength : b.length = words) :
    (montMul key a b).length = words ∧
      IsProduct (radixOf words) key.modulus (wordsNat (montMul key a b)) (wordsNat a)
        (wordsNat b) := by
  have start : (List.replicate key.len.toNat (0 : UInt32)).length = words := by simp [len]
  have folded := foldl_modEq (2 ^ 32) key.modulus (wordsNat b)
    wordsNat UInt32.toNat (fun c => c.length = words) (fun c word => montMulAdd key c word b)
    (fun c word cLength => montMulAdd_modEq key valid c b word cLength bLength) a start
  rw [aLength, wordsNat_replicate_zero, Nat.zero_add] at folded
  exact folded

end ChromiumOS.Vboot
