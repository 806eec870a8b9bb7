import ChromiumOS.Model.Vboot.DumpRSAPublicKey
import ChromiumOS.Model.Vboot.FirmwareSign
import ChromiumOS.Proofs.Vboot.KeyParsing
import ChromiumOS.Proofs.Vboot.RsaVerify

/-! # Key pairs and their preprocessed public halves

The bytes that `dumpRSAPublicKey` writes for an odd modulus of a key size parse into a key with that
modulus, the negated inverse of its low word and the reduced `R^2`. The private half is known by what
it signs.
-/

namespace ChromiumOS.Vboot

open Radix Montgomery

/-- An odd modulus with exactly the bits of an algorithm's key size. -/
structure IsModulusFor (alg : Algorithm) (N : ℕ) : Prop where
  odd : N % 2 = 1
  top : 2 ^ (32 * siglen_map.get alg - 1) ≤ N
  bound : N < 2 ^ (32 * siglen_map.get alg)

/-- `openssl rsautl -sign -pkcs` under the private half of `modulus`: on an input that leaves room
for eight filler bytes it prints a string of the key size whose 65537th power is the type-1 block. -/
def SignsPkcs1 (rsautl : Rsautl) (modulus words : ℕ) : Prop :=
  ∀ input : List UInt8, input.length + 11 ≤ words * 4 →
    (rsautl input).length = words * 4 ∧
      beNat (rsautl input) ^ 65537 % modulus =
        beNat (paddingArray (words * 4 - 3 - input.length) input)

theorem IsModulusFor.num_bits {alg : Algorithm} {N : ℕ} (modulus : IsModulusFor alg N) :
    BN_num_bits N = 32 * siglen_map.get alg := by
  have positive := siglen_pos alg
  have nonzero : N ≠ 0 := fun zero => by
    have odd := modulus.odd
    rw [zero] at odd
    exact absurd odd (by decide)
  have low : 32 * siglen_map.get alg - 1 ≤ N.log2 := (Nat.le_log2 nonzero).mpr modulus.top
  have high : N.log2 < 32 * siglen_map.get alg := (Nat.log2_lt nonzero).mpr modulus.bound
  rw [BN_num_bits, if_neg nonzero]
  omega

theorem outputWords_length (nwords value : ℕ) : (outputWords nwords value).length = nwords * 4 := by
  induction nwords generalizing value with
  | zero => simp [outputWords]
  | succ nwords ih => rw [outputWords, List.length_append, bytesOfWord_length, ih, Nat.succ_mul, add_comm]

theorem wordsOfBytes_bytesOfWord (word : UInt32) (rest : List UInt8) :
    wordsOfBytes (bytesOfWord word ++ rest) = word :: wordsOfBytes rest := by
  obtain ⟨b0, b1, b2, b3, bytes⟩ : ∃ b0 b1 b2 b3, bytesOfWord word = [b0, b1, b2, b3] :=
    ⟨_, _, _, _, rfl⟩
  have value := wordOfBytes_bytesOfWord word
  rw [bytes] at value ⊢
  rw [List.cons_append, List.cons_append, List.cons_append, List.cons_append, List.nil_append,
    wordsOfBytes, value]

theorem wordsOfBytes_outputWords_length (nwords value : ℕ) :
    (wordsOfBytes (outputWords nwords value)).length = nwords := by
  induction nwords generalizing value with
  | zero => rfl
  | succ nwords ih => rw [outputWords, wordsOfBytes_bytesOfWord, List.length_cons, ih]

/-- The word loop writes the low words of its value. -/
theorem wordsNat_outputWords (nwords value : ℕ) :
    wordsNat (wordsOfBytes (outputWords nwords value)) = value % (2 ^ 32) ^ nwords := by
  induction nwords generalizing value with
  | zero => simp [outputWords, wordsOfBytes, Nat.mod_one]
  | succ nwords ih =>
    have low : (UInt32.ofNat (value % 2 ^ 32)).toNat = value % 2 ^ 32 :=
      UInt32.toNat_ofNat_of_lt' (Nat.mod_lt _ (by decide))
    rw [outputWords, wordsOfBytes_bytesOfWord, wordsNat_cons, ih, low, Nat.shiftRight_eq_div_pow,
      pow_succ' (2 ^ 32) nwords, Nat.mod_mul]

/-- The inverse is one. -/
theorem BN_mod_inverse_spec {value modulus : ℕ} (positive : 0 < modulus)
    (unit : Nat.Coprime value modulus) :
    BN_mod_inverse value modulus < modulus ∧
      value * BN_mod_inverse value modulus ≡ 1 [MOD modulus] := by
  have nonneg := Int.emod_nonneg (Nat.gcdA value modulus) (show (modulus : ℤ) ≠ 0 by omega)
  have below := Int.emod_lt_of_pos (Nat.gcdA value modulus) (show (0 : ℤ) < modulus by omega)
  refine ⟨by rw [BN_mod_inverse]; omega, ?_⟩
  have bezout := Nat.gcd_eq_gcd_ab value modulus
  rw [unit] at bezout
  rw [← Int.natCast_modEq_iff, BN_mod_inverse, Nat.cast_mul, Int.toNat_of_nonneg nonneg]
  have reduced : (value : ℤ) * (Nat.gcdA value modulus % modulus) ≡
      value * Nat.gcdA value modulus [ZMOD modulus] :=
    Int.ModEq.mul_left _ (Int.mod_modEq _ _)
  refine reduced.trans ?_
  have sum : (value : ℤ) * Nat.gcdA value modulus = 1 - modulus * Nat.gcdB value modulus := by
    rw [Nat.cast_one] at bezout
    omega
  rw [sum, Nat.cast_one]
  exact (Int.modEq_iff_dvd.mpr ⟨Nat.gcdB value modulus, by ring⟩)

theorem headD_outputWords {nwords : ℕ} (positive : 0 < nwords) (value : ℕ) :
    (wordsOfBytes (outputWords nwords value)).headD 0 = UInt32.ofNat (value % 2 ^ 32) := by
  obtain ⟨fewer, rfl⟩ := Nat.exists_eq_add_one_of_ne_zero positive.ne'
  rw [outputWords, wordsOfBytes_bytesOfWord, List.headD_cons]

/-- `B` minus the inverse of a number times its low word is minus one. -/
theorem negated_inverse_mul {value inverse : ℕ} (below : inverse < 2 ^ 32)
    (unit : value * inverse ≡ 1 [MOD 2 ^ 32]) :
    UInt32.ofNat (2 ^ 32 - inverse) * UInt32.ofNat (value % 2 ^ 32) = -1 := by
  have total : (2 ^ 32 - inverse) * value + value * inverse = 2 ^ 32 * value := by
    rw [mul_comm value inverse, ← Nat.add_mul, Nat.sub_add_cancel below.le]
  have one : value * inverse % 2 ^ 32 = 1 := unit
  rw [← UInt32.toNat_inj, UInt32.toNat_mul, UInt32.toNat_ofNat', UInt32.toNat_ofNat', Nat.mod_mod,
    ← Nat.mul_mod]
  change _ = 2 ^ 32 - 1
  omega

section Output

variable {alg : Algorithm} {N : ℕ} (modulus : IsModulusFor alg N)
include modulus

/-- The key that the output for `N` stands for. -/
theorem output_eq : output N = bytesOfWord (UInt32.ofNat (siglen_map.get alg)) ++
    (bytesOfWord (UInt32.ofNat (2 ^ 32 - BN_mod_inverse N (2 ^ 32))) ++
      (outputWords (siglen_map.get alg) N ++
        outputWords (siglen_map.get alg) (radixOf (siglen_map.get alg) ^ 2 % N))) := by
  have words : 32 * siglen_map.get alg / 32 = siglen_map.get alg := Nat.mul_div_cancel_left _ (by decide)
  have square : 2 ^ (32 * siglen_map.get alg) * 2 ^ (32 * siglen_map.get alg) =
      radixOf (siglen_map.get alg) ^ 2 := by
    rw [radixOf, pow_two, ← pow_mul]
  simp only [output, modulus.num_bits, words, square, List.append_assoc]

theorem output_length : (output N).length = RSAProcessedKeySize alg := by
  have size : RSAProcessedKeySize alg = 2 * (siglen_map.get alg * 4) + 4 + 4 := rfl
  rw [output_eq modulus, List.length_append, List.length_append, List.length_append,
    bytesOfWord_length, bytesOfWord_length, outputWords_length, outputWords_length]
  omega

/-- The output for `N` parses into a well-formed key with modulus `N`. -/
theorem output_parses : ∃ key, RSAPublicKeyFromBuf (output N) (RSAProcessedKeySize alg) =
    some (some key) ∧ key.WellFormed (siglen_map.get alg) ∧ key.modulus = N := by
  have positive := siglen_pos alg
  have shape := output_eq modulus
  have lenField : wordOfBytes ((output N).take 4) = UInt32.ofNat (siglen_map.get alg) := by
    rw [shape, List.take_left' (bytesOfWord_length _), wordOfBytes_bytesOfWord]
  have invField : wordOfBytes (((output N).drop 4).take 4) =
      UInt32.ofNat (2 ^ 32 - BN_mod_inverse N (2 ^ 32)) := by
    rw [shape, List.drop_left' (bytesOfWord_length _), List.take_left' (bytesOfWord_length _),
      wordOfBytes_bytesOfWord]
  have afterFields : (output N).drop 8 = outputWords (siglen_map.get alg) N ++
      outputWords (siglen_map.get alg) (radixOf (siglen_map.get alg) ^ 2 % N) := by
    rw [shape, ← List.append_assoc, List.drop_left' (by simp)]
  have nField : ((output N).drop 8).take (siglen_map.get alg * 4) = outputWords (siglen_map.get alg) N := by
    rw [afterFields, List.take_left' (outputWords_length _ _)]
  have rrField : (output N).drop (8 + siglen_map.get alg * 4) =
      outputWords (siglen_map.get alg) (radixOf (siglen_map.get alg) ^ 2 % N) := by
    rw [← List.drop_drop, afterFields, List.drop_left' (outputWords_length _ _)]
  have radix : radixOf (siglen_map.get alg) = 2 ^ (32 * siglen_map.get alg) := by rw [radixOf, ← pow_mul]
  have value : wordsNat (wordsOfBytes (outputWords (siglen_map.get alg) N)) = N := by
    rw [wordsNat_outputWords, ← radixOf, radix, Nat.mod_eq_of_lt modulus.bound]
  have square : wordsNat (wordsOfBytes (outputWords (siglen_map.get alg)
      (radixOf (siglen_map.get alg) ^ 2 % N))) = radixOf (siglen_map.get alg) ^ 2 % N := by
    have below : radixOf (siglen_map.get alg) ^ 2 % N < N :=
      Nat.mod_lt _ (lt_of_lt_of_le (by positivity) modulus.top)
    rw [wordsNat_outputWords, ← radixOf, Nat.mod_eq_of_lt (below.trans (radix ▸ modulus.bound))]
  have coprime : Nat.Coprime N (2 ^ 32) :=
    (Nat.coprime_two_right.mpr (Nat.odd_iff.mpr modulus.odd)).pow_right 32
  obtain ⟨below, unit⟩ := BN_mod_inverse_spec (by decide) coprime
  refine ⟨_, RSAPublicKeyFromBuf_of_length (output_length modulus) lenField, ?_, ?_⟩
  · rw [invField, nField, rrField]
    exact {
      len := rfl
      n_length := wordsOfBytes_outputWords_length _ _
      rr_length := wordsOfBytes_outputWords_length _ _
      odd := by rw [RSAPublicKey.modulus, value]; exact modulus.odd
      top := by rw [RSAPublicKey.modulus, value]; exact modulus.top
      inverse := by rw [headD_outputWords positive, negated_inverse_mul below unit]
      rr := by rw [RSAPublicKey.modulus, value]; exact square }
  · rw [nField]
    exact value

end Output

end ChromiumOS.Vboot
