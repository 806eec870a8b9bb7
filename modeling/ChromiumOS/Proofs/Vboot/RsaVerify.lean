import ChromiumOS.Proofs.Vboot.MontgomeryWords

/-! # RSA verification accepts exactly the PKCS#1 v1.5 signatures

A well-formed key has an odd modulus with its top bit set, the word inverse and `R^2`. The
exponentiation keeps an unreduced value below `R` in Montgomery form through all its squarings;
since `R` is at most twice the modulus, the last subtraction leaves the residue itself. The byte
and word orders of the source cancel against the big-endian reading of a signature.
-/

namespace ChromiumOS.Vboot

open Radix Montgomery

/-- The keys `dumpRSAPublicKey` writes: `len` words, an odd modulus with its top bit set, the
inverse of its low word and `R^2` reduced. -/
structure RSAPublicKey.WellFormed (key : RSAPublicKey) (words : ℕ) : Prop where
  len : key.len = words
  n_length : key.n.length = words
  rr_length : key.rr.length = words
  odd : key.modulus % 2 = 1
  top : 2 ^ (32 * words - 1) ≤ key.modulus
  inverse : key.n0inv * key.n.headD 0 = -1
  rr : wordsNat key.rr = radixOf words ^ 2 % key.modulus

namespace RSAPublicKey.WellFormed

variable {key : RSAPublicKey} {words : ℕ}

theorem isModulus (valid : key.WellFormed words) (positive : 0 < words) : key.IsModulus words where
  length := valid.n_length
  positive := positive
  inverse := by
    have inverse := valid.inverse
    obtain ⟨n0, ns, shape⟩ : ∃ n0 ns, key.n = n0 :: ns :=
      List.exists_cons_of_length_pos (by rw [valid.n_length]; exact positive)
    rw [shape, List.headD_cons] at inverse
    have product := congrArg UInt32.toNat inverse
    rw [UInt32.toNat_mul] at product
    have low : key.n0inv.toNat * n0.toNat % 2 ^ 32 = 2 ^ 32 - 1 := product
    have split : wordsNat key.n * key.n0inv.toNat + 1 =
        key.n0inv.toNat * n0.toNat + 1 + 2 ^ 32 * (wordsNat ns * key.n0inv.toNat) := by
      rw [shape, wordsNat_cons]
      ring
    rw [split]
    exact Dvd.dvd.add (by omega) (Dvd.intro _ rfl)

theorem radix_le (valid : key.WellFormed words) (positive : 0 < words) :
    radixOf words ≤ 2 * key.modulus := by
  have half : radixOf words = 2 * 2 ^ (32 * words - 1) := by
    rw [radixOf, ← pow_mul, ← pow_succ']
    congr 1
    omega
  rw [half]
  exact Nat.mul_le_mul_left 2 valid.top

/-- An odd modulus is a unit modulo every power of two, in particular modulo `R`. -/
theorem coprime (valid : key.WellFormed words) : Nat.Coprime key.modulus (radixOf words) := by
  have odd : Nat.Coprime key.modulus 2 :=
    (Nat.coprime_two_right).mpr (Nat.odd_iff.mpr valid.odd)
  rw [radixOf, ← pow_mul]
  exact odd.pow_right _

end RSAPublicKey.WellFormed

theorem packWords_spec (bytes : List UInt8) {words : ℕ} (length : bytes.length = 4 * words) :
    (packWords bytes).length = words ∧ wordsNat (packWords bytes).reverse = beNat bytes := by
  induction words generalizing bytes with
  | zero =>
    obtain rfl := List.length_eq_zero_iff.mp length
    exact ⟨rfl, rfl⟩
  | succ words ih =>
    rcases bytes with _ | ⟨b0, _ | ⟨b1, _ | ⟨b2, _ | ⟨b3, bytes⟩⟩⟩⟩ <;>
      simp only [List.length_cons, List.length_nil] at length <;> try omega
    have restLength : bytes.length = 4 * words := by omega
    obtain ⟨wordLength, value⟩ := ih bytes restLength
    refine ⟨by simp [packWords, wordLength], ?_⟩
    have split : beNat (b0 :: b1 :: b2 :: b3 :: bytes) =
        beNat [b0, b1, b2, b3] * 256 ^ bytes.length + beNat bytes :=
      beNat_append [b0, b1, b2, b3] bytes
    rw [split, packWords, List.reverse_cons, wordsNat_append, List.length_reverse, wordLength, value,
      wordsNat_cons, wordsNat_nil, toNat_pack, restLength, pow_mul]
    ring

theorem unpackWord_eq (word : UInt32) : unpackWord word = beBytes 4 word.toNat := by
  have byte (amount : UInt32) (count : ℕ) (same : amount.toNat % 32 = count) :
      (word >>> amount).toUInt8 = UInt8.ofNat (word.toNat / 2 ^ count) := by
    apply UInt8.toNat_inj.mp
    rw [UInt32.toNat_toUInt8, UInt32.toNat_shiftRight, same, Nat.shiftRight_eq_div_pow]
    simp
  have low : word.toUInt8 = UInt8.ofNat word.toNat := by
    apply UInt8.toNat_inj.mp
    simp
  simp only [unpackWord, beBytes, leBytes, byte 24 24 rfl, byte 16 16 rfl, byte 8 8 rfl, low,
    Nat.div_div_eq_div_mul, Nat.reducePow, Nat.reduceMul, List.reverse_cons, List.reverse_nil, List.nil_append, List.cons_append]

/-- Writing the words from the top down is the big-endian encoding of their value. -/
theorem unpack_words (words : List UInt32) :
    words.reverse.flatMap unpackWord = beBytes (4 * words.length) (wordsNat words) := by
  have spec (list : List UInt32) : (list.flatMap unpackWord).length = 4 * list.length ∧
      beNat (list.flatMap unpackWord) = wordsNat list.reverse := by
    induction list with
    | nil => exact ⟨rfl, rfl⟩
    | cons word rest ih =>
      obtain ⟨length, value⟩ := ih
      have bound : word.toNat < 256 ^ 4 := word.toNat_lt
      refine ⟨by simp only [List.flatMap_cons, List.length_append, length, unpackWord_eq,
        beBytes_length, List.length_cons]; omega, ?_⟩
      rw [List.flatMap_cons, beNat_append, value, length, unpackWord_eq,
        beNat_beBytes_of_lt bound, List.reverse_cons, wordsNat_append, List.length_reverse,
        wordsNat_cons, wordsNat_nil, pow_mul]
      ring
  obtain ⟨length, value⟩ := spec words.reverse
  rw [List.reverse_reverse] at value
  rw [← value, ← List.length_reverse, ← length, beBytes_beNat]

section Exponentiation

variable {key : RSAPublicKey} {words : ℕ} (valid : key.WellFormed words) (positive : 0 < words)

include valid positive

private theorem squareTwice_inForm {aR : List UInt32} {value : ℕ} (length : aR.length = words)
    (form : InForm (radixOf words) key.modulus (wordsNat aR) value) :
    (squareTwice key aR).length = words ∧
      InForm (radixOf words) key.modulus (wordsNat (squareTwice key aR)) (value ^ 4) := by
  have modulus := valid.isModulus positive
  obtain ⟨onceLength, once⟩ := montMul_isProduct key modulus valid.len aR aR length length
  obtain ⟨twiceLength, twice⟩ :=
    montMul_isProduct key modulus valid.len _ _ onceLength onceLength
  have square := form.mul valid.coprime form once
  have fourth := square.mul valid.coprime square twice
  refine ⟨twiceLength, ?_⟩
  rw [show value ^ 4 = value * value * (value * value) by ring]
  exact fourth

/-- The loop invariant: after `count` turns the value is raised to the power `4 ^ count`. -/
private theorem squareTwice_iterate {aR : List UInt32} {value : ℕ} (length : aR.length = words)
    (form : InForm (radixOf words) key.modulus (wordsNat aR) value) (count : ℕ) :
    ((squareTwice key)^[count] aR).length = words ∧
      InForm (radixOf words) key.modulus (wordsNat ((squareTwice key)^[count] aR))
        (value ^ 4 ^ count) := by
  induction count with
  | zero => simpa using ⟨length, form⟩
  | succ count ih =>
    rw [Function.iterate_succ_apply', pow_succ, pow_mul]
    exact squareTwice_inForm valid positive ih.1 ih.2

/-- `modpowF4` computes the fully reduced power for every input, reduced or not. -/
theorem modpowF4_eq (sig : List UInt8) (length : sig.length = 4 * words) :
    modpowF4 key sig = beBytes (4 * words) (beNat sig ^ 65537 % key.modulus) := by
  have modulus := valid.isModulus positive
  obtain ⟨packLength, packValue⟩ := packWords_spec sig length
  have aLength : (packWords sig).reverse.length = words := by simpa using packLength
  obtain ⟨enterLength, enter⟩ :=
    montMul_isProduct key modulus valid.len _ key.rr aLength valid.rr_length
  have square : wordsNat key.rr ≡ radixOf words ^ 2 [MOD key.modulus] := by
    rw [valid.rr]
    exact Nat.mod_modEq _ _
  obtain ⟨powerLength, power⟩ := squareTwice_iterate valid positive enterLength
    (InForm.of_square valid.coprime square enter) 8
  obtain ⟨lastLength, last⟩ := montMul_isProduct key modulus valid.len _ _ powerLength aLength
  have congruent := power.leave valid.coprime last
  rw [packValue, show (4 : ℕ) ^ 8 = 65536 by norm_num, ← pow_succ] at congruent
  simp only [modpowF4]
  generalize montMul key ((squareTwice key)^[8] (montMul key (packWords sig).reverse key.rr))
    (packWords sig).reverse = aaa at lastLength congruent ⊢
  have bound : wordsNat aaa < 2 * key.modulus := by
    have small := wordsNat_lt aaa
    rw [lastLength] at small
    exact small.trans_le (valid.radix_le positive)
  have reduced := sub_eq_mod bound congruent
  have compare := geM_iff key aaa (lastLength.trans valid.n_length.symm)
  rw [unpack_words]
  by_cases large : key.modulus ≤ wordsNat aaa
  · rw [if_pos (compare.mpr large)]
    have difference := wordsNat_subM key aaa (lastLength.trans valid.n_length.symm)
    have exactDifference : wordsNat (subM key aaa) = wordsNat aaa - key.modulus := by
      have small := wordsNat_lt aaa
      have cast : ((2 : ℤ) ^ 32) ^ aaa.length = (((2 ^ 32) ^ aaa.length : ℕ) : ℤ) := by push_cast; rfl
      rw [cast, Int.emod_eq_of_lt (by simp only [RSAPublicKey.modulus] at large; omega)
        (by omega)] at difference
      simp only [RSAPublicKey.modulus] at large ⊢
      omega
    rw [subM, subWords_length, lastLength, ← subM, exactDifference, ← reduced, if_pos large]
  · rw [if_neg (fun accepted => large (compare.mp accepted)), lastLength, ← reduced, if_neg large]

end Exponentiation

private theorem compare_iff (buf padding hash : List UInt8)
    (length : buf.length = padding.length + hash.length) :
    ((List.range padding.length).all (fun i => buf[i]? == padding[i]?) &&
      (List.range' padding.length hash.length).all
        (fun i => buf[i]? == hash[i - padding.length]?)) = true ↔ buf = padding ++ hash := by
  simp only [Bool.and_eq_true, List.all_eq_true, List.mem_range, List.mem_range'_1, beq_iff_eq]
  constructor
  · rintro ⟨inPadding, inHash⟩
    apply List.ext_getElem?
    intro i
    rcases Nat.lt_or_ge i padding.length with early | late
    · rw [inPadding i early, List.getElem?_append_left early]
    · rw [List.getElem?_append_right late]
      rcases Nat.lt_or_ge i (padding.length + hash.length) with inside | outside
      · exact inHash i ⟨late, inside⟩
      · rw [List.getElem?_eq_none (by omega), List.getElem?_eq_none (by omega)]
  · rintro rfl
    refine ⟨fun i early => List.getElem?_append_left early, fun i bounds => ?_⟩
    exact List.getElem?_append_right bounds.1

/-- What `RSA_verify` compares once its three checks have passed. -/
theorem RSA_verify_eq (alg : Algorithm) (key : RSAPublicKey) (len : key.len = siglen_map.get alg)
    (sig hash : List UInt8) (sigLength : sig.length = 4 * siglen_map.get alg)
    (bufLength : (modpowF4 key sig).length = 4 * siglen_map.get alg)
    (hashLength : hash.length = hash_size_map.get alg) :
    RSA_verify key sig sig.length alg hash = true ↔
      modpowF4 key sig = padding_map.get alg ++ hash := by
  have sizes := padding_size_add_hash_size alg
  have padLength := padding_length alg
  have sameLength : ¬ ((sig.length : ℤ) ≠ key.len * 4) := by
    rw [len, sigLength]
    push_cast
    omega
  have sameKey : ¬ (key.len ≠ siglen_map.get alg) := not_not_intro len
  have right : sig.length - padding_size_map.get alg = hash.length := by omega
  have compare := compare_iff (modpowF4 key sig) (padding_map.get alg) hash (by omega)
  rw [padLength] at compare
  rw [RSA_verify, if_neg sameLength, dif_pos alg.isLt, if_neg sameKey]
  simp only [Int.toNat_natCast, List.take_length]
  change ((List.range (padding_size_map.get alg)).all _ &&
    (List.range' (padding_size_map.get alg) (sig.length - padding_size_map.get alg)).all _) = true ↔ _
  rw [right]
  exact compare

/-- `RSA_verify` accepts exactly the PKCS#1 v1.5 signatures of a well-formed key, including
signature values at or above the modulus; the power it compares is fully reduced. -/
theorem RSA_verify_iff_pkcs1 (alg : Algorithm) (key : RSAPublicKey)
    (valid : key.WellFormed (siglen_map.get alg)) (sig hash : List UInt8)
    (sigLength : sig.length = 4 * siglen_map.get alg) (hashLength : hash.length = hash_size_map.get alg) :
    modpowF4 key sig = beBytes (4 * siglen_map.get alg) (beNat sig ^ 65537 % key.modulus) ∧
      (RSA_verify key sig sig.length alg hash = true ↔
        beBytes (4 * siglen_map.get alg) (beNat sig ^ 65537 % key.modulus) =
          padding_map.get alg ++ hash) := by
  have power := modpowF4_eq valid (siglen_pos alg) sig sigLength
  refine ⟨power, ?_⟩
  rw [← power]
  exact RSA_verify_eq alg key valid.len sig hash sigLength (by simp [power]) hashLength

/-- A key whose modulus is all ones, so that `R` and `R^2` reduce to one. -/
def onesKey : RSAPublicKey where
  len := 32
  n0inv := 1
  n := List.replicate 32 0xffffffff
  rr := 1 :: List.replicate 31 0

theorem onesKey_wellFormed : onesKey.WellFormed (siglen_map.get (0 : Algorithm)) where
  len := rfl
  n_length := rfl
  rr_length := rfl
  odd := by decide +kernel
  top := by decide +kernel
  inverse := by decide
  rr := by decide +kernel

/-- The signature of twenty zero bytes under that key. -/
def onesSignature : List UInt8 :=
  beBytes 32 0x07f8d0c4c59da8330fdb75388190d692260d4516eb5d7cb995a6085addaa319f ++
    beBytes 32 0xd23130128d394deb263d043d6bf92eb9e95436e58ad914d2c5117248ebdfeb08 ++
    beBytes 32 0x1bc1ded67a88c0ad3381aafe4bf710a45b6de3d7a0c0679cbf4e9512c5d634df ++
    beBytes 32 0xce9377e81bbc3502c2f783d5fa3e1198d2208f273a7f4ed46f59f90067288819

theorem RSA_verify_onesSignature :
    RSA_verify onesKey onesSignature onesSignature.length (0 : Algorithm) (List.replicate 20 0) =
      true := by
  have length : onesSignature.length = 4 * siglen_map.get (0 : Algorithm) := by decide +kernel
  refine (RSA_verify_iff_pkcs1 0 onesKey onesKey_wellFormed onesSignature (List.replicate 20 0)
    length rfl).2.mpr ?_
  decide +kernel

end ChromiumOS.Vboot
