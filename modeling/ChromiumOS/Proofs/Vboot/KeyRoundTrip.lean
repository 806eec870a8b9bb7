import ChromiumOS.Proofs.Vboot.MersenneKeys

/-! # Preprocessed keys are parsed back, and only whole blobs pass

The word count of a key comes from its blob, and multiplied by four it may wrap to a size that fits the blob.
`RSA_verify` compares the count itself with the one of the algorithm, and with that count the blob has room
for the two leading fields and the two arrays and for nothing else.
-/

namespace ChromiumOS.Vboot

open Radix

/-- The checks that `RSA_verify` makes on the lengths before it uses the key. -/
def RSA_verify_checks (key : RSAPublicKey) (sig_len : ℤ) (alg : Algorithm) : Bool :=
  sig_len = key.len * 4 && key.len = siglen_map.get alg

/-- No signature is accepted with a key that does not pass the checks. -/
theorem RSA_verify_passes {key : RSAPublicKey} {sig hash : List UInt8} {sig_len : ℤ} {alg : Algorithm}
    (accepted : RSA_verify key sig sig_len alg hash = true) : RSA_verify_checks key sig_len alg = true := by
  rw [RSA_verify] at accepted
  split at accepted
  · simp at accepted
  · next sized =>
    rw [dif_pos alg.isLt] at accepted
    split at accepted
    · simp at accepted
    · next counted => simp only [RSA_verify_checks, not_not.mp sized, not_not.mp counted, decide_true, Bool.and_self]

theorem wordsOfBytes_spec (count : ℕ) {bytes : List UInt8} (length : bytes.length = count * 4) :
    (wordsOfBytes bytes).length = count ∧ (wordsOfBytes bytes).flatMap bytesOfWord = bytes := by
  induction count generalizing bytes with
  | zero =>
    rw [List.length_eq_zero_iff.mp (length.trans (zero_mul 4))]
    exact ⟨rfl, rfl⟩
  | succ count ih =>
    rcases bytes with _ | ⟨b0, _ | ⟨b1, _ | ⟨b2, _ | ⟨b3, rest⟩⟩⟩⟩
    iterate 4 simp only [List.length_cons, List.length_nil] at length; omega
    have rest_length : rest.length = count * 4 := by
      simp only [List.length_cons] at length
      omega
    obtain ⟨words, bytes⟩ := ih rest_length
    have first : bytesOfWord (wordOfBytes [b0, b1, b2, b3]) = [b0, b1, b2, b3] := bytesOfWord_wordOfBytes rfl
    constructor
    · rw [wordsOfBytes, List.length_cons, words]
    · rw [wordsOfBytes, List.flatMap_cons, bytes, first]
      rfl

/-- The word count of a key is the one that its blob starts with. -/
theorem RSAPublicKeyFromBuf_len {blob : List UInt8} {len : ℕ} {key : RSAPublicKey} (readable : 4 ≤ blob.length)
    (sized : 4 ≤ len) (parsed : RSAPublicKeyFromBuf blob len = some (some key)) :
    key.len = intOfUnsigned (wordOfBytes (blob.take 4)) := by
  have allowed : ((4 : ℕ) : ℤ) ≤ len := by omega
  have field := StatefulMemcpy_of_le blob len 4 allowed readable
  rw [Nat.cast_ofNat] at field
  simp only [RSAPublicKeyFromBuf, field, Option.bind_eq_bind, Option.bind_some] at parsed
  split at parsed
  · simp at parsed
  · simp only [Option.bind_eq_some_iff] at parsed
    obtain ⟨_, -, _, -, _, -, parsed⟩ := parsed
    split at parsed
    · simp at parsed
    · simp only [Option.bind_eq_some_iff, Option.some.injEq] at parsed
      obtain ⟨_, -, _, -, _, -, rfl⟩ := parsed
      rfl

/-- A key that passes the checks has its arrays from the blob, and nothing of the blob is left. -/
theorem RSAPublicKeyFromBuf_consumes {alg : Algorithm} {blob : List UInt8} {key : RSAPublicKey} {sig_len : ℤ}
    (length : blob.length = RSAProcessedKeySize alg)
    (parsed : RSAPublicKeyFromBuf blob (RSAProcessedKeySize alg) = some (some key))
    (passed : RSA_verify_checks key sig_len alg = true) :
    (key.n.length : ℤ) = key.len ∧ (key.rr.length : ℤ) = key.len ∧
      blob = bytesOfWord (unsignedOfInt key.len) ++ bytesOfWord key.n0inv ++ key.n.flatMap bytesOfWord ++
        key.rr.flatMap bytesOfWord := by
  have keySize : RSAProcessedKeySize alg = 2 * (siglen_map.get alg * 4) + 8 := rfl
  have counted : key.len = siglen_map.get alg := by
    simp only [RSA_verify_checks, Bool.and_eq_true, decide_eq_true_eq] at passed
    exact passed.2
  have field := RSAPublicKeyFromBuf_len (by omega) (by omega) parsed
  have word : wordOfBytes (blob.take 4) = UInt32.ofNat (siglen_map.get alg) := by
    have small := siglen_le alg
    rw [← unsignedOfInt_intOfUnsigned (wordOfBytes (blob.take 4)), ← field, counted, unsignedOfInt]
    congr 1
    omega
  rw [RSAPublicKeyFromBuf_of_length length word, Option.some.injEq, Option.some.injEq] at parsed
  subst parsed
  have n_bytes : ((blob.drop 8).take (siglen_map.get alg * 4)).length = siglen_map.get alg * 4 := by
    rw [List.length_take, List.length_drop]
    omega
  have rr_bytes : (blob.drop (8 + siglen_map.get alg * 4)).length = siglen_map.get alg * 4 := by
    rw [List.length_drop]
    omega
  obtain ⟨n_length, n_words⟩ := wordsOfBytes_spec _ n_bytes
  obtain ⟨rr_length, rr_words⟩ := wordsOfBytes_spec _ rr_bytes
  have len_field : bytesOfWord (unsignedOfInt (siglen_map.get alg)) = blob.take 4 := by
    dsimp only at field
    rw [field, unsignedOfInt_intOfUnsigned]
    exact bytesOfWord_wordOfBytes (List.length_take_of_le (by omega))
  have inv_field : bytesOfWord (wordOfBytes ((blob.drop 4).take 4)) = (blob.drop 4).take 4 := by
    apply bytesOfWord_wordOfBytes
    rw [List.length_take, List.length_drop]
    omega
  refine ⟨congrArg Nat.cast n_length, congrArg Nat.cast rr_length, ?_⟩
  dsimp only
  rw [n_words, rr_words, len_field, inv_field, ← List.drop_drop, List.append_assoc, List.take_append_drop,
    List.append_assoc, ← List.drop_drop (i := 4) (j := 4) (l := blob), List.take_append_drop,
    List.take_append_drop]

/-- An odd number with the bits of a key size is a modulus for the algorithms of that size. -/
theorem isModulusFor_of_bits {alg : Algorithm} {N : ℕ} (odd : N % 2 = 1)
    (bits : BN_num_bits N = 32 * siglen_map.get alg) : IsModulusFor alg N := by
  have nonzero : N ≠ 0 := by omega
  rw [BN_num_bits, if_neg nonzero] at bits
  have top : 32 * siglen_map.get alg - 1 ≤ N.log2 := by omega
  have bound : N.log2 < 32 * siglen_map.get alg := by omega
  exact ⟨odd, (Nat.le_log2 nonzero).mp top, (Nat.log2_lt nonzero).mp bound⟩

theorem exists_algorithm {bits : ℕ} (size : bits ∈ [1024, 2048, 4096, 8192]) :
    ∃ alg : Algorithm, bits = 32 * siglen_map.get alg := by
  simp only [List.mem_cons, List.not_mem_nil, or_false] at size
  rcases size with rfl | rfl | rfl | rfl
  · exact ⟨0, rfl⟩
  · exact ⟨3, rfl⟩
  · exact ⟨6, rfl⟩
  · exact ⟨9, rfl⟩

/-- The key that is parsed from the output for `N`. -/
theorem output_parses_back {bits N : ℕ} (size : bits ∈ [1024, 2048, 4096, 8192]) (odd : N % 2 = 1)
    (num_bits : BN_num_bits N = bits) :
    ∃ key, RSAPublicKeyFromBuf (output N) (output N).length = some (some key) ∧ key.len = (bits / 32 : ℕ) ∧
      key.n.length = bits / 32 ∧ wordsNat key.n = N ∧
      key.rr.length = bits / 32 ∧ wordsNat key.rr = (2 ^ bits) ^ 2 % N ∧
      2 ^ 32 ∣ N * key.n0inv.toNat + 1 := by
  obtain ⟨alg, rfl⟩ := exists_algorithm size
  have modulus := isModulusFor_of_bits odd num_bits
  obtain ⟨key, parsed, valid, value⟩ := output_parses modulus
  have words : 32 * siglen_map.get alg / 32 = siglen_map.get alg := Nat.mul_div_cancel_left _ (by decide)
  have inverse := (valid.isModulus (siglen_pos alg)).inverse
  have square := valid.rr
  rw [RSAPublicKey.modulus] at value
  rw [value] at inverse
  rw [RSAPublicKey.modulus, value, radixOf, ← pow_mul 2 32] at square
  rw [words, output_length modulus]
  exact ⟨key, parsed, valid.len, valid.n_length, value, valid.rr_length, square, inverse⟩

/-- What `dumpRSAPublicKey` writes for a modulus is parsed back, and a parsed key that passes the checks of
`RSA_verify` is the whole of its blob. -/
theorem key_preprocessing_agrees :
    (∀ bits ∈ [1024, 2048, 4096, 8192], ∀ N, N % 2 = 1 → BN_num_bits N = bits →
      ∃ key, RSAPublicKeyFromBuf (output N) (output N).length = some (some key) ∧
        key.len = (bits / 32 : ℕ) ∧ key.n.length = bits / 32 ∧ wordsNat key.n = N ∧
        key.rr.length = bits / 32 ∧ wordsNat key.rr = (2 ^ bits) ^ 2 % N ∧
        2 ^ 32 ∣ N * key.n0inv.toNat + 1) ∧
    ∀ (alg : Algorithm) (blob : List UInt8) (key : RSAPublicKey) (sig_len : ℤ),
      blob.length = RSAProcessedKeySize alg →
      RSAPublicKeyFromBuf blob (RSAProcessedKeySize alg) = some (some key) →
      RSA_verify_checks key sig_len alg = true →
      (key.n.length : ℤ) = key.len ∧ (key.rr.length : ℤ) = key.len ∧
        blob = bytesOfWord (unsignedOfInt key.len) ++ bytesOfWord key.n0inv ++ key.n.flatMap bytesOfWord ++
          key.rr.flatMap bytesOfWord := by
  constructor
  · intro bits size N odd num_bits
    exact output_parses_back size odd num_bits
  · intro alg blob key sig_len length parsed passed
    exact RSAPublicKeyFromBuf_consumes length parsed passed

/-- A modulus of 1024 bits, and the blob that is written for it. -/
theorem key_preprocessing_agrees_mersenne :
    ∃ key, RSAPublicKeyFromBuf (output (mersenneModulus exponents1024)) (RSAProcessedKeySize 0) =
        some (some key) ∧
      wordsNat key.n = mersenneModulus exponents1024 ∧ (key.n.length : ℤ) = key.len ∧
      output (mersenneModulus exponents1024) =
        bytesOfWord (unsignedOfInt key.len) ++ bytesOfWord key.n0inv ++ key.n.flatMap bytesOfWord ++
          key.rr.flatMap bytesOfWord := by
  have length := output_length exponents1024_modulus
  obtain ⟨back, safe⟩ := key_preprocessing_agrees
  obtain ⟨key, parsed, len, -, value, -⟩ := back 1024 (by decide) (mersenneModulus exponents1024)
    exponents1024_modulus.odd exponents1024_modulus.num_bits
  rw [length] at parsed
  have passed : RSA_verify_checks key 128 0 = true := by
    rw [RSA_verify_checks, len]
    decide
  obtain ⟨words, -, whole⟩ := safe 0 _ key 128 length parsed passed
  exact ⟨key, parsed, value, words, whole⟩

end ChromiumOS.Vboot
