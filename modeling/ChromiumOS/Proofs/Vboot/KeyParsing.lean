import ChromiumOS.Model.Vboot.RsaUtility
import ChromiumOS.Proofs.Vboot.DigestStream

/-! # Parsers and verifiers read only what their lengths cover

A `MemcpyState` never looks beyond its `remaining_len`, so a key parsed from the start of a longer
buffer is the key parsed from exactly its own bytes; the same holds for the signed bytes and the
signature that `RSAVerifyBinary_f` is given.
-/

namespace ChromiumOS.Vboot

theorem unsignedOfInt_intOfUnsigned (value : UInt32) :
    unsignedOfInt (intOfUnsigned value) = value := by
  have bound : value.toNat < 2 ^ 32 := value.toNat_lt
  have whole : (intOfUnsigned value % 2 ^ 32).toNat = value.toNat := by
    rw [intOfUnsigned]
    split <;> omega
  rw [unsignedOfInt, whole, UInt32.ofNat_toNat]

theorem intOfUnsigned_lt (value : UInt32) : intOfUnsigned value < 2 ^ 31 := by
  have bound : value.toNat < 2 ^ 32 := value.toNat_lt
  rw [intOfUnsigned]
  split <;> omega

theorem intOfUnsigned_of_lt {value : UInt32} (bound : value.toNat < 2 ^ 31) :
    intOfUnsigned value = value.toNat :=
  if_pos bound

theorem SafeMemcmp_eq {s1 s2 : List UInt8} {n : ℕ} (first : n ≤ s1.length) (second : n ≤ s2.length) :
    SafeMemcmp s1 s2 n = some (decide (s1.take n ≠ s2.take n)) := by
  have same : ∀ left right : List UInt8, left.length = right.length →
      (left.zip right).any (fun pair => pair.1 ≠ pair.2) = decide (left ≠ right) := by
    intro left
    induction left with
    | nil => intro right length; simp [List.eq_nil_of_length_eq_zero length.symm]
    | cons a left ih =>
      intro right length
      obtain ⟨b, right, rfl⟩ := List.exists_cons_of_length_eq_add_one length.symm
      have rest := ih right (by simpa using length)
      rw [List.zip_cons_cons, List.any_cons, rest]
      by_cases equal : a = b <;> simp [equal]
  simp only [SafeMemcmp, readAt_of_le (show 0 + n ≤ s1.length by omega),
    readAt_of_le (show 0 + n ≤ s2.length by omega), List.drop_zero, Option.bind_eq_bind,
    Option.bind_some]
  rw [same _ _ (by rw [List.length_take_of_le first, List.length_take_of_le second])]

/-- Two states that agree on the bytes they may still hand out. -/
structure MemcpyState.Agrees (left right : MemcpyState) : Prop where
  len : left.remaining_len = right.remaining_len
  buf : left.remaining_buf.take left.remaining_len.toNat =
    right.remaining_buf.take left.remaining_len.toNat

/-- Agreeing states hand out the same bytes and stay in agreement. -/
theorem StatefulMemcpy_agrees {left right : MemcpyState} (agrees : left.Agrees right) (len : ℤ) :
    (StatefulMemcpy left len = none ∧ StatefulMemcpy right len = none) ∨
      ∃ bytes left' right', StatefulMemcpy left len = some (bytes, left') ∧
        StatefulMemcpy right len = some (bytes, right') ∧ left'.Agrees right' := by
  obtain ⟨leftBuf, leftLen⟩ := left
  obtain ⟨rightBuf, rightLen⟩ := right
  obtain ⟨rfl, buf⟩ := agrees
  dsimp only at buf
  by_cases overrun : len > leftLen
  · exact .inr ⟨none, ⟨leftBuf, -1⟩, ⟨rightBuf, -1⟩, by simp [StatefulMemcpy, overrun],
      by simp [StatefulMemcpy, overrun], rfl, rfl⟩
  · by_cases negative : len < 0
    · exact .inl ⟨by simp [StatefulMemcpy, overrun, negative],
        by simp [StatefulMemcpy, overrun, negative]⟩
    · have inside : 0 + len.toNat ≤ leftLen.toNat := by omega
      have sameRead : readAt leftBuf 0 len.toNat = readAt rightBuf 0 len.toNat := by
        rw [← readAt_take inside, buf, readAt_take inside]
      cases read : readAt rightBuf 0 len.toNat with
      | none =>
        refine .inl ⟨?_, ?_⟩ <;> simp [StatefulMemcpy, overrun, negative, sameRead, read]
      | some bytes =>
        refine .inr ⟨some bytes, ⟨leftBuf.drop len.toNat, leftLen - len⟩,
          ⟨rightBuf.drop len.toNat, leftLen - len⟩, ?_, ?_, rfl, ?_⟩
        · simp [StatefulMemcpy, overrun, negative, sameRead, read]
        · simp [StatefulMemcpy, overrun, negative, read]
        · have remaining : (leftLen - len).toNat = leftLen.toNat - len.toNat := by omega
          rw [remaining, ← List.drop_take, ← List.drop_take, buf]

/-- A key depends only on the bytes of its own length. -/
theorem RSAPublicKeyFromBuf_take (buf : List UInt8) (len : ℤ) :
    RSAPublicKeyFromBuf (buf.take len.toNat) len = RSAPublicKeyFromBuf buf len := by
  have start : MemcpyState.Agrees ⟨buf.take len.toNat, len⟩ ⟨buf, len⟩ :=
    ⟨rfl, by rw [List.take_take, min_self]⟩
  rw [RSAPublicKeyFromBuf, RSAPublicKeyFromBuf]
  obtain ⟨left, right⟩ | ⟨lenBytes, _, _, left, right, agrees⟩ := StatefulMemcpy_agrees start 4
  · rw [left, right]
  rw [left, right]
  cases lenBytes with
  | none => rfl
  | some lenBytes =>
    simp only [Option.bind_eq_bind, Option.bind_some]
    split
    · rfl
    obtain ⟨left, right⟩ | ⟨n0inv, _, _, left, right, agrees⟩ := StatefulMemcpy_agrees agrees 4
    · rw [left, right]
    rw [left, right]
    simp only [Option.bind_some]
    obtain ⟨left, right⟩ | ⟨n, _, _, left, right, agrees⟩ := StatefulMemcpy_agrees agrees
      (intOfUnsigned (unsignedOfInt (intOfUnsigned (wordOfBytes lenBytes) * 4)))
    · rw [left, right]
    rw [left, right]
    simp only [Option.bind_some]
    obtain ⟨left, right⟩ | ⟨rr, _, _, left, right, agrees⟩ := StatefulMemcpy_agrees agrees
      (intOfUnsigned (unsignedOfInt (intOfUnsigned (wordOfBytes lenBytes) * 4)))
    · rw [left, right]
    rw [left, right]
    simp only [Option.bind_some, agrees.len]

/-- A request that the state can meet. -/
theorem StatefulMemcpy_of_le (buf : List UInt8) (remaining : ℤ) (count : ℕ)
    (allowed : (count : ℤ) ≤ remaining) (readable : count ≤ buf.length) :
    StatefulMemcpy ⟨buf, remaining⟩ count =
      some (some (buf.take count), ⟨buf.drop count, remaining - count⟩) := by
  have within : ¬(count : ℤ) > remaining := by omega
  have nonneg : ¬(count : ℤ) < 0 := by omega
  simp only [StatefulMemcpy, within, nonneg, if_false, Int.toNat_natCast,
    readAt_of_le (show 0 + count ≤ buf.length by omega), List.drop_zero, Option.bind_eq_bind,
    Option.bind_some]

/-- A blob of the processed key size whose length field fits its algorithm parses, into the words
that follow the two leading fields. -/
theorem RSAPublicKeyFromBuf_of_length {alg : Algorithm} {blob : List UInt8}
    (length : blob.length = RSAProcessedKeySize alg)
    (len : wordOfBytes (blob.take 4) = UInt32.ofNat (siglen_map.get alg)) :
    RSAPublicKeyFromBuf blob (RSAProcessedKeySize alg) = some (some
      { len := siglen_map.get alg
        n0inv := wordOfBytes ((blob.drop 4).take 4)
        n := wordsOfBytes ((blob.drop 8).take (siglen_map.get alg * 4))
        rr := wordsOfBytes (blob.drop (8 + siglen_map.get alg * 4)) }) := by
  have small := siglen_le alg
  have keySize : RSAProcessedKeySize alg = 2 * (siglen_map.get alg * 4) + 8 := rfl
  have lenToNat : (UInt32.ofNat (siglen_map.get alg)).toNat = siglen_map.get alg :=
    UInt32.toNat_ofNat_of_lt' (by rw [UInt32.size]; omega)
  have keyLen : intOfUnsigned (wordOfBytes (blob.take 4)) = siglen_map.get alg := by
    rw [len, intOfUnsigned_of_lt (by omega), lenToNat]
  have bytesLen : intOfUnsigned (unsignedOfInt ((siglen_map.get alg : ℤ) * 4)) =
      (siglen_map.get alg * 4 : ℕ) := by
    have toNat : (unsignedOfInt ((siglen_map.get alg : ℤ) * 4)).toNat = siglen_map.get alg * 4 := by
      rw [unsignedOfInt_toNat (by omega) (by omega)]
      omega
    rw [intOfUnsigned_of_lt (by omega), toNat]
  have step1 := StatefulMemcpy_of_le blob (RSAProcessedKeySize alg) 4
    (by omega) (by omega)
  have step2 := StatefulMemcpy_of_le (blob.drop 4) (RSAProcessedKeySize alg - (4 : ℕ)) 4 (by omega)
    (by rw [List.length_drop]; omega)
  have step3 := StatefulMemcpy_of_le ((blob.drop 4).drop 4)
    (RSAProcessedKeySize alg - (4 : ℕ) - (4 : ℕ)) (siglen_map.get alg * 4)
    (by omega) (by rw [List.length_drop, List.length_drop]; omega)
  have step4 := StatefulMemcpy_of_le (((blob.drop 4).drop 4).drop (siglen_map.get alg * 4))
    (RSAProcessedKeySize alg - (4 : ℕ) - (4 : ℕ) - (siglen_map.get alg * 4 : ℕ))
    (siglen_map.get alg * 4) (by omega)
    (by rw [List.length_drop, List.length_drop, List.length_drop]; omega)
  have done : (RSAProcessedKeySize alg : ℤ) - (4 : ℕ) - (4 : ℕ) - (siglen_map.get alg * 4 : ℕ) -
      (siglen_map.get alg * 4 : ℕ) = 0 := by omega
  have nonneg : ¬((siglen_map.get alg * 4 : ℕ) : ℤ) < 0 := by omega
  have lastWords : (((blob.drop 4).drop 4).drop (siglen_map.get alg * 4)).take (siglen_map.get alg * 4) =
      blob.drop (8 + siglen_map.get alg * 4) := by
    rw [List.take_of_length_le (by simp only [List.length_drop]; omega), List.drop_drop,
      List.drop_drop, ← Nat.add_assoc]
  simp only [Nat.cast_ofNat] at step1 step2 step3 step4 done
  simp only [RSAPublicKeyFromBuf, step1, Option.bind_eq_bind, Option.bind_some, keyLen, bytesLen,
    nonneg, if_false, step2, step3, step4, done, ne_eq, not_true_eq_false, lastWords]
  rw [List.drop_drop]

/-- A key blob that parses stands for its key. -/
theorem RSAVerifyBinary_f_blob {key_blob : List UInt8} {alg : Algorithm} {key : RSAPublicKey}
    (parsed : RSAPublicKeyFromBuf key_blob (RSAProcessedKeySize alg) = some (some key))
    (buf : List UInt8) (len : ℤ) (sig : List UInt8) :
    RSAVerifyBinary_f (some key_blob) none buf len sig alg =
      RSAVerifyBinary_f none (some key) buf len sig alg := by
  simp [RSAVerifyBinary_f, alg.isLt, parsed]

/-- Verification reads the signed bytes and the signature and nothing behind them. -/
theorem RSAVerifyBinary_f_take (key : Option RSAPublicKey) (buf : List UInt8) {len : ℤ}
    (bound : len < 2 ^ 31) (sig : List UInt8) (alg : Algorithm) :
    RSAVerifyBinary_f none key (buf.take (unsignedOfInt len).toNat) len
      (sig.take (siglen_map.get alg * 4)) alg = RSAVerifyBinary_f none key buf len sig alg := by
  cases key with
  | none => rfl
  | some key =>
    have signature : readAt (sig.take (siglen_map.get alg * 4)) 0 (siglen_map.get alg * 4) =
        readAt sig 0 (siglen_map.get alg * 4) := readAt_take (by omega)
    simp only [RSAVerifyBinary_f, alg.isLt, dif_pos, Fin.eta, DigestBuf_take buf bound alg, signature]

end ChromiumOS.Vboot
