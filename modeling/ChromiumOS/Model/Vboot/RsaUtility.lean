import ChromiumOS.Model.Vboot.Digest
import ChromiumOS.Model.Vboot.Rsa
import ChromiumOS.Model.Vboot.Utility

/-! # Parsing keys and verifying signed buffers

`rsa_utility.c`. A pointer that may be `NULL` is an `Option`.
-/

namespace ChromiumOS.Vboot

/-- Bytes of a preprocessed key: `n` and `rr`, `len` and `n0inv`. -/
def RSAProcessedKeySize (algorithm : Algorithm) : ℕ :=
  let key_len := siglen_map.get algorithm * 4
  2 * key_len + 4 + 4

/-- Parse a key blob. The inner `none` is `NULL`, for a blob that is too short or too long. The
outer one is a run that uses the uninitialised length of a blob below four bytes, or one in which
`Malloc` aborts on a negative size. -/
def RSAPublicKeyFromBuf (buf : List UInt8) (len : ℤ) : Option (Option RSAPublicKey) := do
  let (lenBytes, st) ← StatefulMemcpy { remaining_buf := buf, remaining_len := len } 4
  let keyLen := intOfUnsigned (wordOfBytes (← lenBytes))
  let key_len := intOfUnsigned (unsignedOfInt (keyLen * 4))
  if key_len < 0 then none
  else
    let (n0inv, st) ← StatefulMemcpy st 4
    let (n, st) ← StatefulMemcpy st key_len
    let (rr, st) ← StatefulMemcpy st key_len
    if st.remaining_len ≠ 0 then some none
    else
      some (some
        { len := keyLen
          n0inv := wordOfBytes (← n0inv)
          n := wordsOfBytes (← n)
          rr := wordsOfBytes (← rr) })

/-- Verify a signature over `buf`, with a key given either as a blob or parsed. -/
def RSAVerifyBinary_f (key_blob : Option (List UInt8)) (key : Option RSAPublicKey)
    (buf : List UInt8) (len : ℤ) (sig : List UInt8) (algorithm : ℕ) : Option Bool :=
  if valid : algorithm < kNumAlgorithms then
    let alg : Algorithm := ⟨algorithm, valid⟩
    let key_size := RSAProcessedKeySize alg
    let sig_size := siglen_map.get alg * 4
    let verify (verification_key : RSAPublicKey) : Option Bool := do
      let digest ← DigestBuf buf len alg
      let sig ← readAt sig 0 sig_size
      some (RSA_verify verification_key sig sig_size algorithm digest)
    match key_blob, key with
    | some key_blob, none => do
        let verification_key ← RSAPublicKeyFromBuf key_blob key_size
        verify (← verification_key)
    | none, some key => verify key
    | _, _ => some false
  else some false

end ChromiumOS.Vboot
