import ChromiumOS.Model.Vboot.FirmwareImage
import ChromiumOS.Proofs.Vboot.KeyParsing

/-! # The chain of trust of a firmware blob

`VerifyFirmware` walks a blob by offsets that it computes from the blob itself. The parts of a blob
are what those offsets cut out; verification is a function of the parts, in which each signature
covers one part and each later part is used only as the earlier ones describe it.
-/

namespace ChromiumOS.Vboot

open Radix

/-- A firmware blob cut at the offsets its own fields declare. -/
structure FirmwareParts where
  magic : List UInt8
  header_len : ℕ
  sign_algorithm : ℕ
  header : List UInt8
  key_signature : List UInt8
  preamble : List UInt8
  firmware_len : UInt32
  preamble_signature : List UInt8
  firmware_signature : List UInt8
  firmware_data : List UInt8

/-- The signature size of an algorithm number, zero when it names no algorithm. -/
def signatureSize (algorithm : ℕ) : ℕ :=
  match tableIndex algorithm with
  | some alg => siglen_map.get alg * 4
  | none => 0

/-- The header length that belongs to an algorithm. -/
def headerSize (alg : Algorithm) : ℕ :=
  base_header_checksum_offset + RSAProcessedKeySize alg + SHA512_DIGEST_SIZE

def partsOf (blob : List UInt8) : FirmwareParts :=
  let header_ptr := blob.drop FIRMWARE_MAGIC_SIZE
  let header_len := (halfOfBytes (header_ptr.take 2)).toNat
  let sign_algorithm := (halfOfBytes ((header_ptr.drop 2).take 2)).toNat
  let signature_len := signatureSize sign_algorithm
  let preamble_ptr := header_ptr.drop (header_len + RSA8192NUMBYTES)
  let firmware_len := wordOfBytes ((preamble_ptr.drop 2).take 4)
  let firmware_ptr := preamble_ptr.drop (preamble_len + signature_len)
  { magic := blob.take FIRMWARE_MAGIC_SIZE
    header_len := header_len
    sign_algorithm := sign_algorithm
    header := header_ptr.take header_len
    key_signature := (header_ptr.drop header_len).take RSA8192NUMBYTES
    preamble := preamble_ptr.take preamble_len
    firmware_len := firmware_len
    preamble_signature := (preamble_ptr.drop preamble_len).take signature_len
    firmware_signature := firmware_ptr.take signature_len
    firmware_data := (firmware_ptr.drop signature_len).take firmware_len.toNat }

/-- The bytes that the length fields of a blob account for. -/
def FirmwareParts.declaredLength (parts : FirmwareParts) : ℕ :=
  FIRMWARE_MAGIC_SIZE + parts.header_len + RSA8192NUMBYTES + preamble_len +
    2 * signatureSize parts.sign_algorithm + parts.firmware_len.toNat

/-- The blob has the fields that declare its lengths, and the bytes they declare. -/
def LongEnough (blob : List UInt8) : Prop :=
  FIRMWARE_MAGIC_SIZE + 4 ≤ blob.length ∧ (partsOf blob).declaredLength ≤ blob.length

/-- Whether a key accepts `sig` as a signature over all of `message`. -/
def accepts (key : Option RSAPublicKey) (alg : Algorithm) (message sig : List UInt8) : Option Bool :=
  RSAVerifyBinary_f none key message (intOfUnsigned (UInt32.ofNat message.length)) sig alg

namespace FirmwareParts

variable (parts : FirmwareParts)

/-- The signing key inside the header. -/
def signKey (alg : Algorithm) : Option (Option RSAPublicKey) :=
  RSAPublicKeyFromBuf ((parts.header.drop 4).take (RSAProcessedKeySize alg)) (RSAProcessedKeySize alg)

/-- The stored checksum is the digest of the header before it. -/
def ChecksumOk : Prop :=
  parts.header.drop (parts.header_len - SHA512_DIGEST_SIZE) = digestOf SHA512_DIGEST_ALGORITHM
    (parts.header.take (parts.header_len - SHA512_DIGEST_SIZE))

instance : Decidable parts.ChecksumOk := inferInstanceAs (Decidable (_ = _))

/-- The two checks made with the signing key. -/
def verifyBody (alg : Algorithm) (signKey : Option RSAPublicKey) :
    Option (Except VerifyFirmwareError Unit) := do
  if ← accepts signKey alg parts.preamble parts.preamble_signature then
    if ← accepts signKey alg parts.firmware_data parts.firmware_signature then some (.ok ())
    else some (.error .SIGNATURE_FAILED)
  else some (.error .PREAMBLE_SIGNATURE_FAILED)

/-- Whether the header is trusted: developer mode does not ask the root key. -/
def trusted (root : RSAPublicKey) (dev_mode : ℤ) : Option Bool :=
  if dev_mode = 0 then
    accepts (some root) ROOT_SIGNATURE_ALGORITHM parts.header parts.key_signature
  else some true

/-- Verification as a function of the parts. -/
def verify (root : RSAPublicKey) (dev_mode : ℤ) : Option (Except VerifyFirmwareError Unit) := do
  if parts.magic ≠ FIRMWARE_MAGIC.toList then some (.error .WRONG_MAGIC)
  else if valid : parts.sign_algorithm < kNumAlgorithms then
    let alg : Algorithm := ⟨parts.sign_algorithm, valid⟩
    if parts.header_len ≠ headerSize alg then some (.error .INVALID_IMAGE)
    else if ¬parts.ChecksumOk then some (.error .INVALID_IMAGE)
    else if ← parts.trusted root dev_mode then parts.verifyBody alg (← parts.signKey alg)
    else some (.error .ROOT_SIGNATURE_FAILED)
  else some (.error .INVALID_ALGORITHM)

end FirmwareParts

/-- Verifying the bytes at a pointer is accepting exactly the bytes its length covers. -/
theorem accepts_take (key : Option RSAPublicKey) (alg : Algorithm) {buf : List UInt8}
    (count : UInt32) (readable : count.toNat ≤ buf.length) (sig : List UInt8) :
    accepts key alg (buf.take count.toNat) (sig.take (siglen_map.get alg * 4)) =
      RSAVerifyBinary_f none key buf (intOfUnsigned count) sig alg := by
  rw [accepts, List.length_take_of_le readable, UInt32.ofNat_toNat,
    ← RSAVerifyBinary_f_take key buf (intOfUnsigned_lt count), unsignedOfInt_intOfUnsigned]

theorem accepts_take_nat (key : Option RSAPublicKey) (alg : Algorithm) {buf : List UInt8}
    {count : ℕ} (small : count < 2 ^ 31) (readable : count ≤ buf.length) (sig : List UInt8) :
    accepts key alg (buf.take count) (sig.take (siglen_map.get alg * 4)) =
      RSAVerifyBinary_f none key buf count sig alg := by
  have toNat : (UInt32.ofNat count).toNat = count :=
    UInt32.toNat_ofNat_of_lt' (by rw [UInt32.size]; omega)
  have whole := accepts_take key alg (UInt32.ofNat count) (by rwa [toNat]) sig
  rwa [intOfUnsigned_of_lt (by rwa [toNat]), toNat] at whole

theorem headerSize_bounds (alg : Algorithm) :
    70 ≤ headerSize alg ∧ headerSize alg < 2 ^ 16 := by
  revert alg
  decide

theorem half_toNat_lt (half : UInt16) : half.toNat < 2 ^ 16 := half.toNat_lt

/-- The checksum comparison inside the header check. -/
private theorem checksum_step (header : List UInt8) (alg : Algorithm)
    (readable : headerSize alg ≤ header.length) :
    ((DigestBuf header ((headerSize alg : ℤ) - SHA512_DIGEST_SIZE) SHA512_DIGEST_ALGORITHM).bind
      fun header_checksum => SafeMemcmp header_checksum
        (header.drop (base_header_checksum_offset + RSAProcessedKeySize alg)) SHA512_DIGEST_SIZE) =
      some (decide ((header.take (headerSize alg)).drop (headerSize alg - SHA512_DIGEST_SIZE) ≠
        digestOf SHA512_DIGEST_ALGORITHM
          ((header.take (headerSize alg)).take (headerSize alg - SHA512_DIGEST_SIZE)))) := by
  have bounds := headerSize_bounds alg
  have offset : base_header_checksum_offset + RSAProcessedKeySize alg =
      headerSize alg - SHA512_DIGEST_SIZE := by
    simp only [headerSize, Nat.add_sub_cancel]
  have size : SHA512_DIGEST_SIZE = 64 := rfl
  have count : ((headerSize alg : ℤ) - SHA512_DIGEST_SIZE).toNat =
      headerSize alg - SHA512_DIGEST_SIZE := by omega
  have stored : (header.take (headerSize alg)).drop (headerSize alg - SHA512_DIGEST_SIZE) =
      (header.drop (headerSize alg - SHA512_DIGEST_SIZE)).take SHA512_DIGEST_SIZE := by
    rw [List.drop_take]
    congr 1
    omega
  have digestLength := digestOf_length SHA512_DIGEST_ALGORITHM
    (header.take (headerSize alg - SHA512_DIGEST_SIZE))
  have digestSize : hash_size_map.get SHA512_DIGEST_ALGORITHM = SHA512_DIGEST_SIZE := rfl
  rw [DigestBuf_eq _ _ SHA512_DIGEST_ALGORITHM (by omega) (by omega) (by omega), Option.bind_some, offset,
    count, SafeMemcmp_eq (by omega) (by rw [List.length_drop]; omega), stored, List.take_take,
    min_eq_left (by omega), List.take_of_length_le (by omega)]
  simp only [ne_comm]

section Blob

variable {root_key_blob : List UInt8} {root : RSAPublicKey}
variable (parsed : RSAPublicKeyFromBuf root_key_blob
  (RSAProcessedKeySize ROOT_SIGNATURE_ALGORITHM) = some (some root))
variable {blob : List UInt8} (long : LongEnough blob)

include parsed long in
/-- The header check, on the parts of the blob. -/
theorem VerifyFirmwareHeader_eq (dev_mode : ℤ) :
    VerifyFirmwareHeader root_key_blob (blob.drop FIRMWARE_MAGIC_SIZE) dev_mode =
      if valid : (partsOf blob).sign_algorithm < kNumAlgorithms then
        if (partsOf blob).header_len ≠ headerSize ⟨(partsOf blob).sign_algorithm, valid⟩ then
          some (.error .INVALID_IMAGE)
        else if ¬(partsOf blob).ChecksumOk then some (.error .INVALID_IMAGE)
        else ((partsOf blob).trusted root dev_mode).bind fun trusted =>
          if trusted then
            some (.ok (⟨(partsOf blob).sign_algorithm, valid⟩, (partsOf blob).header_len))
          else some (.error .ROOT_SIGNATURE_FAILED)
      else some (.error .INVALID_ALGORITHM) := by
  obtain ⟨fields, declared⟩ := long
  simp only [FirmwareParts.declaredLength] at declared
  have readLen := readAt_of_le (show 0 + 2 ≤ (blob.drop FIRMWARE_MAGIC_SIZE).length by
    rw [List.length_drop]; omega)
  have readAlgo := readAt_of_le (show 2 + 2 ≤ (blob.drop FIRMWARE_MAGIC_SIZE).length by
    rw [List.length_drop]; omega)
  have lenEq : (halfOfBytes (((blob.drop FIRMWARE_MAGIC_SIZE).drop 0).take 2)).toNat =
      (partsOf blob).header_len := rfl
  have algoEq : (halfOfBytes (((blob.drop FIRMWARE_MAGIC_SIZE).drop 2).take 2)).toNat =
      (partsOf blob).sign_algorithm := rfl
  simp only [VerifyFirmwareHeader, readLen, readAlgo, Option.bind_eq_bind, Option.bind_some,
    lenEq, algoEq]
  split
  · next valid =>
    generalize (⟨(partsOf blob).sign_algorithm, valid⟩ : Algorithm) = alg
    have bounds := headerSize_bounds alg
    by_cases size : (partsOf blob).header_len = headerSize alg
    · have readable : headerSize alg + RSA8192NUMBYTES ≤ (blob.drop FIRMWARE_MAGIC_SIZE).length := by
        rw [List.length_drop]
        omega
      have header : (partsOf blob).header =
          (blob.drop FIRMWARE_MAGIC_SIZE).take (headerSize alg) := by
        rw [← size]
        rfl
      have checksum := checksum_step (blob.drop FIRMWARE_MAGIC_SIZE) alg (by omega)
      have keySignature : (partsOf blob).key_signature = ((blob.drop FIRMWARE_MAGIC_SIZE).drop
          (headerSize alg)).take (siglen_map.get ROOT_SIGNATURE_ALGORITHM * 4) := by
        rw [← size]
        rfl
      have rootCheck := accepts_take_nat (some root) ROOT_SIGNATURE_ALGORITHM (by omega)
        (show headerSize alg ≤ (blob.drop FIRMWARE_MAGIC_SIZE).length by omega)
        ((blob.drop FIRMWARE_MAGIC_SIZE).drop (headerSize alg))
      rw [← RSAVerifyBinary_f_blob parsed, ← header, ← keySignature] at rootCheck
      have sizeTest : ¬(headerSize alg ≠
          base_header_checksum_offset + RSAProcessedKeySize alg + SHA512_DIGEST_SIZE) :=
        not_not_intro rfl
      rw [size, if_neg sizeTest, if_neg (not_not_intro rfl), ← Option.bind_assoc, checksum,
        Option.bind_some, ← header]
      simp only [FirmwareParts.ChecksumOk, size, FirmwareParts.trusted, ← rootCheck, decide_eq_true_eq,
        ne_eq]
      split
      · rfl
      · split <;> rfl
    · simp only [headerSize] at size ⊢
      simp only [ne_eq, size, not_false_eq_true, if_true]
  · rfl

theorem signatureSize_of_lt {algorithm : ℕ} (valid : algorithm < kNumAlgorithms) :
    signatureSize algorithm = siglen_map.get (⟨algorithm, valid⟩ : Algorithm) * 4 := by
  simp [signatureSize, tableIndex, valid]

/-- The key parsed at its offset is the key inside the header. -/
theorem signKey_eq {alg : Algorithm} (size : (partsOf blob).header_len = headerSize alg) :
    RSAPublicKeyFromBuf ((blob.drop FIRMWARE_MAGIC_SIZE).drop (2 + 2)) (RSAProcessedKeySize alg) =
      (partsOf blob).signKey alg := by
  have inside : 4 + RSAProcessedKeySize alg ≤ headerSize alg := by
    simp only [headerSize, base_header_checksum_offset]
    omega
  have header : (partsOf blob).header =
      (blob.drop FIRMWARE_MAGIC_SIZE).take (headerSize alg) := by
    rw [← size]
    rfl
  rw [FirmwareParts.signKey, header, List.drop_take, List.take_take, min_eq_left (by omega),
    ← RSAPublicKeyFromBuf_take, Int.toNat_natCast]

include long

/-- The preamble check, on the parts of the blob. -/
theorem VerifyFirmwarePreamble_eq (valid : (partsOf blob).sign_algorithm < kNumAlgorithms)
    (sign_key : Option RSAPublicKey) :
    VerifyFirmwarePreamble sign_key ((blob.drop FIRMWARE_MAGIC_SIZE).drop
      ((partsOf blob).header_len + RSA8192NUMBYTES)) ⟨(partsOf blob).sign_algorithm, valid⟩ =
      (accepts sign_key ⟨(partsOf blob).sign_algorithm, valid⟩ (partsOf blob).preamble
        (partsOf blob).preamble_signature).bind fun accepted =>
          if accepted then some (.ok (intOfUnsigned (partsOf blob).firmware_len))
          else some (.error .PREAMBLE_SIGNATURE_FAILED) := by
  have declared := long.2
  simp only [FirmwareParts.declaredLength] at declared
  obtain ⟨preamble_ptr, pointer⟩ : ∃ preamble_ptr, preamble_ptr =
      (blob.drop FIRMWARE_MAGIC_SIZE).drop ((partsOf blob).header_len + RSA8192NUMBYTES) := ⟨_, rfl⟩
  have readable : preamble_len ≤ preamble_ptr.length := by
    rw [pointer, List.length_drop, List.length_drop]
    omega
  have preamble : (partsOf blob).preamble = preamble_ptr.take preamble_len := by
    rw [pointer]
    rfl
  have signature : (partsOf blob).preamble_signature = (preamble_ptr.drop preamble_len).take
      (siglen_map.get (⟨(partsOf blob).sign_algorithm, valid⟩ : Algorithm) * 4) := by
    rw [pointer, ← signatureSize_of_lt valid]
    rfl
  have length : readAt preamble_ptr 2 4 = some ((preamble_ptr.drop 2).take 4) :=
    readAt_of_le (le_trans (by decide) readable)
  have field : wordOfBytes ((preamble_ptr.drop 2).take 4) = (partsOf blob).firmware_len := by
    rw [pointer]
    rfl
  rw [← pointer, preamble, signature, accepts_take_nat _ _ (by decide) readable]
  simp only [VerifyFirmwarePreamble, length, field, Option.bind_eq_bind, Option.bind_some]

theorem VerifyFirmwareData_eq (valid : (partsOf blob).sign_algorithm < kNumAlgorithms)
    (sign_key : Option RSAPublicKey) :
    VerifyFirmwareData sign_key (((blob.drop FIRMWARE_MAGIC_SIZE).drop
      ((partsOf blob).header_len + RSA8192NUMBYTES)).drop (preamble_len +
        siglen_map.get (⟨(partsOf blob).sign_algorithm, valid⟩ : Algorithm) * 4))
      (intOfUnsigned (partsOf blob).firmware_len) ⟨(partsOf blob).sign_algorithm, valid⟩ =
      (accepts sign_key ⟨(partsOf blob).sign_algorithm, valid⟩ (partsOf blob).firmware_data
        (partsOf blob).firmware_signature).bind fun accepted =>
          if accepted then some (.ok ()) else some (.error .SIGNATURE_FAILED) := by
  have declared := long.2
  simp only [FirmwareParts.declaredLength] at declared
  have size := signatureSize_of_lt valid
  rw [← size]
  obtain ⟨firmware_ptr, pointer⟩ : ∃ firmware_ptr, firmware_ptr =
      ((blob.drop FIRMWARE_MAGIC_SIZE).drop ((partsOf blob).header_len + RSA8192NUMBYTES)).drop
        (preamble_len + signatureSize (partsOf blob).sign_algorithm) := ⟨_, rfl⟩
  have readable : (partsOf blob).firmware_len.toNat ≤
      (firmware_ptr.drop (signatureSize (partsOf blob).sign_algorithm)).length := by
    rw [pointer, List.length_drop, List.length_drop, List.length_drop, List.length_drop]
    omega
  have data : (partsOf blob).firmware_data =
      (firmware_ptr.drop (signatureSize (partsOf blob).sign_algorithm)).take
        (partsOf blob).firmware_len.toNat := by
    rw [pointer]
    rfl
  have signature : (partsOf blob).firmware_signature = firmware_ptr.take
      (siglen_map.get (⟨(partsOf blob).sign_algorithm, valid⟩ : Algorithm) * 4) := by
    rw [pointer, ← size]
    rfl
  rw [← pointer, data, signature, accepts_take _ _ _ readable, VerifyFirmwareData, ← size]
  rfl

include parsed

/-- `VerifyFirmware` is verification of the parts. -/
theorem VerifyFirmware_eq_parts (dev_mode : ℤ) :
    VerifyFirmware root_key_blob blob dev_mode = (partsOf blob).verify root dev_mode := by
  have magicRead : SafeMemcmp blob FIRMWARE_MAGIC.toList FIRMWARE_MAGIC_SIZE =
      some (decide ((partsOf blob).magic ≠ FIRMWARE_MAGIC.toList)) :=
    SafeMemcmp_eq (by have := long.1; omega) (by decide)
  simp only [VerifyFirmware, FirmwareParts.verify, magicRead, Option.bind_eq_bind, Option.bind_some,
    VerifyFirmwareHeader_eq parsed long, decide_eq_true_eq]
  split
  · rfl
  · split
    · next valid =>
      split
      · rfl
      · next size =>
        split
        · rfl
        · simp only [Option.bind_assoc]
          congr 1
          funext trusted
          cases trusted with
          | false => rfl
          | true =>
            simp only [if_true, Option.bind_some, signKey_eq (not_not.mp size)]
            congr 1
            funext sign_key
            simp only [VerifyFirmwarePreamble_eq long valid, FirmwareParts.verifyBody, Option.bind_assoc,
              Option.bind_eq_bind]
            congr 1
            funext accepted
            cases accepted with
            | false => rfl
            | true => exact VerifyFirmwareData_eq long valid sign_key
    · rfl

end Blob

/-- Every link of the chain from the root key to the firmware data. -/
structure ChainOfTrust (root : RSAPublicKey) (parts : FirmwareParts) (alg : Algorithm)
    (signKey : RSAPublicKey) : Prop where
  magic : parts.magic = FIRMWARE_MAGIC.toList
  algorithm : parts.sign_algorithm = alg
  header_len : parts.header_len = headerSize alg
  checksum : parts.ChecksumOk
  root_signature :
    accepts (some root) ROOT_SIGNATURE_ALGORITHM parts.header parts.key_signature = some true
  sign_key : parts.signKey alg = some (some signKey)
  preamble_signature :
    accepts (some signKey) alg parts.preamble parts.preamble_signature = some true
  firmware_signature :
    accepts (some signKey) alg parts.firmware_data parts.firmware_signature = some true

theorem accepts_null (alg : Algorithm) (message sig : List UInt8) :
    accepts none alg message sig = some false := by
  simp [accepts, RSAVerifyBinary_f, alg.isLt]

namespace FirmwareParts

variable {parts : FirmwareParts} {root : RSAPublicKey}

theorem verifyBody_success_iff (alg : Algorithm) (key : Option RSAPublicKey) :
    parts.verifyBody alg key = some (.ok ()) ↔ ∃ signKey, key = some signKey ∧
      accepts (some signKey) alg parts.preamble parts.preamble_signature = some true ∧
      accepts (some signKey) alg parts.firmware_data parts.firmware_signature = some true := by
  cases key with
  | none => simp [verifyBody, accepts_null]
  | some signKey =>
    simp only [verifyBody, Option.bind_eq_bind, Option.bind_eq_some_iff]
    constructor
    · rintro ⟨preambleAccepted, preamble, success⟩
      cases preambleAccepted with
      | false => simp at success
      | true =>
        simp only [if_true, Option.bind_eq_some_iff] at success
        obtain ⟨dataAccepted, data, success⟩ := success
        cases dataAccepted with
        | false => simp at success
        | true => exact ⟨signKey, rfl, preamble, data⟩
    · rintro ⟨_, same, preamble, data⟩
      cases same
      exact ⟨true, preamble, by simp [data]⟩

theorem verify_success_iff :
    parts.verify root 0 = some (.ok ()) ↔ ∃ alg signKey, ChainOfTrust root parts alg signKey := by
  constructor
  · intro success
    simp only [verify] at success
    split at success
    · simp at success
    next magic =>
    split at success
    next valid =>
      split at success
      · simp at success
      next size =>
      split at success
      · simp at success
      next checksum =>
      simp only [trusted, if_true, Option.bind_eq_bind, Option.bind_eq_some_iff] at success
      obtain ⟨rootAccepted, rootSignature, success⟩ := success
      cases rootAccepted with
      | false => simp at success
      | true =>
        simp only [if_true, Option.bind_eq_some_iff] at success
        obtain ⟨key, parsed, success⟩ := success
        obtain ⟨signKey, rfl, preamble, data⟩ := (verifyBody_success_iff _ _).mp success
        exact ⟨⟨parts.sign_algorithm, valid⟩, signKey, not_not.mp magic, rfl, not_not.mp size,
          not_not.mp checksum, rootSignature, parsed, preamble, data⟩
    next => simp at success
  · rintro ⟨alg, signKey, chain⟩
    have valid : parts.sign_algorithm < kNumAlgorithms := by
      rw [chain.algorithm]
      exact alg.isLt
    have sameAlg : (⟨parts.sign_algorithm, valid⟩ : Algorithm) = alg := Fin.ext chain.algorithm
    have body := (parts.verifyBody_success_iff alg (some signKey)).mpr
      ⟨signKey, rfl, chain.preamble_signature, chain.firmware_signature⟩
    simp [verify, chain.magic, valid, sameAlg, chain.header_len, chain.checksum, trusted,
      chain.root_signature, chain.sign_key, body]

/-- Developer mode asks for less. -/
theorem verify_dev_mode (success : parts.verify root 0 = some (.ok ())) {dev_mode : ℤ}
    (enabled : dev_mode ≠ 0) : parts.verify root dev_mode = some (.ok ()) := by
  obtain ⟨alg, signKey, chain⟩ := verify_success_iff.mp success
  have trustedHeader : parts.trusted root dev_mode = parts.trusted root 0 := by
    rw [trusted, if_neg enabled, trusted, if_pos rfl, chain.root_signature]
  rw [verify] at success ⊢
  rwa [trustedHeader]

end FirmwareParts

private theorem slice_congr {left right : List UInt8} {limit : ℕ}
    (same : left.take limit = right.take limit) (offset count : ℕ) (inside : offset + count ≤ limit) :
    (left.drop offset).take count = (right.drop offset).take count := by
  have clip : ∀ list : List UInt8,
      (list.drop offset).take count = ((list.take limit).drop offset).take count := by
    intro list
    rw [List.drop_take, List.take_take, min_eq_left (by omega)]
  rw [clip left, clip right, same]

/-- The parts in terms of the three declared numbers, every offset counted from the start. -/
private theorem partsOf_eq (blob : List UInt8) : partsOf blob =
    { magic := blob.take FIRMWARE_MAGIC_SIZE
      header_len := (partsOf blob).header_len
      sign_algorithm := (partsOf blob).sign_algorithm
      header := (blob.drop FIRMWARE_MAGIC_SIZE).take (partsOf blob).header_len
      key_signature := (blob.drop (FIRMWARE_MAGIC_SIZE + (partsOf blob).header_len)).take
        RSA8192NUMBYTES
      preamble := (blob.drop (FIRMWARE_MAGIC_SIZE + ((partsOf blob).header_len +
        RSA8192NUMBYTES))).take preamble_len
      firmware_len := (partsOf blob).firmware_len
      preamble_signature := (blob.drop (FIRMWARE_MAGIC_SIZE + ((partsOf blob).header_len +
        RSA8192NUMBYTES) + preamble_len)).take (signatureSize (partsOf blob).sign_algorithm)
      firmware_signature := (blob.drop (FIRMWARE_MAGIC_SIZE + ((partsOf blob).header_len +
        RSA8192NUMBYTES) + (preamble_len + signatureSize (partsOf blob).sign_algorithm))).take
          (signatureSize (partsOf blob).sign_algorithm)
      firmware_data := (blob.drop (FIRMWARE_MAGIC_SIZE + ((partsOf blob).header_len +
        RSA8192NUMBYTES) + (preamble_len + signatureSize (partsOf blob).sign_algorithm) +
          signatureSize (partsOf blob).sign_algorithm)).take (partsOf blob).firmware_len.toNat } := by
  simp only [partsOf, List.drop_drop]

/-- The parts of a blob lie inside the length it declares. -/
theorem partsOf_congr {blob other : List UInt8}
    (same : other.take (partsOf blob).declaredLength = blob.take (partsOf blob).declaredLength) :
    partsOf other = partsOf blob := by
  have slice := slice_congr same
  have magicSize : FIRMWARE_MAGIC_SIZE = 8 := rfl
  have keySize : RSA8192NUMBYTES = 1024 := rfl
  have preambleSize : preamble_len = 14 := rfl
  have magic := slice_congr same 0 FIRMWARE_MAGIC_SIZE
  generalize limitEq : (partsOf blob).declaredLength = limit at slice magic
  simp only [FirmwareParts.declaredLength] at limitEq
  have headerLen : (partsOf other).header_len = (partsOf blob).header_len := by
    simp only [partsOf]
    rw [slice FIRMWARE_MAGIC_SIZE 2 (by omega)]
  have algorithm : (partsOf other).sign_algorithm = (partsOf blob).sign_algorithm := by
    simp only [partsOf, List.drop_drop]
    rw [slice (FIRMWARE_MAGIC_SIZE + 2) 2 (by omega)]
  have firmwareLen : (partsOf other).firmware_len = (partsOf blob).firmware_len := by
    change wordOfBytes ((((other.drop FIRMWARE_MAGIC_SIZE).drop
      ((partsOf other).header_len + RSA8192NUMBYTES)).drop 2).take 4) = wordOfBytes
        ((((blob.drop FIRMWARE_MAGIC_SIZE).drop
          ((partsOf blob).header_len + RSA8192NUMBYTES)).drop 2).take 4)
    rw [headerLen]
    simp only [List.drop_drop]
    rw [slice _ _ (by omega)]
  rw [partsOf_eq other, partsOf_eq blob, headerLen, algorithm, firmwareLen]
  rw [List.drop_zero, List.drop_zero] at magic
  rw [magic (by omega), slice _ _ (by omega), slice _ _ (by omega), slice _ _ (by omega), slice _ _ (by omega),
    slice _ _ (by omega), slice _ _ (by omega)]

/-- A key blob with the right length field and zero words. -/
def blankKeyBlob (alg : Algorithm) : List UInt8 :=
  bytesOfWord (UInt32.ofNat (siglen_map.get alg)) ++ List.replicate (RSAProcessedKeySize alg - 4) 0

def blankKey (alg : Algorithm) : RSAPublicKey where
  len := siglen_map.get alg
  n0inv := wordOfBytes (((blankKeyBlob alg).drop 4).take 4)
  n := wordsOfBytes (((blankKeyBlob alg).drop 8).take (siglen_map.get alg * 4))
  rr := wordsOfBytes ((blankKeyBlob alg).drop (8 + siglen_map.get alg * 4))

theorem blankKeyBlob_length (alg : Algorithm) :
    (blankKeyBlob alg).length = RSAProcessedKeySize alg := by
  rw [blankKeyBlob, List.length_append, bytesOfWord_length, List.length_replicate]
  simp only [RSAProcessedKeySize]
  omega

theorem blankKeyBlob_parses (alg : Algorithm) :
    RSAPublicKeyFromBuf (blankKeyBlob alg) (RSAProcessedKeySize alg) = some (some (blankKey alg)) := by
  refine RSAPublicKeyFromBuf_of_length (blankKeyBlob_length alg) ?_
  rw [blankKeyBlob, List.take_left' (bytesOfWord_length _), wordOfBytes_bytesOfWord]

/-- A blob of zeros declares the smallest layout. -/
theorem longEnough_zeros {count : ℕ} (enough : 1302 ≤ count) :
    LongEnough (List.replicate count 0) := by
  have slice : ∀ offset size, offset + size ≤ 1302 →
      ((List.replicate count (0 : UInt8)).drop offset).take size = List.replicate size 0 := by
    intro offset size inside
    rw [List.drop_replicate, List.take_replicate, min_eq_left (by omega)]
  have zeroHalf : (halfOfBytes (List.replicate 2 0)).toNat = 0 := by decide
  have zeroWord : (wordOfBytes (List.replicate 4 0)).toNat = 0 := by decide
  have headerLen : (partsOf (List.replicate count 0)).header_len = 0 := by
    simp only [partsOf]
    rw [slice FIRMWARE_MAGIC_SIZE 2 (by decide), zeroHalf]
  have algorithm : (partsOf (List.replicate count 0)).sign_algorithm = 0 := by
    simp only [partsOf, List.drop_drop]
    rw [slice (FIRMWARE_MAGIC_SIZE + 2) 2 (by decide), zeroHalf]
  have firmwareLen : (partsOf (List.replicate count 0)).firmware_len.toNat = 0 := by
    change (wordOfBytes ((((List.replicate count 0).drop FIRMWARE_MAGIC_SIZE).drop
      ((partsOf (List.replicate count 0)).header_len + RSA8192NUMBYTES)).drop 2 |>.take 4)).toNat = 0
    rw [headerLen, List.drop_drop, List.drop_drop,
      slice (FIRMWARE_MAGIC_SIZE + (0 + RSA8192NUMBYTES + 2)) 4 (by decide), zeroWord]
  have declared : (partsOf (List.replicate count 0)).declaredLength = 1302 := by
    simp only [FirmwareParts.declaredLength, headerLen, algorithm, firmwareLen]
    decide
  refine ⟨?_, ?_⟩
  · rw [List.length_replicate]
    exact le_trans (by decide) enough
  · rw [List.length_replicate, declared]
    exact enough

end ChromiumOS.Vboot
