import ChromiumOS.Model.Vboot.RsaUtility

/-! # Firmware images: writing and verifying

`firmware_image.c`. The arrays inside `FirmwareImage` are vectors; the buffers it points to are the
lists of bytes readable there, the empty list being `NULL`. A file is the list of bytes written to
it, every `write` being complete. As elsewhere, an outer `none` is a run outside defined behaviour.
-/

namespace ChromiumOS.Vboot

open Radix

def FIRMWARE_MAGIC_SIZE : ℕ := 8
def FIRMWARE_PREAMBLE_SIZE : ℕ := 8

/-- `"CHROMEOS"`. -/
def FIRMWARE_MAGIC : Vector UInt8 FIRMWARE_MAGIC_SIZE :=
  #v[0x43, 0x48, 0x52, 0x4f, 0x4d, 0x45, 0x4f, 0x53]

/-- RSA 8192 and SHA-512. -/
def ROOT_SIGNATURE_ALGORITHM : Algorithm := 11

/-- As an index of `DigestBuf`'s table, the number of the digest names RSA 1024 with SHA-512. -/
def SHA512_DIGEST_ALGORITHM : Algorithm := 2

structure FirmwareImage where
  magic : Vector UInt8 FIRMWARE_MAGIC_SIZE
  header_len : UInt16
  sign_algorithm : UInt16
  sign_key : List UInt8
  key_version : UInt16
  header_checksum : Vector UInt8 SHA512_DIGEST_SIZE
  key_signature : Vector UInt8 RSA8192NUMBYTES
  firmware_version : UInt16
  firmware_len : UInt32
  preamble : Vector UInt8 FIRMWARE_PREAMBLE_SIZE
  preamble_signature : List UInt8
  firmware_signature : List UInt8
  firmware_data : List UInt8
deriving DecidableEq, Repr

/-- The bytes of an array field that is copied from a buffer. -/
def vectorOf (size : ℕ) (bytes : List UInt8) : Vector UInt8 size :=
  Vector.ofFn fun i => bytes.getD i 0

/-- The sizes of `header_len`, `sign_algorithm` and `key_version` together. -/
def base_header_checksum_offset : ℕ := 2 + 2 + 2

/-- The sizes of `firmware_version`, `firmware_len` and `preamble` together. -/
def preamble_len : ℕ := 2 + 4 + FIRMWARE_PREAMBLE_SIZE

/-- The index of a per-algorithm table that the source does not check. -/
def tableIndex (algorithm : ℕ) : Option Algorithm :=
  if valid : algorithm < kNumAlgorithms then some ⟨algorithm, valid⟩ else none

def WriteFirmwareHeader (image : FirmwareImage) : Option (List UInt8) := do
  let sign_key_len : ℤ := image.header_len.toNat - 2 - 2 - 2 - SHA512_DIGEST_SIZE
  if sign_key_len < 0 then none
  else
    let sign_key ← readAt image.sign_key 0 sign_key_len.toNat
    some (bytesOfHalf image.header_len ++ bytesOfHalf image.sign_algorithm ++ sign_key ++
      bytesOfHalf image.key_version ++ image.header_checksum.toList)

def WriteFirmwarePreamble (image : FirmwareImage) : List UInt8 :=
  bytesOfHalf image.firmware_version ++ bytesOfWord image.firmware_len ++ image.preamble.toList

/-- The contents of the file that `WriteFirmwareImage` creates. -/
def WriteFirmwareImage (image : FirmwareImage) : Option (List UInt8) := do
  let header ← WriteFirmwareHeader image
  let signature_len := siglen_map.get (← tableIndex image.sign_algorithm.toNat) * 4
  let preamble_signature ← readAt image.preamble_signature 0 signature_len
  let firmware_signature ← readAt image.firmware_signature 0 signature_len
  let firmware_data ← readAt image.firmware_data 0 image.firmware_len.toNat
  some (image.magic.toList ++ header ++ image.key_signature.toList ++ WriteFirmwarePreamble image ++
    preamble_signature ++ firmware_signature ++ firmware_data)

/-- The error codes of the `VerifyFirmware` family; success is not among them. -/
inductive VerifyFirmwareError where
  | INVALID_IMAGE
  | ROOT_SIGNATURE_FAILED
  | INVALID_ALGORITHM
  | PREAMBLE_SIGNATURE_FAILED
  | SIGNATURE_FAILED
  | WRONG_MAGIC
deriving DecidableEq, Repr

/-- Check the header at `header_blob`; returns the algorithm and the header length. -/
def VerifyFirmwareHeader (root_key_blob header_blob : List UInt8) (dev_mode : ℤ) :
    Option (Except VerifyFirmwareError (Algorithm × ℕ)) := do
  let hlen := (halfOfBytes (← readAt header_blob 0 2)).toNat
  let algo := (halfOfBytes (← readAt header_blob 2 2)).toNat
  if valid : algo < kNumAlgorithms then
    let algorithm : Algorithm := ⟨algo, valid⟩
    let sign_key_len := RSAProcessedKeySize algorithm
    if hlen ≠ base_header_checksum_offset + sign_key_len + SHA512_DIGEST_SIZE then
      some (.error .INVALID_IMAGE)
    else
      let header_checksum ←
        DigestBuf header_blob ((hlen : ℤ) - SHA512_DIGEST_SIZE) SHA512_DIGEST_ALGORITHM
      let differs ← SafeMemcmp header_checksum
        (header_blob.drop (base_header_checksum_offset + sign_key_len)) SHA512_DIGEST_SIZE
      if differs then some (.error .INVALID_IMAGE)
      else if dev_mode = 0 then
        let accepted ← RSAVerifyBinary_f (some root_key_blob) none header_blob hlen
          (header_blob.drop hlen) ROOT_SIGNATURE_ALGORITHM
        if accepted then some (.ok (algorithm, hlen)) else some (.error .ROOT_SIGNATURE_FAILED)
      else some (.ok (algorithm, hlen))
  else some (.error .INVALID_ALGORITHM)

/-- Check the preamble signature; returns the firmware length as the `int` it becomes. -/
def VerifyFirmwarePreamble (sign_key : Option RSAPublicKey) (preamble_blob : List UInt8)
    (algorithm : Algorithm) : Option (Except VerifyFirmwareError ℤ) := do
  let accepted ← RSAVerifyBinary_f none sign_key preamble_blob preamble_len
    (preamble_blob.drop preamble_len) algorithm
  if accepted then
    let len := wordOfBytes (← readAt preamble_blob 2 4)
    some (.ok (intOfUnsigned len))
  else some (.error .PREAMBLE_SIGNATURE_FAILED)

def VerifyFirmwareData (sign_key : Option RSAPublicKey) (firmware_data_start : List UInt8)
    (firmware_len : ℤ) (algorithm : Algorithm) : Option (Except VerifyFirmwareError Unit) := do
  let signature_len := siglen_map.get algorithm * 4
  let accepted ← RSAVerifyBinary_f none sign_key (firmware_data_start.drop signature_len)
    firmware_len firmware_data_start algorithm
  if accepted then some (.ok ()) else some (.error .SIGNATURE_FAILED)

/-- The chained verification of a firmware blob. -/
def VerifyFirmware (root_key_blob firmware_blob : List UInt8) (dev_mode : ℤ) :
    Option (Except VerifyFirmwareError Unit) := do
  let differs ← SafeMemcmp firmware_blob FIRMWARE_MAGIC.toList FIRMWARE_MAGIC_SIZE
  if differs then some (.error .WRONG_MAGIC)
  else
    let header_ptr := firmware_blob.drop FIRMWARE_MAGIC_SIZE
    match ← VerifyFirmwareHeader root_key_blob header_ptr dev_mode with
    | .error error_code => some (.error error_code)
    | .ok (algorithm, header_len) =>
      let sign_key_len := RSAProcessedKeySize algorithm
      let sign_key_ptr := header_ptr.drop (2 + 2)
      let sign_key ← RSAPublicKeyFromBuf sign_key_ptr sign_key_len
      let signature_len := siglen_map.get algorithm * 4
      let preamble_ptr := header_ptr.drop (header_len + RSA8192NUMBYTES)
      match ← VerifyFirmwarePreamble sign_key preamble_ptr algorithm with
      | .error error_code => some (.error error_code)
      | .ok firmware_len =>
        let firmware_ptr := preamble_ptr.drop (preamble_len + signature_len)
        VerifyFirmwareData sign_key firmware_ptr firmware_len algorithm

/-- `RSA_verify` on a signature buffer; a `NULL` key is dereferenced. -/
def verifyWith (key : Option RSAPublicKey) (sig : List UInt8) (sig_len : ℕ) (algorithm : Algorithm)
    (digest : List UInt8) : Option Bool := do
  some (RSA_verify (← key) (← readAt sig 0 sig_len) sig_len algorithm digest)

/-- The same verification on an image in memory. The size tables are indexed with the algorithm of
the image before it is checked, so the check that follows never fails. -/
def VerifyFirmwareImage (root_key : Option RSAPublicKey) (image : FirmwareImage) (dev_mode : ℤ) :
    Option (Except VerifyFirmwareError Unit) := do
  let rootAccepted ←
    if dev_mode = 0 then do
      let ctx := DigestInit ROOT_SIGNATURE_ALGORITHM
      let ctx ← DigestUpdate ctx (bytesOfHalf image.header_len) 2
      let ctx ← DigestUpdate ctx (bytesOfHalf image.sign_algorithm) 2
      let ctx ← DigestUpdate ctx image.sign_key
        (RSAProcessedKeySize (← tableIndex image.sign_algorithm.toNat))
      let ctx ← DigestUpdate ctx (bytesOfHalf image.key_version) 2
      let ctx ← DigestUpdate ctx image.header_checksum.toList SHA512_DIGEST_SIZE
      let header_digest ← DigestFinal ctx
      verifyWith root_key image.key_signature.toList RSA8192NUMBYTES ROOT_SIGNATURE_ALGORITHM
        header_digest
    else some true
  if rootAccepted then
    let algorithm ← tableIndex image.sign_algorithm.toNat
    let sign_key_size := RSAProcessedKeySize algorithm
    let sign_key ← RSAPublicKeyFromBuf image.sign_key sign_key_size
    let signature_size := siglen_map.get algorithm * 4
    let ctx := DigestInit algorithm
    let ctx ← DigestUpdate ctx (bytesOfHalf image.firmware_version) 2
    let ctx ← DigestUpdate ctx (bytesOfWord image.firmware_len) 4
    let ctx ← DigestUpdate ctx image.preamble.toList FIRMWARE_PREAMBLE_SIZE
    let preamble_digest ← DigestFinal ctx
    if ← verifyWith sign_key image.preamble_signature signature_size algorithm preamble_digest then
      let firmware_digest ← DigestBuf image.firmware_data (intOfUnsigned image.firmware_len) algorithm
      if ← verifyWith sign_key image.firmware_signature signature_size algorithm firmware_digest then
        some (.ok ())
      else some (.error .SIGNATURE_FAILED)
    else some (.error .PREAMBLE_SIGNATURE_FAILED)
  else some (.error .ROOT_SIGNATURE_FAILED)

end ChromiumOS.Vboot
