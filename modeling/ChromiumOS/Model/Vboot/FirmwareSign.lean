import ChromiumOS.Model.Vboot.FirmwareImage

/-! # Filling in and signing a firmware image

`AddKeySignature` and `AddFirmwareSignature` of `firmware_image.c`, `SignatureFile` of `file_keys.c`,
the `signature_digest` and `sign_data.sh` it runs, and the way `firmware_image_tests.c` fills an
image. The last stage of `sign_data.sh`, `openssl rsautl -sign -pkcs` with the given private key, is
a parameter. Files can be created, commands can be run.
-/

namespace ChromiumOS.Vboot

/-- The output of `openssl rsautl -sign -pkcs` on its input. -/
abbrev Rsautl := List UInt8 → List UInt8

def PrependDigestInfo (algorithm : Algorithm) (digest : List UInt8) : List UInt8 :=
  hash_digestinfo_map.get algorithm ++ digest.take (hash_size_map.get algorithm)

/-- What the program `signature_digest` prints for a file. -/
def signature_digest (algorithm : Algorithm) (contents : List UInt8) : Option (List UInt8) :=
  (DigestFile contents algorithm).map (PrependDigestInfo algorithm)

/-- The signature that `sign_data.sh` prints; `NULL` when it prints less than a signature. -/
def SignatureFile (rsautl : Rsautl) (contents : List UInt8) (algorithm : Algorithm) :
    Option (Option (List UInt8)) := do
  let signature_size := siglen_map.get algorithm * 4
  let printed := rsautl (← signature_digest algorithm contents)
  some (readAt printed 0 signature_size)

/-- Add the root key signature; the first component is the return value. -/
def AddKeySignature (image : FirmwareImage) (root_key : Rsautl) : Option (Bool × FirmwareImage) := do
  let header ← WriteFirmwareHeader image
  match ← SignatureFile root_key header ROOT_SIGNATURE_ALGORITHM with
  | none => some (false, image)
  | some signature => some (true, { image with key_signature := vectorOf RSA8192NUMBYTES signature })

/-- Add the preamble and firmware signatures. -/
def AddFirmwareSignature (image : FirmwareImage) (signing_key : Rsautl) (algorithm : Algorithm) :
    Option (Bool × FirmwareImage) := do
  match ← SignatureFile signing_key (WriteFirmwarePreamble image) algorithm with
  | none => some (false, image)
  | some preamble_signature =>
    let image := { image with preamble_signature := preamble_signature }
    let firmware ← readAt image.firmware_data 0 image.firmware_len.toNat
    match ← SignatureFile signing_key firmware algorithm with
    | none => some (false, image)
    | some firmware_signature =>
      some (true, { image with firmware_signature := firmware_signature })

/-- Fill an image the way `GenerateTestFirmwareImage` does, around the given firmware data. The
uninitialised `key_signature` starts as zeros. -/
def fillFirmwareImage (algorithm : Algorithm) (sign_key : List UInt8)
    (key_version firmware_version : ℤ) (firmware_data : List UInt8) : Option FirmwareImage := do
  let sign_key ← readAt sign_key 0 (RSAProcessedKeySize algorithm)
  let sign_algorithm := UInt16.ofNat algorithm
  let key_version := UInt16.ofInt key_version
  let header_len := UInt16.ofNat (2 + 2 + RSAProcessedKeySize algorithm + 2 + SHA512_DIGEST_SIZE)
  let ctx := DigestInit ROOT_SIGNATURE_ALGORITHM
  let ctx ← DigestUpdate ctx (bytesOfHalf header_len) 2
  let ctx ← DigestUpdate ctx (bytesOfHalf sign_algorithm) 2
  let ctx ← DigestUpdate ctx sign_key (RSAProcessedKeySize algorithm)
  let ctx ← DigestUpdate ctx (bytesOfHalf key_version) 2
  let header_checksum ← DigestFinal ctx
  some
    { magic := FIRMWARE_MAGIC
      header_len := header_len
      sign_algorithm := sign_algorithm
      sign_key := sign_key
      key_version := key_version
      header_checksum := vectorOf SHA512_DIGEST_SIZE header_checksum
      key_signature := Vector.replicate RSA8192NUMBYTES 0
      firmware_version := UInt16.ofInt firmware_version
      firmware_len := UInt32.ofNat firmware_data.length
      preamble := Vector.replicate FIRMWARE_PREAMBLE_SIZE 0x50
      preamble_signature := []
      firmware_signature := []
      firmware_data := firmware_data }

/-- The test image, its firmware data a run of the letter `F`. -/
def GenerateTestFirmwareImage (algorithm : Algorithm) (sign_key : List UInt8)
    (key_version firmware_version firmware_len : ℤ) : Option FirmwareImage :=
  fillFirmwareImage algorithm sign_key key_version firmware_version
    (List.replicate firmware_len.toNat 0x46)

end ChromiumOS.Vboot
