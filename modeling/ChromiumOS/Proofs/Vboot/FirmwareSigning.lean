import ChromiumOS.Proofs.Vboot.FirmwareAgreement
import ChromiumOS.Proofs.Vboot.MersenneKeys

/-! # Signed images verify

The signer hashes temporary files, the verifiers hash ranges of a blob or fields of an image. All of
them see the same bytes, so a PKCS#1 v1.5 signature made by the one is accepted by the other two.
-/

namespace ChromiumOS.Vboot

open Radix Montgomery

/-- Room for the DigestInfo, the digest and the filler in every key. -/
theorem digestinfo_fits (alg : Algorithm) :
    (hash_digestinfo_map.get alg).length + hash_size_map.get alg + 11 ≤ siglen_map.get alg * 4 := by
  revert alg
  decide

/-- The padding in front of a digest is the filler around its DigestInfo. -/
theorem padding_append (alg : Algorithm) {digest : List UInt8}
    (length : digest.length = hash_size_map.get alg) :
    padding_map.get alg ++ digest = paddingArray
      (siglen_map.get alg * 4 - 3 - (hash_digestinfo_map.get alg ++ digest).length)
        (hash_digestinfo_map.get alg ++ digest) := by
  have filler : siglen_map.get alg * 4 - 3 - (hash_digestinfo_map.get alg ++ digest).length =
      siglen_map.get alg * 4 - (hash_digestinfo_map.get alg).length - hash_size_map.get alg - 3 := by
    rw [List.length_append, length]
    omega
  rw [padding_map_eq, filler, paddingArray, paddingArray]
  simp only [List.append_assoc]

/-- A signature made from the digest of a file is accepted for the contents of the file. -/
theorem SignatureFile_verifies {rsautl : Rsautl} {alg : Algorithm} {key : RSAPublicKey}
    (valid : key.WellFormed (siglen_map.get alg))
    (signs : SignsPkcs1 rsautl key.modulus (siglen_map.get alg)) (contents : List UInt8) :
    ∃ signature, SignatureFile rsautl contents alg = some (some signature) ∧
      signature.length = siglen_map.get alg * 4 ∧
      RSA_verify key signature (siglen_map.get alg * 4 : ℕ) alg (digestOf alg contents) = true := by
  have digestLength := digestOf_length alg contents
  have fits := digestinfo_fits alg
  have input : signature_digest alg contents =
      some (hash_digestinfo_map.get alg ++ digestOf alg contents) := by
    rw [signature_digest, DigestFile_eq, Option.map_some, PrependDigestInfo,
      List.take_of_length_le digestLength.le]
  obtain ⟨length, power⟩ := signs (hash_digestinfo_map.get alg ++ digestOf alg contents)
    (by rw [List.length_append, digestLength]; omega)
  refine ⟨rsautl (hash_digestinfo_map.get alg ++ digestOf alg contents), ?_, length, ?_⟩
  · simp only [SignatureFile, input, Option.bind_eq_bind, Option.bind_some, readAt_whole length]
  · have exponentiation := modpowF4_eq valid (siglen_pos alg)
      (rsautl (hash_digestinfo_map.get alg ++ digestOf alg contents)) (by rw [length, mul_comm])
    have block := padding_append alg digestLength
    have blockLength : (padding_map.get alg ++ digestOf alg contents).length = 4 * siglen_map.get alg := by
      have sizes := padding_size_add_hash_size alg
      rw [List.length_append, padding_length, digestLength, sizes, mul_comm]
    have verified := RSA_verify_eq alg key valid.len
      (rsautl (hash_digestinfo_map.get alg ++ digestOf alg contents)) (digestOf alg contents)
      (by rw [length, mul_comm]) (by rw [exponentiation, beBytes_length]) digestLength
    rw [length] at verified
    rw [verified, exponentiation, power, ← block, ← blockLength, beBytes_beNat]

/-- A filled image has a consistent header around the given key and data. -/
theorem fillFirmwareImage_consistent (alg : Algorithm) {sign_key : List UInt8}
    (length : sign_key.length = RSAProcessedKeySize alg) (key_version firmware_version : ℤ)
    (firmware_data : List UInt8) :
    ∃ image, fillFirmwareImage alg sign_key key_version firmware_version firmware_data = some image ∧
      image.HeaderConsistent alg ∧ image.sign_key = sign_key ∧
      image.firmware_data = firmware_data ∧
      image.firmware_len = UInt32.ofNat firmware_data.length := by
  have bounds := headerSize_bounds alg
  have size : 2 + 2 + RSAProcessedKeySize alg + 2 + SHA512_DIGEST_SIZE = headerSize alg := by
    simp only [headerSize, base_header_checksum_offset]
    omega
  have small : RSAProcessedKeySize alg < 2 ^ 31 := by omega
  obtain ⟨ctx1, step1, fed⟩ := DigestUpdate_whole (bytesOfHalf (UInt16.ofNat (headerSize alg))) 2 (DigestInit_represents ROOT_SIGNATURE_ALGORITHM)
    (by simp) (by simp)
  obtain ⟨ctx2, step2, fed⟩ := DigestUpdate_whole (bytesOfHalf (UInt16.ofNat alg)) 2 fed
    (by simp) (by simp)
  obtain ⟨ctx3, step3, fed⟩ := DigestUpdate_whole sign_key (RSAProcessedKeySize alg) fed
    (by rw [length]) (by omega)
  obtain ⟨ctx4, step4, fed⟩ := DigestUpdate_whole (bytesOfHalf (UInt16.ofInt key_version)) 2 fed
    (by simp) (by simp)
  have digest := DigestFinal_eq fed
  simp only [fillFirmwareImage, readAt_whole length, size, step1, step2, step3, step4, digest,
    Option.bind_eq_bind, Option.bind_some]
  refine ⟨_, rfl, ?_, rfl, rfl, rfl⟩
  exact {
    magic := rfl
    algorithm := UInt16.toNat_ofNat_of_lt' (lt_trans alg.isLt (by decide))
    header_len := UInt16.toNat_ofNat_of_lt' bounds.2
    sign_key_length := length
    header_checksum := vectorOf_toList (digestOf_length ROOT_SIGNATURE_ALGORITHM _) }

/-- An image with its three signatures put in. -/
def FirmwareImage.withSignatures (image : FirmwareImage) (key : Vector UInt8 RSA8192NUMBYTES)
    (preamble firmware : List UInt8) : FirmwareImage :=
  { image with
    key_signature := key
    preamble_signature := preamble
    firmware_signature := firmware }

section Signatures

variable (image : FirmwareImage) (key : Vector UInt8 RSA8192NUMBYTES)
variable (preamble firmware : List UInt8)

theorem withSignatures_header :
    (image.withSignatures key preamble firmware).header = image.header := rfl

theorem withSignatures_preamble :
    WriteFirmwarePreamble (image.withSignatures key preamble firmware) =
      WriteFirmwarePreamble image := rfl

end Signatures

/-- Signing a consistent header, its preamble and its data completes a consistent image on which
every verdict is success. -/
theorem sign_consistent {filled : FirmwareImage} {alg : Algorithm}
    (header : filled.HeaderConsistent alg)
    (dataLength : filled.firmware_data.length = filled.firmware_len.toNat)
    {root signKey : RSAPublicKey} (rootValid : root.WellFormed (siglen_map.get ROOT_SIGNATURE_ALGORITHM))
    (keyValid : signKey.WellFormed (siglen_map.get alg)) {signer rootSigner : Rsautl}
    (signs : SignsPkcs1 signer signKey.modulus (siglen_map.get alg))
    (rootSigns : SignsPkcs1 rootSigner root.modulus (siglen_map.get ROOT_SIGNATURE_ALGORITHM)) :
    ∃ keySigned signed, AddKeySignature filled rootSigner = some (true, keySigned) ∧
      AddFirmwareSignature keySigned signer alg = some (true, signed) ∧
      signed.Consistent alg ∧ signed.sign_key = filled.sign_key ∧
      signed.firmware_len = filled.firmware_len ∧
      ∀ dev_mode, signed.verdict alg root signKey dev_mode = .ok () := by
  obtain ⟨keySignature, keySigned, keyLength, keyVerified⟩ :=
    SignatureFile_verifies rootValid rootSigns filled.header
  obtain ⟨preambleSignature, preambleSigned, preambleLength, preambleVerified⟩ :=
    SignatureFile_verifies keyValid signs (WriteFirmwarePreamble filled)
  obtain ⟨dataSignature, dataSigned, dataSigLength, dataVerified⟩ :=
    SignatureFile_verifies keyValid signs filled.firmware_data
  obtain ⟨keyField, keyFieldEq⟩ : ∃ field, vectorOf RSA8192NUMBYTES keySignature = field := ⟨_, rfl⟩
  have keyBytes : keyField.toList = keySignature := by
    rw [← keyFieldEq]
    exact vectorOf_toList keyLength
  refine ⟨{ filled with key_signature := keyField },
    filled.withSignatures keyField preambleSignature dataSignature, ?_, ?_, ?_, rfl, rfl, ?_⟩
  · simp only [AddKeySignature, WriteFirmwareHeader_eq header.toHeaderSized, keySigned, Option.bind_eq_bind,
      Option.bind_some, keyFieldEq]
  · have samePreamble : WriteFirmwarePreamble { filled with key_signature := keyField } =
        WriteFirmwarePreamble filled := rfl
    simp only [AddFirmwareSignature, samePreamble, preambleSigned, readAt_whole dataLength, dataSigned,
      Option.bind_eq_bind, Option.bind_some, FirmwareImage.withSignatures]
  · exact {
      magic := header.magic
      algorithm := header.algorithm
      header_len := header.header_len
      sign_key_length := header.sign_key_length
      header_checksum := header.header_checksum
      preamble_signature_length := preambleLength
      firmware_signature_length := dataSigLength
      firmware_data_length := dataLength }
  · intro dev_mode
    have rootAnswer : RSA_verify root keyField.toList RSA8192NUMBYTES
        ROOT_SIGNATURE_ALGORITHM (digestOf ROOT_SIGNATURE_ALGORITHM filled.header) = true := by
      rw [keyBytes]
      exact keyVerified
    rw [FirmwareImage.verdict, withSignatures_header, withSignatures_preamble]
    simp only [FirmwareImage.withSignatures]
    rw [rootAnswer, preambleVerified, dataVerified, Bool.or_true]
    rfl

/-- Filling an image, signing it and verifying it, in memory or as a file, in either mode. -/
theorem signed_image_verifies (alg : Algorithm) {signModulus rootModulus : ℕ}
    (signKey : IsModulusFor alg signModulus)
    (rootKey : IsModulusFor ROOT_SIGNATURE_ALGORITHM rootModulus) {signer rootSigner : Rsautl}
    (signs : SignsPkcs1 signer signModulus (siglen_map.get alg))
    (rootSigns : SignsPkcs1 rootSigner rootModulus (siglen_map.get ROOT_SIGNATURE_ALGORITHM))
    (key_version firmware_version : ℤ) (firmware_data : List UInt8)
    (short : firmware_data.length < 2 ^ 31) :
    ∃ filled keySigned signed blob root,
      fillFirmwareImage alg (output signModulus) key_version firmware_version firmware_data =
        some filled ∧
      AddKeySignature filled rootSigner = some (true, keySigned) ∧
      AddFirmwareSignature keySigned signer alg = some (true, signed) ∧
      WriteFirmwareImage signed = some blob ∧
      RSAPublicKeyFromBuf (output rootModulus) (RSAProcessedKeySize ROOT_SIGNATURE_ALGORITHM) =
        some (some root) ∧
      ∀ dev_mode, VerifyFirmware (output rootModulus) blob dev_mode = some (.ok ()) ∧
        VerifyFirmwareImage (some root) signed dev_mode = some (.ok ()) := by
  obtain ⟨key, keyParsed, keyValid, rfl⟩ := output_parses signKey
  obtain ⟨root, rootParsed, rootValid, rfl⟩ := output_parses rootKey
  obtain ⟨filled, filledEq, header, sameKey, sameData, lenEq⟩ := fillFirmwareImage_consistent alg
    (output_length signKey) key_version firmware_version firmware_data
  have lenToNat : filled.firmware_len.toNat = firmware_data.length := by
    rw [lenEq, UInt32.toNat_ofNat_of_lt' (by rw [UInt32.size]; omega)]
  obtain ⟨keySigned, signed, addKey, addFirmware, consistent, signedKey, signedLen, accepted⟩ :=
    sign_consistent header (by rw [sameData, lenToNat]) rootValid keyValid signs rootSigns
  have signedParsed : RSAPublicKeyFromBuf signed.sign_key (RSAProcessedKeySize alg) =
      some (some key) := by
    rw [signedKey, sameKey]
    exact keyParsed
  have signedShort : signed.firmware_len.toNat < 2 ^ 31 := by
    rw [signedLen, lenToNat]
    exact short
  refine ⟨filled, keySigned, signed, signed.blob, root, filledEq, addKey, addFirmware,
    WriteFirmwareImage_eq consistent.toWellFormed, rootParsed, fun dev_mode => ⟨?_, ?_⟩⟩
  · rw [VerifyFirmware_eq_parts rootParsed consistent.longEnough,
      verify_eq_verdict consistent signedShort signedParsed, accepted]
  · rw [VerifyFirmwareImage_eq_verdict consistent signedShort signedParsed, accepted]

/-- The test image under the two Mersenne key pairs. -/
theorem signed_test_image_verifies :
    ∃ filled keySigned signed blob root,
      GenerateTestFirmwareImage 0 (output (mersenneModulus exponents1024)) 1 1 1000 = some filled ∧
      AddKeySignature filled (mersenneSigner exponents8192 256) = some (true, keySigned) ∧
      AddFirmwareSignature keySigned (mersenneSigner exponents1024 32) 0 = some (true, signed) ∧
      WriteFirmwareImage signed = some blob ∧
      RSAPublicKeyFromBuf (output (mersenneModulus exponents8192))
        (RSAProcessedKeySize ROOT_SIGNATURE_ALGORITHM) = some (some root) ∧
      ∀ dev_mode,
        VerifyFirmware (output (mersenneModulus exponents8192)) blob dev_mode = some (.ok ()) ∧
          VerifyFirmwareImage (some root) signed dev_mode = some (.ok ()) :=
  signed_image_verifies 0 exponents1024_modulus exponents8192_modulus
    (exponents1024_valid.signs (by decide) exponents1024_modulus.top exponents1024_modulus.bound)
    (exponents8192_valid.signs (by decide) exponents8192_modulus.top exponents8192_modulus.bound)
    1 1 (List.replicate (1000 : ℤ).toNat 0x46) (by rw [List.length_replicate]; decide)

end ChromiumOS.Vboot
