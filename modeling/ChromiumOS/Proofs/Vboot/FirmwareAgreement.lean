import ChromiumOS.Proofs.Vboot.ChainOfTrust

/-! # The blob verifier and the image verifier agree

Writing an image lays its fields out so that the parts of the blob are the fields again. On an image
with a consistent header both verifiers then ask the same three questions in the same order.
-/

namespace ChromiumOS.Vboot

open Radix

/-- The header fields in front of the checksum, as they are written. -/
def FirmwareImage.headerFields (image : FirmwareImage) : List UInt8 :=
  bytesOfHalf image.header_len ++ bytesOfHalf image.sign_algorithm ++ image.sign_key ++
    bytesOfHalf image.key_version

/-- The whole header, which the root key signs. -/
def FirmwareImage.header (image : FirmwareImage) : List UInt8 :=
  image.headerFields ++ image.header_checksum.toList

/-- The file of an image, field after field. -/
def FirmwareImage.blob (image : FirmwareImage) : List UInt8 :=
  image.magic.toList ++ (image.header ++ (image.key_signature.toList ++
    (WriteFirmwarePreamble image ++ (image.preamble_signature ++ (image.firmware_signature ++
      image.firmware_data)))))

/-- The fields of an image as the parts of a blob. -/
def FirmwareImage.parts (image : FirmwareImage) (alg : Algorithm) : FirmwareParts where
  magic := image.magic.toList
  header_len := headerSize alg
  sign_algorithm := alg
  header := image.header
  key_signature := image.key_signature.toList
  preamble := WriteFirmwarePreamble image
  firmware_len := image.firmware_len
  preamble_signature := image.preamble_signature
  firmware_signature := image.firmware_signature
  firmware_data := image.firmware_data

/-- A header that describes itself: the right magic, an algorithm number inside the tables, and the
key size and header length that belong to it. -/
structure FirmwareImage.HeaderSized (image : FirmwareImage) (alg : Algorithm) : Prop where
  magic : image.magic = FIRMWARE_MAGIC
  algorithm : image.sign_algorithm.toNat = alg
  header_len : image.header_len.toNat = headerSize alg
  sign_key_length : image.sign_key.length = RSAProcessedKeySize alg

/-- Such a header with the checksum of its other fields. -/
structure FirmwareImage.HeaderConsistent (image : FirmwareImage) (alg : Algorithm) : Prop extends
    image.HeaderSized alg where
  header_checksum :
    image.header_checksum.toList = digestOf SHA512_DIGEST_ALGORITHM image.headerFields

/-- An image that can be written: its buffers have the sizes its header and preamble declare. -/
structure FirmwareImage.WellFormed (image : FirmwareImage) (alg : Algorithm) : Prop extends
    image.HeaderSized alg where
  preamble_signature_length : image.preamble_signature.length = siglen_map.get alg * 4
  firmware_signature_length : image.firmware_signature.length = siglen_map.get alg * 4
  firmware_data_length : image.firmware_data.length = image.firmware_len.toNat

/-- A well-formed image whose header has its checksum. -/
structure FirmwareImage.Consistent (image : FirmwareImage) (alg : Algorithm) : Prop extends
    image.HeaderConsistent alg, image.WellFormed alg

theorem vectorOf_toList {size : ℕ} {bytes : List UInt8} (length : bytes.length = size) :
    (vectorOf size bytes).toList = bytes := by
  subst length
  apply List.ext_getElem
  · simp
  · intro i first second
    simp [vectorOf]

theorem WriteFirmwarePreamble_length (image : FirmwareImage) :
    (WriteFirmwarePreamble image).length = preamble_len := by
  rw [WriteFirmwarePreamble, List.length_append, List.length_append, bytesOfHalf_length,
    bytesOfWord_length, Vector.length_toList]
  rfl

/-- Cutting a concatenation of fields of the declared sizes gives the fields back. -/
theorem partsOf_concat {magic header key_signature preamble preamble_signature firmware_signature
    firmware_data : List UInt8} {algorithm : ℕ} {firmware_len : UInt32}
    (magicLength : magic.length = FIRMWARE_MAGIC_SIZE) (headerFields : 4 ≤ header.length)
    (headerLen : (halfOfBytes (header.take 2)).toNat = header.length)
    (algorithmField : (halfOfBytes ((header.drop 2).take 2)).toNat = algorithm)
    (keySignatureLength : key_signature.length = RSA8192NUMBYTES)
    (preambleLength : preamble.length = preamble_len)
    (lengthField : wordOfBytes ((preamble.drop 2).take 4) = firmware_len)
    (preambleSignatureLength : preamble_signature.length = signatureSize algorithm)
    (firmwareSignatureLength : firmware_signature.length = signatureSize algorithm)
    (dataLength : firmware_data.length = firmware_len.toNat) :
    partsOf (magic ++ (header ++ (key_signature ++ (preamble ++ (preamble_signature ++
      (firmware_signature ++ firmware_data)))))) =
      { magic := magic
        header_len := header.length
        sign_algorithm := algorithm
        header := header
        key_signature := key_signature
        preamble := preamble
        firmware_len := firmware_len
        preamble_signature := preamble_signature
        firmware_signature := firmware_signature
        firmware_data := firmware_data } := by
  have shortPreamble : preamble_len = 14 := rfl
  have afterMagic : ∀ rest : List UInt8, (magic ++ rest).drop FIRMWARE_MAGIC_SIZE = rest :=
    fun rest => List.drop_left' magicLength
  have lenField : ∀ rest : List UInt8, (header ++ rest).take 2 = header.take 2 :=
    fun rest => List.take_append_of_le_length (by omega)
  have algField : ∀ rest : List UInt8, ((header ++ rest).drop 2).take 2 = (header.drop 2).take 2 := by
    intro rest
    rw [List.drop_append_of_le_length (by omega),
      List.take_append_of_le_length (by rw [List.length_drop]; omega)]
  have afterKey : ∀ rest : List UInt8,
      (header ++ (key_signature ++ rest)).drop (header.length + RSA8192NUMBYTES) = rest := by
    intro rest
    rw [← List.append_assoc, List.drop_left' (by rw [List.length_append, keySignatureLength])]
  have flenField : ∀ rest : List UInt8,
      ((preamble ++ rest).drop 2).take 4 = (preamble.drop 2).take 4 := by
    intro rest
    rw [List.drop_append_of_le_length (by omega),
      List.take_append_of_le_length (by rw [List.length_drop]; omega)]
  have afterPreamble : ∀ rest : List UInt8, (preamble ++ (preamble_signature ++ rest)).drop
      (preamble_len + signatureSize algorithm) = rest := by
    intro rest
    rw [← List.append_assoc, List.drop_left' (by
      rw [List.length_append, preambleLength, preambleSignatureLength])]
  simp only [partsOf, afterMagic, lenField, headerLen, algField, algorithmField, afterKey, flenField,
    lengthField, afterPreamble, List.take_left' magicLength, List.take_left, List.drop_left,
    List.take_left' keySignatureLength, List.take_left' preambleLength,
    List.drop_left' preambleLength, List.take_left' preambleSignatureLength,
    List.take_left' firmwareSignatureLength, List.drop_left' firmwareSignatureLength,
    List.take_of_length_le dataLength.le]

/-- The verdict on short messages is `RSA_verify` of their digest. -/
theorem accepts_some (key : RSAPublicKey) (alg : Algorithm) (message sig : List UInt8)
    (short : message.length < 2 ^ 31) (sigLength : sig.length = siglen_map.get alg * 4) :
    accepts (some key) alg message sig =
      some (RSA_verify key sig (siglen_map.get alg * 4 : ℕ) alg (digestOf alg message)) := by
  have toNat : (UInt32.ofNat message.length).toNat = message.length :=
    UInt32.toNat_ofNat_of_lt' (by rw [UInt32.size]; omega)
  have digest := DigestBuf_eq message message.length alg (by omega) (by omega)
    (by simp)
  rw [Int.toNat_natCast, List.take_length] at digest
  rw [accepts, intOfUnsigned_of_lt (by omega), toNat]
  simp only [RSAVerifyBinary_f, alg.isLt, dif_pos, Fin.eta, digest, readAt_whole sigLength,
    Option.bind_eq_bind, Option.bind_some]

/-- Feeding a whole buffer to a digest in progress. -/
theorem DigestUpdate_whole {ctx : DigestContext} {kind : DigestAlgorithm}
    {message : List UInt8} (data : List UInt8) (len : ℤ) (represents : ctx.Represents kind message)
    (length : len = data.length) (bound : data.length < 2 ^ 31) :
    ∃ next, DigestUpdate ctx data len = some next ∧ next.Represents kind (message ++ data) := by
  obtain ⟨next, updated, represents⟩ := DigestUpdate_represents data len
    represents (by omega) (by omega) (by omega)
  rw [length, Int.toNat_natCast, List.take_length] at represents
  exact ⟨next, updated, represents⟩

section Header

variable {image : FirmwareImage} {alg : Algorithm} (sized : image.HeaderSized alg)
include sized

theorem FirmwareImage.HeaderSized.tableIndex_eq :
    tableIndex image.sign_algorithm.toNat = some alg := by
  rw [tableIndex, sized.algorithm, dif_pos alg.isLt]

theorem FirmwareImage.HeaderSized.headerFields_length :
    image.headerFields.length = headerSize alg - SHA512_DIGEST_SIZE := by
  simp only [headerFields, List.length_append, bytesOfHalf_length, sized.sign_key_length,
    headerSize, base_header_checksum_offset, Nat.add_sub_cancel]
  omega

theorem FirmwareImage.HeaderSized.header_length : image.header.length = headerSize alg := by
  have bounds := headerSize_bounds alg
  have size : SHA512_DIGEST_SIZE = 64 := rfl
  rw [header, List.length_append, sized.headerFields_length, Vector.length_toList]
  omega

theorem WriteFirmwareHeader_eq : WriteFirmwareHeader image = some image.header := by
  have size : (image.header_len.toNat : ℤ) - 2 - 2 - 2 - SHA512_DIGEST_SIZE =
      RSAProcessedKeySize alg := by
    rw [sized.header_len, headerSize, base_header_checksum_offset]
    push_cast
    ring
  simp [WriteFirmwareHeader, size, readAt_whole sized.sign_key_length, FirmwareImage.header,
    FirmwareImage.headerFields]

end Header

section WellFormed

variable {image : FirmwareImage} {alg : Algorithm} (valid : image.WellFormed alg)
include valid

theorem WriteFirmwareImage_eq : WriteFirmwareImage image = some image.blob := by
  simp only [WriteFirmwareImage, WriteFirmwareHeader_eq valid.toHeaderSized, valid.tableIndex_eq,
    readAt_whole valid.preamble_signature_length,
    readAt_whole valid.firmware_signature_length, readAt_whole valid.firmware_data_length,
    Option.bind_eq_bind, Option.bind_some, FirmwareImage.blob, List.append_assoc]

/-- The parts of that file are the fields of the image. -/
theorem partsOf_blob : partsOf image.blob = image.parts alg := by
  have bounds := headerSize_bounds alg
  have length := valid.header_length
  have size : signatureSize alg = siglen_map.get alg * 4 := signatureSize_of_lt alg.isLt
  have shape : image.header = bytesOfHalf image.header_len ++ (bytesOfHalf image.sign_algorithm ++
      (image.sign_key ++ bytesOfHalf image.key_version ++ image.header_checksum.toList)) := by
    simp only [FirmwareImage.header, FirmwareImage.headerFields, List.append_assoc]
  have headerLen : (halfOfBytes (image.header.take 2)).toNat = image.header.length := by
    rw [length, shape, List.take_left' (bytesOfHalf_length _), halfOfBytes_bytesOfHalf,
      valid.header_len]
  have algorithm : (halfOfBytes ((image.header.drop 2).take 2)).toNat = alg := by
    rw [shape, List.drop_left' (bytesOfHalf_length _), List.take_left' (bytesOfHalf_length _),
      halfOfBytes_bytesOfHalf, valid.algorithm]
  have lengthField : wordOfBytes (((WriteFirmwarePreamble image).drop 2).take 4) =
      image.firmware_len := by
    rw [WriteFirmwarePreamble, List.append_assoc, List.drop_left' (bytesOfHalf_length _),
      List.take_left' (bytesOfWord_length _), wordOfBytes_bytesOfWord]
  rw [FirmwareImage.blob, partsOf_concat Vector.length_toList (by omega) headerLen algorithm Vector.length_toList
    (WriteFirmwarePreamble_length image) lengthField
    (valid.preamble_signature_length.trans size.symm)
    (valid.firmware_signature_length.trans size.symm) valid.firmware_data_length, length,
    FirmwareImage.parts]

end WellFormed

/-- The code for three answers, asked in this order. -/
def verdictOf (rootAccepts preambleAccepts dataAccepts : Bool) : Except VerifyFirmwareError Unit :=
  if rootAccepts then
    if preambleAccepts then
      if dataAccepts then .ok () else .error .SIGNATURE_FAILED
    else .error .PREAMBLE_SIGNATURE_FAILED
  else .error .ROOT_SIGNATURE_FAILED

/-- The answer both verifiers give. -/
def FirmwareImage.verdict (image : FirmwareImage) (alg : Algorithm) (root signKey : RSAPublicKey)
    (dev_mode : ℤ) : Except VerifyFirmwareError Unit :=
  verdictOf
    (dev_mode ≠ 0 || RSA_verify root image.key_signature.toList RSA8192NUMBYTES
      ROOT_SIGNATURE_ALGORITHM (digestOf ROOT_SIGNATURE_ALGORITHM image.header))
    (RSA_verify signKey image.preamble_signature (siglen_map.get alg * 4 : ℕ) alg
      (digestOf alg (WriteFirmwarePreamble image)))
    (RSA_verify signKey image.firmware_signature (siglen_map.get alg * 4 : ℕ) alg
      (digestOf alg image.firmware_data))

private theorem preambleDigest (image : FirmwareImage) (alg : Algorithm) : ∃ ctx1 ctx2 ctx3,
    DigestUpdate (DigestInit alg) (bytesOfHalf image.firmware_version) 2 = some ctx1 ∧
    DigestUpdate ctx1 (bytesOfWord image.firmware_len) 4 = some ctx2 ∧
    DigestUpdate ctx2 image.preamble.toList FIRMWARE_PREAMBLE_SIZE = some ctx3 ∧
    DigestFinal ctx3 = some (digestOf alg (WriteFirmwarePreamble image)) := by
  obtain ⟨ctx1, step1, fed⟩ := DigestUpdate_whole (bytesOfHalf image.firmware_version) 2 (DigestInit_represents alg)
    (by simp) (by simp)
  obtain ⟨ctx2, step2, fed⟩ := DigestUpdate_whole (bytesOfWord image.firmware_len) 4 fed
    (by simp) (by simp)
  obtain ⟨ctx3, step3, fed⟩ := DigestUpdate_whole image.preamble.toList FIRMWARE_PREAMBLE_SIZE fed
    (by simp) (by rw [Vector.length_toList]; decide)
  exact ⟨ctx1, ctx2, ctx3, step1, step2, step3, DigestFinal_eq fed⟩

section Verdict

variable {image : FirmwareImage} {alg : Algorithm} (consistent : image.Consistent alg)
include consistent

private theorem headerDigest : ∃ ctx1 ctx2 ctx3 ctx4 ctx5,
    DigestUpdate (DigestInit ROOT_SIGNATURE_ALGORITHM) (bytesOfHalf image.header_len) 2 =
      some ctx1 ∧
    DigestUpdate ctx1 (bytesOfHalf image.sign_algorithm) 2 = some ctx2 ∧
    DigestUpdate ctx2 image.sign_key (RSAProcessedKeySize alg) = some ctx3 ∧
    DigestUpdate ctx3 (bytesOfHalf image.key_version) 2 = some ctx4 ∧
    DigestUpdate ctx4 image.header_checksum.toList SHA512_DIGEST_SIZE = some ctx5 ∧
    DigestFinal ctx5 = some (digestOf ROOT_SIGNATURE_ALGORITHM image.header) := by
  have keySize := consistent.sign_key_length
  have bounds := headerSize_bounds alg
  have small : RSAProcessedKeySize alg ≤ headerSize alg := by
    simp only [headerSize]
    omega
  obtain ⟨ctx1, step1, fed⟩ := DigestUpdate_whole (bytesOfHalf image.header_len) 2 (DigestInit_represents ROOT_SIGNATURE_ALGORITHM)
    (by simp) (by simp)
  obtain ⟨ctx2, step2, fed⟩ := DigestUpdate_whole (bytesOfHalf image.sign_algorithm) 2 fed
    (by simp) (by simp)
  obtain ⟨ctx3, step3, fed⟩ := DigestUpdate_whole image.sign_key (RSAProcessedKeySize alg) fed
    (by rw [keySize]) (by omega)
  obtain ⟨ctx4, step4, fed⟩ := DigestUpdate_whole (bytesOfHalf image.key_version) 2 fed
    (by simp) (by simp)
  obtain ⟨ctx5, step5, fed⟩ := DigestUpdate_whole image.header_checksum.toList SHA512_DIGEST_SIZE fed
    (by simp) (by rw [Vector.length_toList]; decide)
  exact ⟨ctx1, ctx2, ctx3, ctx4, ctx5, step1, step2, step3, step4, step5, DigestFinal_eq fed⟩

variable (short : image.firmware_len.toNat < 2 ^ 31) {root signKey : RSAPublicKey}
variable (signParsed :
  RSAPublicKeyFromBuf image.sign_key (RSAProcessedKeySize alg) = some (some signKey))
include short signParsed

/-- The image verifier gives the verdict. -/
theorem VerifyFirmwareImage_eq_verdict (dev_mode : ℤ) :
    VerifyFirmwareImage (some root) image dev_mode =
      some (image.verdict alg root signKey dev_mode) := by
  obtain ⟨_, _, _, _, _, header1, header2, header3, header4, header5, headerFinal⟩ :=
    headerDigest consistent
  obtain ⟨_, _, _, preamble1, preamble2, preamble3, preambleFinal⟩ := preambleDigest image alg
  have firmware := DigestBuf_eq image.firmware_data image.firmware_len.toNat alg
    (by omega) (by omega) (by rw [consistent.firmware_data_length]; simp)
  rw [Int.toNat_natCast, List.take_of_length_le consistent.firmware_data_length.le] at firmware
  have keySignature : readAt image.key_signature.toList 0 RSA8192NUMBYTES =
      some image.key_signature.toList := readAt_whole Vector.length_toList
  simp only [VerifyFirmwareImage, verifyWith, consistent.tableIndex_eq, header1, header2, header3,
    header4, header5, headerFinal, signParsed, preamble1, preamble2, preamble3, preambleFinal,
    firmware, intOfUnsigned_of_lt short, keySignature,
    readAt_whole consistent.preamble_signature_length,
    readAt_whole consistent.firmware_signature_length, Option.bind_eq_bind, Option.bind_some,
    FirmwareImage.verdict]
  generalize RSA_verify root _ _ _ _ = rootAccepts
  generalize RSA_verify signKey image.preamble_signature _ _ _ = preambleAccepts
  generalize RSA_verify signKey image.firmware_signature _ _ _ = dataAccepts
  by_cases enabled : dev_mode = 0 <;> cases rootAccepts <;> cases preambleAccepts <;>
    cases dataAccepts <;> simp [enabled, verdictOf]

end Verdict

section Blob

variable {image : FirmwareImage} {alg : Algorithm} (consistent : image.Consistent alg)
include consistent

theorem FirmwareImage.Consistent.checksumOk : (image.parts alg).ChecksumOk := by
  have fieldsLength := consistent.headerFields_length
  change image.header.drop (headerSize alg - SHA512_DIGEST_SIZE) = digestOf SHA512_DIGEST_ALGORITHM
    (image.header.take (headerSize alg - SHA512_DIGEST_SIZE))
  rw [header, List.drop_left' fieldsLength, List.take_left' fieldsLength,
    consistent.header_checksum]

theorem FirmwareImage.Consistent.signKey_eq : (image.parts alg).signKey alg =
    RSAPublicKeyFromBuf image.sign_key (RSAProcessedKeySize alg) := by
  have cut : (image.header.drop 4).take (RSAProcessedKeySize alg) = image.sign_key := by
    have shape : image.header = (bytesOfHalf image.header_len ++ bytesOfHalf image.sign_algorithm) ++
        (image.sign_key ++ (bytesOfHalf image.key_version ++ image.header_checksum.toList)) := by
      simp only [header, headerFields, List.append_assoc]
    rw [shape, List.drop_left' (by simp), List.take_left' consistent.sign_key_length]
  rw [FirmwareParts.signKey]
  exact congrArg (RSAPublicKeyFromBuf · _) cut

theorem FirmwareImage.Consistent.trusted_eq (root : RSAPublicKey) (dev_mode : ℤ) :
    (image.parts alg).trusted root dev_mode = some (dev_mode ≠ 0 ||
      RSA_verify root image.key_signature.toList RSA8192NUMBYTES ROOT_SIGNATURE_ALGORITHM
        (digestOf ROOT_SIGNATURE_ALGORITHM image.header)) := by
  have bounds := headerSize_bounds alg
  have small : image.header.length < 2 ^ 31 := by
    rw [consistent.header_length]
    omega
  rw [FirmwareParts.trusted]
  split
  · next enabled =>
    have skipped : decide (dev_mode ≠ 0) = false := by simp [enabled]
    rw [skipped, Bool.false_or]
    exact accepts_some root ROOT_SIGNATURE_ALGORITHM _ image.key_signature.toList small
      Vector.length_toList
  · next disabled => simp [disabled]

theorem FirmwareImage.Consistent.longEnough : LongEnough image.blob := by
  have total : image.blob.length = (image.parts alg).declaredLength := by
    simp only [blob, parts, FirmwareParts.declaredLength, signatureSize_of_lt alg.isLt,
      List.length_append, Vector.length_toList, consistent.header_length,
      WriteFirmwarePreamble_length, consistent.preamble_signature_length,
      consistent.firmware_signature_length, consistent.firmware_data_length, Fin.eta]
    omega
  have least : FIRMWARE_MAGIC_SIZE + 4 ≤ (image.parts alg).declaredLength := by
    simp only [FirmwareParts.declaredLength, RSA8192NUMBYTES]
    omega
  refine ⟨total ▸ least, ?_⟩
  rw [partsOf_blob consistent.toWellFormed, total]

variable (short : image.firmware_len.toNat < 2 ^ 31) {root signKey : RSAPublicKey}
variable (signParsed :
  RSAPublicKeyFromBuf image.sign_key (RSAProcessedKeySize alg) = some (some signKey))
include short

theorem FirmwareImage.Consistent.verifyBody_eq :
    (image.parts alg).verifyBody alg (some signKey) = some (verdictOf true
      (RSA_verify signKey image.preamble_signature (siglen_map.get alg * 4 : ℕ) alg
        (digestOf alg (WriteFirmwarePreamble image)))
      (RSA_verify signKey image.firmware_signature (siglen_map.get alg * 4 : ℕ) alg
        (digestOf alg image.firmware_data))) := by
  have preambleSmall : (WriteFirmwarePreamble image).length < 2 ^ 31 := by
    rw [WriteFirmwarePreamble_length]
    decide
  have preambleAnswer :=
    accepts_some signKey alg _ _ preambleSmall consistent.preamble_signature_length
  have dataAnswer := accepts_some signKey alg image.firmware_data _
    (by rwa [consistent.firmware_data_length]) consistent.firmware_signature_length
  simp only [FirmwareParts.verifyBody, FirmwareImage.parts, preambleAnswer, dataAnswer,
    Option.bind_eq_bind, Option.bind_some, verdictOf, if_true]
  split
  · split <;> rfl
  · rfl

include signParsed

/-- The blob verifier gives the verdict on the image that was written. -/
theorem verify_eq_verdict (dev_mode : ℤ) :
    (partsOf image.blob).verify root dev_mode =
      some (image.verdict alg root signKey dev_mode) := by
  have parsed := consistent.signKey_eq.trans signParsed
  have magic : (image.parts alg).magic = FIRMWARE_MAGIC.toList :=
    congrArg Vector.toList consistent.magic
  have sameAlg : (⟨(image.parts alg).sign_algorithm, alg.isLt⟩ : Algorithm) = alg := rfl
  have headerLen : (image.parts alg).header_len = headerSize alg := rfl
  have valid : (image.parts alg).sign_algorithm < kNumAlgorithms := alg.isLt
  rw [partsOf_blob consistent.toWellFormed, FirmwareParts.verify, if_neg (not_not_intro magic), dif_pos valid]
  simp only [sameAlg, headerLen, ne_eq, not_true_eq_false, if_false, consistent.checksumOk,
    consistent.trusted_eq root dev_mode, parsed, Option.bind_eq_bind, Option.bind_some,
    consistent.verifyBody_eq short, FirmwareImage.verdict]
  generalize (decide ¬dev_mode = 0 || RSA_verify root _ _ _ _) = rootAccepts
  cases rootAccepts <;> rfl

end Blob

/-- On every image with a consistent header, the two verifiers return the same code. -/
theorem VerifyFirmware_agrees_VerifyFirmwareImage {image : FirmwareImage} {alg : Algorithm}
    (consistent : image.Consistent alg) {signKey root : RSAPublicKey} {root_key_blob : List UInt8}
    (signParsed :
      RSAPublicKeyFromBuf image.sign_key (RSAProcessedKeySize alg) = some (some signKey))
    (short : image.firmware_len.toNat < 2 ^ 31)
    (rootParsed : RSAPublicKeyFromBuf root_key_blob
      (RSAProcessedKeySize ROOT_SIGNATURE_ALGORITHM) = some (some root)) (dev_mode : ℤ) :
    ∃ blob code, WriteFirmwareImage image = some blob ∧
      VerifyFirmware root_key_blob blob dev_mode = some code ∧
      VerifyFirmwareImage (some root) image dev_mode = some code := by
  refine ⟨image.blob, image.verdict alg root signKey dev_mode, WriteFirmwareImage_eq consistent.toWellFormed, ?_,
    VerifyFirmwareImage_eq_verdict consistent short signParsed dev_mode⟩
  rw [VerifyFirmware_eq_parts rootParsed consistent.longEnough]
  exact verify_eq_verdict consistent short signParsed dev_mode

/-- The header fields of `blankImage`. -/
def blankHeaderFields : List UInt8 :=
  bytesOfHalf 334 ++ bytesOfHalf 0 ++ blankKeyBlob 0 ++ bytesOfHalf 1

/-- A small image with a zero key and zero signatures. -/
def blankImage : FirmwareImage where
  magic := FIRMWARE_MAGIC
  header_len := 334
  sign_algorithm := 0
  sign_key := blankKeyBlob 0
  key_version := 1
  header_checksum :=
    vectorOf SHA512_DIGEST_SIZE (digestOf SHA512_DIGEST_ALGORITHM blankHeaderFields)
  key_signature := Vector.replicate RSA8192NUMBYTES 0
  firmware_version := 1
  firmware_len := 3
  preamble := Vector.replicate FIRMWARE_PREAMBLE_SIZE 0x50
  preamble_signature := List.replicate 128 0
  firmware_signature := List.replicate 128 0
  firmware_data := [0x46, 0x46, 0x46]

theorem blankImage_consistent : blankImage.Consistent 0 where
  magic := rfl
  algorithm := rfl
  header_len := rfl
  sign_key_length := blankKeyBlob_length 0
  header_checksum := vectorOf_toList (digestOf_length SHA512_DIGEST_ALGORITHM blankHeaderFields)
  preamble_signature_length := List.length_replicate
  firmware_signature_length := List.length_replicate
  firmware_data_length := rfl

theorem VerifyFirmware_agrees_on_blankImage :
    ∃ blob code, WriteFirmwareImage blankImage = some blob ∧
      VerifyFirmware (blankKeyBlob ROOT_SIGNATURE_ALGORITHM) blob 0 = some code ∧
      VerifyFirmwareImage (some (blankKey ROOT_SIGNATURE_ALGORITHM)) blankImage 0 = some code :=
  VerifyFirmware_agrees_VerifyFirmwareImage blankImage_consistent (blankKeyBlob_parses 0)
    (show (3 : UInt32).toNat < 2 ^ 31 by decide) (blankKeyBlob_parses ROOT_SIGNATURE_ALGORITHM) 0

end ChromiumOS.Vboot
