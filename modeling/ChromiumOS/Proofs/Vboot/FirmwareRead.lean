import ChromiumOS.Model.Vboot.FirmwareRead
import ChromiumOS.Proofs.Vboot.FirmwareAgreement

/-! # What `ReadFirmwareImage` accepts

A reading stands at an offset of the file or has overrun it, and every copy of a non-negative length
moves it on. What remains decides the result: the lengths a file declares, or those left over in the
caller's image when the file ends before its own. The header length the reader asks for is one that
no writer produces.
-/

namespace ChromiumOS.Vboot

open Radix

/-- Once a remainder is negative, so are all later ones. -/
def StaysOverrun (remainders : List ℤ) : Prop :=
  remainders.Pairwise fun before after => before < 0 → after < 0

/-- A reading at an offset of the buffer, which it has overrun if the offset is outside. -/
structure Reading.At (reading : Reading) (buf : List UInt8) (offset : ℕ) : Prop where
  remaining_len : reading.st.remaining_len =
    if offset ≤ buf.length then (buf.length : ℤ) - offset else -1
  remaining_buf : offset ≤ buf.length → reading.st.remaining_buf = buf.drop offset
  staysOverrun : StaysOverrun reading.remainders
  overrun : ∀ remainder ∈ reading.remainders, remainder < 0 → buf.length < offset

section Copy

variable {reading : Reading} {buf : List UInt8} {offset : ℕ}

/-- A copy leaves every field alone that its store function leaves alone. -/
theorem Reading.copy_keeps {α : Type} (field : FirmwareImage → α) {len : ℤ} {next : Reading}
    {store : FirmwareImage → List UInt8 → FirmwareImage}
    (copied : reading.copy len store = some next)
    (keeps : ∀ image bytes, field (store image bytes) = field image) : field next.image = field reading.image := by
  obtain ⟨⟨bytes, st⟩, -, nextEq⟩ := Option.bind_eq_some_iff.mp copied
  rw [← Option.some.inj nextEq]
  cases bytes with
  | none => rfl
  | some bytes => exact keeps reading.image bytes

/-- The remainder of one more copy, which is negative only if that copy overruns as well. -/
private theorem Reading.At.extend (here : reading.At buf offset) (len : ℕ) (remainder : ℤ)
    (inside : offset ≤ buf.length ∨ remainder < 0)
    (outside : remainder < 0 → buf.length < offset + len) :
    StaysOverrun (reading.remainders ++ [remainder]) ∧
      ∀ old ∈ reading.remainders ++ [remainder], old < 0 → buf.length < offset + len := by
  refine ⟨List.pairwise_append.mpr ⟨here.staysOverrun, by simp, ?_⟩, ?_⟩
  · intro old member new newEq negative
    rw [List.mem_singleton] at newEq
    have past := here.overrun old member negative
    omega
  · intro old member negative
    rcases List.mem_append.mp member with earlier | last
    · exact lt_of_lt_of_le (here.overrun old earlier negative) (Nat.le_add_right _ _)
    · rw [List.mem_singleton] at last
      exact outside (last ▸ negative)

/-- A copy of a non-negative length is defined, advances the reading and fills its field if the
buffer still has the bytes. -/
theorem Reading.At.copy (here : reading.At buf offset) (len : ℕ)
    (store : FirmwareImage → List UInt8 → FirmwareImage) :
    ∃ next, reading.copy len store = some next ∧ next.At buf (offset + len) ∧
      next.image = (readAt buf offset len).elim reading.image (store reading.image) := by
  have remaining := here.remaining_len
  by_cases fits : offset + len ≤ buf.length
  · have inside : offset ≤ buf.length := by omega
    rw [if_pos inside] at remaining
    have bytes : readAt reading.st.remaining_buf 0 len = some ((buf.drop offset).take len) := by
      rw [here.remaining_buf inside, readAt_of_le (by rw [List.length_drop]; omega), List.drop_zero]
    have copied : reading.copy len store = some
        { st :=
            { remaining_buf := reading.st.remaining_buf.drop len
              remaining_len := reading.st.remaining_len - len }
          image := store reading.image ((buf.drop offset).take len)
          remainders := reading.remainders ++ [reading.st.remaining_len - len] } := by
      rw [Reading.copy, StatefulMemcpy, if_neg (by omega), if_neg (by omega), Int.toNat_natCast, bytes]
      rfl
    obtain ⟨stays, overrun⟩ := here.extend len (reading.st.remaining_len - len)
      (.inl inside) (by omega)
    refine ⟨_, copied, ⟨?_, fun _ => ?_, stays, overrun⟩, by rw [readAt_of_le fits]; rfl⟩
    · dsimp only
      rw [remaining, if_pos fits]
      push_cast
      ring
    · dsimp only
      rw [here.remaining_buf inside, List.drop_drop]
  · have tooLong : (len : ℤ) > reading.st.remaining_len := by
      rw [remaining]
      split <;> omega
    have copied : reading.copy len store = some
        { st := { reading.st with remaining_len := -1 }
          image := reading.image
          remainders := reading.remainders ++ [-1] } := by
      rw [Reading.copy, StatefulMemcpy, if_pos tooLong]
      rfl
    have short : readAt buf offset len = none := if_neg fits
    obtain ⟨stays, overrun⟩ := here.extend len (-1) (.inr (by decide)) (by omega)
    refine ⟨_, copied, ⟨(if_neg fits).symm, fun inside => absurd inside fits, stays, overrun⟩, ?_⟩
    rw [short]
    rfl

/-- A negative length is never refused as an overrun. -/
theorem Reading.At.copy_negative (here : reading.At buf offset) {len : ℤ} (negative : len < 0)
    (store : FirmwareImage → List UInt8 → FirmwareImage) : reading.copy len store = none := by
  have remaining : -1 ≤ reading.st.remaining_len := by
    rw [here.remaining_len]
    split <;> omega
  rw [Reading.copy, StatefulMemcpy, if_neg (by omega), if_pos negative]
  rfl

/-- The copies of the header, none of which touches the firmware length. -/
theorem Reading.At.copyHeader (here : reading.At buf offset) (sign_key_len : ℕ) :
    ∃ next, reading.copyHeader sign_key_len = some next ∧
      next.At buf (offset + sign_key_len + 2 + SHA512_DIGEST_SIZE + RSA8192NUMBYTES) ∧
      next.image.firmware_len = reading.image.firmware_len := by
  obtain ⟨first, firstEq, here, -⟩ := here.copy sign_key_len
    fun image bytes => { image with sign_key := bytes }
  obtain ⟨second, secondEq, here, -⟩ := here.copy 2
    fun image bytes => { image with key_version := halfOfBytes bytes }
  obtain ⟨third, thirdEq, here, -⟩ := here.copy SHA512_DIGEST_SIZE
    fun image bytes => { image with header_checksum := vectorOf SHA512_DIGEST_SIZE bytes }
  obtain ⟨last, lastEq, here, -⟩ := here.copy RSA8192NUMBYTES
    fun image bytes => { image with key_signature := vectorOf RSA8192NUMBYTES bytes }
  refine ⟨last, ?_, here, ?_⟩
  · rw [Nat.cast_ofNat] at secondEq
    simp only [Reading.copyHeader, firstEq, secondEq, thirdEq, lastEq, Option.bind_eq_bind,
      Option.bind_some]
  · rw [Reading.copy_keeps FirmwareImage.firmware_len lastEq fun _ _ => rfl,
      Reading.copy_keeps FirmwareImage.firmware_len thirdEq fun _ _ => rfl,
      Reading.copy_keeps FirmwareImage.firmware_len secondEq fun _ _ => rfl,
      Reading.copy_keeps FirmwareImage.firmware_len firstEq fun _ _ => rfl]

/-- The firmware length a reading goes by: the one at its offset or, past the end of the buffer, the
one its image holds already. -/
def Reading.firmwareLen (reading : Reading) (buf : List UInt8) (offset : ℕ) : UInt32 :=
  (readAt buf (offset + 2) 4).elim reading.image.firmware_len wordOfBytes

/-- The copies from the preamble on; the last of them is undefined for a length that is negative as
an `int`. -/
theorem Reading.At.copyFirmware (here : reading.At buf offset) (signature_len : ℕ) :
    if (reading.firmwareLen buf offset).toNat < 2 ^ 31 then
      ∃ next, reading.copyFirmware signature_len = some next ∧
        next.At buf (offset + preamble_len + signature_len + signature_len +
          (reading.firmwareLen buf offset).toNat)
    else reading.copyFirmware signature_len = none := by
  obtain ⟨first, firstEq, here, -⟩ := here.copy 2
    fun image bytes => { image with firmware_version := halfOfBytes bytes }
  obtain ⟨second, secondEq, here, lenEq⟩ := here.copy 4
    fun image bytes => { image with firmware_len := wordOfBytes bytes }
  obtain ⟨third, thirdEq, here, -⟩ := here.copy FIRMWARE_PREAMBLE_SIZE
    fun image bytes => { image with preamble := vectorOf FIRMWARE_PREAMBLE_SIZE bytes }
  obtain ⟨fourth, fourthEq, here, -⟩ := here.copy signature_len
    fun image bytes => { image with preamble_signature := bytes }
  obtain ⟨fifth, fifthEq, here, -⟩ := here.copy signature_len
    fun image bytes => { image with firmware_signature := bytes }
  have firstLen := Reading.copy_keeps FirmwareImage.firmware_len firstEq fun _ _ => rfl
  have secondLen : second.image.firmware_len = reading.firmwareLen buf offset := by
    rw [lenEq, Reading.firmwareLen]
    cases readAt buf (offset + 2) 4 with
    | none => exact firstLen
    | some bytes => rfl
  have lastLen : fifth.image.firmware_len = reading.firmwareLen buf offset := by
    rw [Reading.copy_keeps FirmwareImage.firmware_len fifthEq fun _ _ => rfl,
      Reading.copy_keeps FirmwareImage.firmware_len fourthEq fun _ _ => rfl,
      Reading.copy_keeps FirmwareImage.firmware_len thirdEq fun _ _ => rfl, secondLen]
  have steps : reading.copyFirmware signature_len =
      fifth.copy (intOfUnsigned (reading.firmwareLen buf offset))
        fun image bytes => { image with firmware_data := bytes } := by
    rw [Nat.cast_ofNat] at firstEq secondEq
    simp only [Reading.copyFirmware, firstEq, secondEq, thirdEq, fourthEq, fifthEq, lastLen,
      Option.bind_eq_bind, Option.bind_some]
  rw [steps]
  split
  · next short =>
    rw [intOfUnsigned_of_lt short]
    obtain ⟨last, lastEq, here, -⟩ := here.copy (reading.firmwareLen buf offset).toNat
      fun image bytes => { image with firmware_data := bytes }
    exact ⟨last, lastEq, here⟩
  · next long =>
    apply here.copy_negative
    have bound : (reading.firmwareLen buf offset).toNat < 2 ^ 32 := UInt32.toNat_lt _
    rw [intOfUnsigned, if_neg long]
    omega

end Copy

/-- Where the preamble of an image starts in its file. -/
def preambleOffset (alg : Algorithm) : ℕ :=
  FIRMWARE_MAGIC_SIZE + 2 + 2 + RSAProcessedKeySize alg + 2 + SHA512_DIGEST_SIZE + RSA8192NUMBYTES

/-- The size of the file of an image. -/
def layoutLength (alg : Algorithm) (firmware_len : ℕ) : ℕ :=
  preambleOffset alg + preamble_len + siglen_map.get alg * 4 + siglen_map.get alg * 4 + firmware_len

/-- The size a file declares by its algorithm and its firmware length. -/
def declaredLength (file : List UInt8) : Option ℕ := do
  let alg ← tableIndex (halfOfBytes (← readAt file (FIRMWARE_MAGIC_SIZE + 2) 2)).toNat
  some (layoutLength alg (wordOfBytes (← readAt file (preambleOffset alg + 2) 4)).toNat)

section Fields

variable (buf : List UInt8) (image : FirmwareImage)

/-- The header length the reader goes by: the one in the buffer or, past its end, the one the
caller's image holds already. -/
def headerLenRead : ℕ :=
  ((readAt buf FIRMWARE_MAGIC_SIZE 2).elim image.header_len halfOfBytes).toNat

/-- The algorithm the reader goes by. -/
def algorithmRead : ℕ :=
  ((readAt buf (FIRMWARE_MAGIC_SIZE + 2) 2).elim image.sign_algorithm halfOfBytes).toNat

/-- The firmware length the reader goes by. -/
def firmwareLenRead (alg : Algorithm) : ℕ :=
  ((readAt buf (preambleOffset alg + 2) 4).elim image.firmware_len wordOfBytes).toNat

/-- An algorithm of the tables under the header length that the reader asks for. -/
def ReadsLengths (alg : Algorithm) : Prop :=
  algorithmRead buf image = alg ∧ headerLenRead buf image = 2 + 2 + 2 + SHA512_DIGEST_SIZE

/-- The reader indexes its table with the number of algorithms, or copies a negative length. -/
def Misreads : Prop :=
  algorithmRead buf image = kNumAlgorithms ∨
    ∃ alg, ReadsLengths buf image alg ∧ 2 ^ 31 ≤ firmwareLenRead buf image alg

/-- The lengths the reader goes by add up to the buffer. -/
def Fills : Prop :=
  ∃ alg, ReadsLengths buf image alg ∧ firmwareLenRead buf image alg < 2 ^ 31 ∧
    layoutLength alg (firmwareLenRead buf image alg) = buf.length

end Fields

/-- A defined run that returns `NULL`. -/
def ReturnsNull (run : Option (Option FirmwareImage × List ℤ)) : Prop :=
  ∃ remainders, run = some (none, remainders) ∧ StaysOverrun remainders

/-- A defined run that returns an image. -/
def ReturnsImage (run : Option (Option FirmwareImage × List ℤ)) : Prop :=
  ∃ read remainders, run = some (some read, remainders) ∧ StaysOverrun remainders

/-- How a run ends, by the lengths in the buffer. -/
structure Outcome (buf : List UInt8) (image : FirmwareImage)
    (run : Option (Option FirmwareImage × List ℤ)) : Prop where
  misreads : Misreads buf image → run = none
  fills : ¬ Misreads buf image → Fills buf image → ReturnsImage run
  rejects : ¬ Misreads buf image → ¬ Fills buf image → ReturnsNull run

section Parse

variable {reading : Reading} {buf : List UInt8} {image : FirmwareImage}

theorem tableIndex_of_lt {algorithm : ℕ} (valid : algorithm < kNumAlgorithms) :
    tableIndex algorithm = some ⟨algorithm, valid⟩ :=
  dif_pos valid

theorem Reading.At.parseSized (here : reading.At buf (FIRMWARE_MAGIC_SIZE + 2 + 2))
    (headerLen : reading.image.header_len.toNat = headerLenRead buf image)
    (algorithm : reading.image.sign_algorithm.toNat = algorithmRead buf image)
    (firmwareLen : reading.image.firmware_len = image.firmware_len) :
    Outcome buf image reading.parseSized := by
  rw [Reading.parseSized, algorithm, headerLen]
  rcases lt_trichotomy (algorithmRead buf image) kNumAlgorithms with valid | last | beyond
  · obtain ⟨alg, algEq⟩ : ∃ alg : Algorithm, algorithmRead buf image = alg := ⟨⟨_, valid⟩, rfl⟩
    have only : ∀ other, ReadsLengths buf image other → other = alg := fun other lengths =>
      Fin.ext (lengths.1.symm.trans algEq)
    have notLast : algorithmRead buf image ≠ kNumAlgorithms := valid.ne
    rw [if_neg (by omega), tableIndex_of_lt valid]
    simp only [algEq, Fin.eta, Option.bind_eq_bind, Option.bind_some]
    by_cases headerOk : headerLenRead buf image = 2 + 2 + 2 + SHA512_DIGEST_SIZE
    · have lengths : ReadsLengths buf image alg := ⟨algEq, headerOk⟩
      rw [if_neg (not_not_intro headerOk.symm)]
      obtain ⟨header, headerEq, there, sameLen⟩ := here.copyHeader (2 * siglen_map.get alg * 4 + 4 + 4)
      have place : FIRMWARE_MAGIC_SIZE + 2 + 2 + (2 * siglen_map.get alg * 4 + 4 + 4) + 2 +
          SHA512_DIGEST_SIZE + RSA8192NUMBYTES = preambleOffset alg := by
        rw [preambleOffset, RSAProcessedKeySize, Nat.mul_assoc]
      rw [place] at there
      have lenEq : (header.firmwareLen buf (preambleOffset alg)).toNat =
          firmwareLenRead buf image alg := by
        rw [Reading.firmwareLen, sameLen, firmwareLen, firmwareLenRead]
      rw [headerEq, Option.bind_some]
      have firmware := there.copyFirmware (siglen_map.get alg * 4)
      rw [lenEq] at firmware
      split at firmware
      · next short =>
        obtain ⟨last, lastEq, there⟩ := firmware
        have safe : ¬ Misreads buf image := by
          rintro (last | ⟨other, otherLengths, long⟩)
          · exact notLast last
          · rw [only other otherLengths] at long
            omega
        rw [lastEq, Option.bind_some, there.remaining_len]
        refine ⟨fun misreads => absurd misreads safe, fun _ fills => ?_, fun _ partly => ?_⟩
        · obtain ⟨other, otherLengths, -, total⟩ := fills
          rw [only other otherLengths, layoutLength] at total
          rw [if_neg (by rw [if_pos total.le, ← total]; push_cast; omega)]
          exact ⟨_, _, rfl, there.staysOverrun⟩
        · have total : layoutLength alg (firmwareLenRead buf image alg) ≠ buf.length :=
            fun total => partly ⟨alg, lengths, short, total⟩
          rw [layoutLength] at total
          rw [if_pos (by split <;> omega)]
          exact ⟨_, rfl, there.staysOverrun⟩
      · next long =>
        rw [firmware]
        have misreads : Misreads buf image := .inr ⟨alg, lengths, not_lt.mp long⟩
        exact ⟨fun _ => rfl, fun safe => absurd misreads safe, fun safe => absurd misreads safe⟩
    · rw [if_pos (fun same => headerOk same.symm)]
      refine ⟨?_, ?_, fun _ _ => ⟨_, rfl, here.staysOverrun⟩⟩
      · rintro (last | ⟨other, lengths, -⟩)
        · exact absurd last notLast
        · exact absurd lengths.2 headerOk
      · rintro - ⟨other, lengths, -⟩
        exact absurd lengths.2 headerOk
  · rw [if_neg (by omega), last, tableIndex, dif_neg (lt_irrefl _)]
    refine ⟨fun _ => rfl, fun safe => absurd (.inl last) safe, fun safe => absurd (.inl last) safe⟩
  · rw [if_pos beyond]
    have outside : ∀ other : Algorithm, ¬ ReadsLengths buf image other := by
      intro other lengths
      have bound := other.isLt
      have same := lengths.1
      omega
    refine ⟨?_, ?_, fun _ _ => ⟨_, rfl, here.staysOverrun⟩⟩
    · rintro (last | ⟨other, lengths, -⟩)
      · exact absurd last beyond.ne'
      · exact absurd lengths (outside other)
    · rintro - ⟨other, lengths, -⟩
      exact absurd lengths (outside other)

/-- A buffer that does not start with the magic is rejected after one copy. -/
theorem parseFirmwareImage_magic (differs : buf.take FIRMWARE_MAGIC_SIZE ≠ FIRMWARE_MAGIC.toList) :
    ReturnsNull (parseFirmwareImage buf buf.length image) := by
  by_cases short : buf.length < FIRMWARE_MAGIC_SIZE
  · rw [parseFirmwareImage, StatefulMemcpy, if_pos (show (FIRMWARE_MAGIC_SIZE : ℤ) > buf.length by omega)]
    exact ⟨[-1], rfl, List.pairwise_singleton _ _⟩
  · have length : (buf.take FIRMWARE_MAGIC_SIZE).length = FIRMWARE_MAGIC_SIZE :=
      List.length_take_of_le (by omega)
    have compared : SafeMemcmp (buf.take FIRMWARE_MAGIC_SIZE) FIRMWARE_MAGIC.toList
        FIRMWARE_MAGIC_SIZE = some true := by
      rw [SafeMemcmp_eq length.ge Vector.length_toList.ge, List.take_of_length_le length.le,
        List.take_of_length_le Vector.length_toList.le, decide_eq_true differs]
    rw [parseFirmwareImage, StatefulMemcpy_of_le _ _ _ (by omega) (by omega)]
    simp only [Option.bind_eq_bind, Option.bind_some, vectorOf_toList length, compared, if_true]
    exact ⟨_, rfl, List.pairwise_singleton _ _⟩

/-- A buffer that does is parsed by the lengths in it. -/
theorem parseFirmwareImage_outcome (magic : buf.take FIRMWARE_MAGIC_SIZE = FIRMWARE_MAGIC.toList) :
    Outcome buf image (parseFirmwareImage buf buf.length image) := by
  have length : (buf.take FIRMWARE_MAGIC_SIZE).length = FIRMWARE_MAGIC_SIZE := by
    rw [magic, Vector.length_toList]
  have inside : FIRMWARE_MAGIC_SIZE ≤ buf.length := by
    rw [List.length_take] at length
    omega
  have compared : SafeMemcmp FIRMWARE_MAGIC.toList FIRMWARE_MAGIC.toList FIRMWARE_MAGIC_SIZE =
      some false := by decide
  obtain ⟨begun, begunEq⟩ : ∃ begun : Reading,
      { st :=
          { remaining_buf := buf.drop FIRMWARE_MAGIC_SIZE
            remaining_len := (buf.length : ℤ) - FIRMWARE_MAGIC_SIZE }
        image := { image with magic := vectorOf FIRMWARE_MAGIC_SIZE FIRMWARE_MAGIC.toList }
        remainders := [(buf.length : ℤ) - FIRMWARE_MAGIC_SIZE] } = begun := ⟨_, rfl⟩
  have here : begun.At buf FIRMWARE_MAGIC_SIZE := by
    rw [← begunEq]
    refine ⟨(if_pos inside).symm, fun _ => rfl, List.pairwise_singleton _ _, ?_⟩
    intro remainder member negative
    rw [List.mem_singleton] at member
    omega
  obtain ⟨first, firstEq, here, firstImage⟩ := here.copy 2
    fun image bytes => { image with header_len := halfOfBytes bytes }
  obtain ⟨second, secondEq, here, secondImage⟩ := here.copy 2
    fun image bytes => { image with sign_algorithm := halfOfBytes bytes }
  rw [Nat.cast_ofNat] at firstEq secondEq
  have parsed : parseFirmwareImage buf buf.length image = second.parseSized := by
    rw [parseFirmwareImage, StatefulMemcpy_of_le _ _ _ (by omega) inside]
    simp only [Option.bind_eq_bind, Option.bind_some, magic, vectorOf_toList Vector.length_toList,
      compared, Bool.false_eq_true, if_false, begunEq, firstEq, secondEq]
  rw [parsed]
  apply here.parseSized
  · rw [Reading.copy_keeps FirmwareImage.header_len secondEq fun _ _ => rfl, firstImage, headerLenRead]
    cases readAt buf FIRMWARE_MAGIC_SIZE 2 with
    | none => rw [← begunEq]; rfl
    | some bytes => rfl
  · rw [secondImage, algorithmRead]
    cases readAt buf (FIRMWARE_MAGIC_SIZE + 2) 2 with
    | none =>
      have same := Reading.copy_keeps FirmwareImage.sign_algorithm firstEq fun _ _ => rfl
      rw [Option.elim_none, same, ← begunEq]
      rfl
    | some bytes => rfl
  · rw [Reading.copy_keeps FirmwareImage.firmware_len secondEq fun _ _ => rfl,
      Reading.copy_keeps FirmwareImage.firmware_len firstEq fun _ _ => rfl, ← begunEq]

end Parse

/-- The bytes of a file that the reader takes: as many as its size modulo the range of an `int`. -/
def bufferOf (file : List UInt8) : List UInt8 := file.take (file.length % 2 ^ 32)

section File

variable {file : List UInt8} {image : FirmwareImage}

theorem bufferOf_length (file : List UInt8) : (bufferOf file).length = file.length % 2 ^ 32 :=
  List.length_take_of_le (Nat.mod_le _ _)

theorem bufferOf_eq (short : file.length < 2 ^ 32) : bufferOf file = file := by
  rw [bufferOf, Nat.mod_eq_of_lt short, List.take_length]

/-- A size that one `read` cannot transfer, or that is negative as an `int`, is refused. -/
theorem ReadFirmwareImage_refused (long : MAX_RW_COUNT < file.length % 2 ^ 32) :
    ReturnsNull (ReadFirmwareImage (some file) (some image)) := by
  have wrapped : (UInt32.ofNat file.length).toNat = file.length % 2 ^ 32 := UInt32.toNat_ofNat'
  have limit : MAX_RW_COUNT = 2147479552 := rfl
  simp only [ReadFirmwareImage]
  split
  · exact ⟨[], rfl, List.Pairwise.nil⟩
  · next same =>
    rw [not_not, readCount] at same
    split at same
    · next negative =>
      rw [same, parseFirmwareImage, StatefulMemcpy, if_pos (show (FIRMWARE_MAGIC_SIZE : ℤ) > -1 by decide)]
      exact ⟨[-1], rfl, List.pairwise_singleton _ _⟩
    · next nonneg =>
      rw [intOfUnsigned, wrapped] at same nonneg
      split at same <;> omega

/-- Any other file is parsed from its buffer. -/
theorem ReadFirmwareImage_buffer (short : file.length % 2 ^ 32 ≤ MAX_RW_COUNT) :
    ReadFirmwareImage (some file) (some image) =
      parseFirmwareImage (bufferOf file) (bufferOf file).length image := by
  have wrapped : (UInt32.ofNat file.length).toNat = file.length % 2 ^ 32 := UInt32.toNat_ofNat'
  have limit : MAX_RW_COUNT = 2147479552 := rfl
  have size : intOfUnsigned (UInt32.ofNat file.length) = (file.length % 2 ^ 32 : ℕ) := by
    rw [intOfUnsigned_of_lt (by omega), wrapped]
  have whole := Nat.mod_le file.length (2 ^ 32)
  have transferred : readCount file (file.length % 2 ^ 32 : ℕ) = (file.length % 2 ^ 32 : ℕ) := by
    rw [readCount, if_neg (by omega)]
    omega
  simp only [ReadFirmwareImage, size, transferred, ne_eq, not_true_eq_false, if_false,
    Int.toNat_natCast, bufferOf_length]
  rfl

end File

section Declared

variable {buf : List UInt8} {image : FirmwareImage}

/-- A length declared in the first bytes of a file is declared by the file. -/
theorem declaredLength_of_take {count total : ℕ} (declared : declaredLength (buf.take count) = some total) :
    declaredLength buf = some total := by
  have extend : ∀ {offset len : ℕ} {bytes : List UInt8},
      readAt (buf.take count) offset len = some bytes → readAt buf offset len = some bytes := by
    intro offset len bytes read
    rw [readAt] at read
    split at read
    · next inside =>
      rw [List.length_take] at inside
      rw [← read, ← readAt_take (show offset + len ≤ count by omega), readAt_of_le]
      rw [List.length_take]
      exact inside
    · exact absurd read (by simp)
  simp only [declaredLength, Option.bind_eq_bind, Option.bind_eq_some_iff] at declared ⊢
  obtain ⟨algorithm, algorithmEq, alg, algEq, len, lenEq, totalEq⟩ := declared
  exact ⟨algorithm, extend algorithmEq, alg, algEq, len, extend lenEq, totalEq⟩

/-- Lengths that fill the buffer are the ones it declares itself. -/
theorem Fills.declared (fills : Fills buf image) : declaredLength buf = some buf.length := by
  obtain ⟨alg, ⟨algorithm, -⟩, -, total⟩ := fills
  rw [layoutLength, preamble_len] at total
  have before : FIRMWARE_MAGIC_SIZE + 2 + 2 ≤ preambleOffset alg := by
    rw [preambleOffset]
    omega
  have algorithmField := readAt_of_le (show FIRMWARE_MAGIC_SIZE + 2 + 2 ≤ buf.length by omega)
  have lenField := readAt_of_le (show preambleOffset alg + 2 + 4 ≤ buf.length by omega)
  rw [algorithmRead, algorithmField, Option.elim_some] at algorithm
  rw [firmwareLenRead, lenField, Option.elim_some] at total
  simp only [declaredLength, algorithmField, algorithm, tableIndex_of_lt alg.isLt, Fin.eta, lenField,
    Option.bind_eq_bind, Option.bind_some, layoutLength, preamble_len, total]

end Declared

/-- The reader keeps inside its table and its buffer, an overrun stays detected, and a file of
another length than it declares is rejected. -/
def ReadsRobustly (file : List UInt8) (image : FirmwareImage) : Prop :=
  ∃ result remainders, ReadFirmwareImage (some file) (some image) = some (result, remainders) ∧
    StaysOverrun remainders ∧ (declaredLength file ≠ some file.length → result = none)

/-- The files on which it does not: their buffer starts with the magic and then makes the reader
misread, or is filled by the lengths in it although the file goes on after it. -/
def ReadHazard (file : List UInt8) (image : FirmwareImage) : Prop :=
  file.length % 2 ^ 32 ≤ MAX_RW_COUNT ∧
    (bufferOf file).take FIRMWARE_MAGIC_SIZE = FIRMWARE_MAGIC.toList ∧
    (Misreads (bufferOf file) image ∨ Fills (bufferOf file) image ∧ 2 ^ 32 ≤ file.length)

theorem ReturnsNull.robust {file : List UInt8} {image : FirmwareImage}
    (null : ReturnsNull (ReadFirmwareImage (some file) (some image))) : ReadsRobustly file image := by
  obtain ⟨remainders, run, stays⟩ := null
  exact ⟨none, remainders, run, stays, fun _ => rfl⟩

/-- Exactly the hazards are read without the care the format needs. -/
theorem ReadFirmwareImage_robust_iff (file : List UInt8) (image : FirmwareImage) :
    ReadsRobustly file image ↔ ¬ ReadHazard file image := by
  by_cases short : file.length % 2 ^ 32 ≤ MAX_RW_COUNT
  swap
  · refine iff_of_true (ReadFirmwareImage_refused (not_le.mp short)).robust fun hazard => ?_
    exact short hazard.1
  by_cases magic : (bufferOf file).take FIRMWARE_MAGIC_SIZE = FIRMWARE_MAGIC.toList
  swap
  · refine iff_of_true (ReturnsNull.robust ?_) fun hazard => magic hazard.2.1
    rw [ReadFirmwareImage_buffer short]
    exact parseFirmwareImage_magic magic
  have outcome : Outcome (bufferOf file) image _ := parseFirmwareImage_outcome magic
  rw [← ReadFirmwareImage_buffer short] at outcome
  by_cases misreads : Misreads (bufferOf file) image
  · refine iff_of_false ?_ fun safe => safe ⟨short, magic, .inl misreads⟩
    rintro ⟨result, remainders, run, -⟩
    rw [outcome.misreads misreads] at run
    exact absurd run (by simp)
  by_cases fills : Fills (bufferOf file) image
  · obtain ⟨read, remainders, run, stays⟩ := outcome.fills misreads fills
    have declared := declaredLength_of_take fills.declared
    rw [bufferOf_length] at declared
    by_cases long : 2 ^ 32 ≤ file.length
    · refine iff_of_false ?_ fun safe => safe ⟨short, magic, .inr ⟨fills, long⟩⟩
      rintro ⟨result, others, sameRun, -, rejects⟩
      have differs : declaredLength file ≠ some file.length := by
        rw [declared, ne_eq, Option.some.injEq]
        omega
      rw [rejects differs, run] at sameRun
      exact absurd sameRun (by simp)
    · refine iff_of_true ⟨_, _, run, stays, fun differs => ?_⟩ ?_
      · rw [declared, Nat.mod_eq_of_lt (not_le.mp long)] at differs
        exact absurd rfl differs
      · rintro ⟨-, -, wrong | ⟨-, wrong⟩⟩
        · exact misreads wrong
        · exact long wrong
  · refine iff_of_true (outcome.rejects misreads fills).robust ?_
    rintro ⟨-, -, wrong | ⟨wrong, -⟩⟩
    · exact misreads wrong
    · exact fills wrong

/-- A file that ends right after an algorithm number one above the last. -/
def lastAlgorithmFile : List UInt8 :=
  FIRMWARE_MAGIC.toList ++ bytesOfHalf 70 ++ bytesOfHalf 12

theorem lastAlgorithmFile_not_robust : ¬ ReadsRobustly lastAlgorithmFile blankImage := by
  have undefined : ReadFirmwareImage (some lastAlgorithmFile) (some blankImage) = none := by rfl
  rintro ⟨result, remainders, run, -⟩
  rw [undefined] at run
  exact absurd run (by simp)

/-- Reading the file of an image gives the image back. -/
def ReadsBack (image into : FirmwareImage) : Prop :=
  ∃ file remainders, WriteFirmwareImage image = some file ∧
    ReadFirmwareImage (some file) (some into) = some (some image, remainders)

section Written

variable {image : FirmwareImage} {alg : Algorithm}

private theorem readAt_between {before field after : List UInt8} {offset count : ℕ}
    (start : before.length = offset) (length : field.length = count) :
    readAt (before ++ (field ++ after)) offset count = some field := by
  rw [readAt_of_le (by simp only [List.length_append]; omega), List.drop_left' start,
    List.take_left' length]

theorem FirmwareImage.WellFormed.blob_length (valid : image.WellFormed alg) :
    image.blob.length = layoutLength alg image.firmware_len.toNat := by
  simp only [FirmwareImage.blob, List.length_append, Vector.length_toList, valid.header_length,
    WriteFirmwarePreamble_length, valid.preamble_signature_length, valid.firmware_signature_length,
    valid.firmware_data_length, layoutLength, preambleOffset, headerSize, base_header_checksum_offset]
  omega

/-- A header of the size the writer, the generator and the verifiers agree on is not the one the
reader asks for. -/
theorem ReadFirmwareImage_blob (valid : image.WellFormed alg)
    (short : image.firmware_len.toNat < 2 ^ 31) (into : FirmwareImage) :
    ReturnsNull (ReadFirmwareImage (some image.blob) (some into)) := by
  have sizes : layoutLength alg image.firmware_len.toNat < 2 ^ 32 := by
    have bound : ∀ alg, layoutLength alg 0 < 2 ^ 31 := by decide
    have bound := bound alg
    rw [layoutLength] at bound ⊢
    omega
  have whole : bufferOf image.blob = image.blob := bufferOf_eq (by rw [valid.blob_length]; exact sizes)
  by_cases readable : image.blob.length % 2 ^ 32 ≤ MAX_RW_COUNT
  swap
  · exact ReadFirmwareImage_refused (not_le.mp readable)
  rw [ReadFirmwareImage_buffer readable, whole]
  have magic : image.blob.take FIRMWARE_MAGIC_SIZE = FIRMWARE_MAGIC.toList := by
    rw [FirmwareImage.blob, List.take_left' Vector.length_toList, valid.magic]
  have headerLen : headerLenRead image.blob into = headerSize alg := by
    rw [headerLenRead, ← valid.header_len, FirmwareImage.blob, FirmwareImage.header,
      FirmwareImage.headerFields]
    simp only [List.append_assoc]
    rw [readAt_between Vector.length_toList (bytesOfHalf_length _), Option.elim_some,
      halfOfBytes_bytesOfHalf]
  have algorithm : algorithmRead image.blob into = alg := by
    rw [algorithmRead, ← valid.algorithm, FirmwareImage.blob, FirmwareImage.header,
      FirmwareImage.headerFields]
    simp only [List.append_assoc]
    rw [← List.append_assoc image.magic.toList, readAt_between (by simp) (bytesOfHalf_length _),
      Option.elim_some, halfOfBytes_bytesOfHalf]
  have noLengths : ∀ other, ¬ ReadsLengths image.blob into other := by
    intro other lengths
    have demanded := headerLen.symm.trans lengths.2
    rw [headerSize, RSAProcessedKeySize, base_header_checksum_offset] at demanded
    omega
  refine (parseFirmwareImage_outcome magic).rejects ?_ ?_
  · rintro (last | ⟨other, lengths, -⟩)
    · exact absurd (algorithm.symm.trans last) alg.isLt.ne
    · exact noLengths other lengths
  · rintro ⟨other, lengths, -⟩
    exact noLengths other lengths

theorem not_readsBack (valid : image.WellFormed alg) (short : image.firmware_len.toNat < 2 ^ 31)
    (into : FirmwareImage) : ¬ ReadsBack image into := by
  rintro ⟨file, remainders, written, read⟩
  obtain ⟨others, null, -⟩ := ReadFirmwareImage_blob valid short into
  rw [WriteFirmwareImage_eq valid, Option.some.injEq] at written
  rw [← written, null] at read
  exact absurd read (by simp)

end Written

/-- No image that can be written is ever read back: the reader returns `NULL` on its file. -/
theorem ReadFirmwareImage_rejects_written {image : FirmwareImage} {alg : Algorithm}
    (valid : image.WellFormed alg) (short : image.firmware_len.toNat < 2 ^ 31)
    (into : FirmwareImage) :
    ¬ ReadsBack image into ∧ ∃ file, WriteFirmwareImage image = some file ∧
      ReturnsNull (ReadFirmwareImage (some file) (some into)) :=
  ⟨not_readsBack valid short into, image.blob, WriteFirmwareImage_eq valid,
    ReadFirmwareImage_blob valid short into⟩

theorem ReadFirmwareImage_rejects_blankImage :
    ¬ ReadsBack blankImage blankImage ∧ ∃ file, WriteFirmwareImage blankImage = some file ∧
      ReturnsNull (ReadFirmwareImage (some file) (some blankImage)) :=
  ReadFirmwareImage_rejects_written blankImage_consistent.toWellFormed
    (show (3 : UInt32).toNat < 2 ^ 31 by decide) blankImage

theorem blankImage_not_read_back :
    blankImage.WellFormed 0 ∧ blankImage.firmware_len.toNat < 2 ^ 31 ∧
      ¬ ReadsBack blankImage blankImage :=
  have short : (3 : UInt32).toNat < 2 ^ 31 := by decide
  ⟨blankImage_consistent.toWellFormed, short,
    not_readsBack blankImage_consistent.toWellFormed short blankImage⟩

end ChromiumOS.Vboot
