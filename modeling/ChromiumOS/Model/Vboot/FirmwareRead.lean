import ChromiumOS.Model.Vboot.FirmwareImage

/-! # Firmware images: reading

`ReadFirmwareImage`. The caller's image is overwritten field by field, and a copy that overruns the
file leaves its field as it was, so the fields the caller handed in are an input of the function.
Next to the state of the copies a reading keeps the remainders seen after each of them.
-/

namespace ChromiumOS.Vboot

/-- The most that one `read` transfers. -/
def MAX_RW_COUNT : ℕ := 0x7ffff000

/-- What `read` returns for a count given as an `int` and converted to `size_t`; a converted
negative count is refused. -/
def readCount (file : List UInt8) (count : ℤ) : ℤ :=
  if count < 0 then -1 else min count (min MAX_RW_COUNT file.length)

structure Reading where
  st : MemcpyState
  image : FirmwareImage
  remainders : List ℤ

namespace Reading

/-- One `StatefulMemcpy` into the image, whose result is not looked at. -/
def copy (reading : Reading) (len : ℤ) (store : FirmwareImage → List UInt8 → FirmwareImage) :
    Option Reading := do
  let (bytes, st) ← StatefulMemcpy reading.st len
  some
    { st
      image := bytes.elim reading.image (store reading.image)
      remainders := reading.remainders ++ [st.remaining_len] }

/-- The header after the algorithm, with the key it contains. -/
def copyHeader (reading : Reading) (sign_key_len : ℕ) : Option Reading := do
  let reading ← reading.copy sign_key_len fun image bytes => { image with sign_key := bytes }
  let reading ← reading.copy 2 fun image bytes => { image with key_version := halfOfBytes bytes }
  let reading ← reading.copy SHA512_DIGEST_SIZE fun image bytes =>
    { image with header_checksum := vectorOf SHA512_DIGEST_SIZE bytes }
  reading.copy RSA8192NUMBYTES fun image bytes =>
    { image with key_signature := vectorOf RSA8192NUMBYTES bytes }

/-- The preamble with its signature, the firmware signature and the firmware. -/
def copyFirmware (reading : Reading) (signature_len : ℕ) : Option Reading := do
  let reading ← reading.copy 2 fun image bytes =>
    { image with firmware_version := halfOfBytes bytes }
  let reading ← reading.copy 4 fun image bytes => { image with firmware_len := wordOfBytes bytes }
  let reading ← reading.copy FIRMWARE_PREAMBLE_SIZE fun image bytes =>
    { image with preamble := vectorOf FIRMWARE_PREAMBLE_SIZE bytes }
  let reading ← reading.copy signature_len fun image bytes =>
    { image with preamble_signature := bytes }
  let reading ← reading.copy signature_len fun image bytes =>
    { image with firmware_signature := bytes }
  reading.copy (intOfUnsigned reading.image.firmware_len) fun image bytes =>
    { image with firmware_data := bytes }

/-- Everything after the algorithm has been copied. The result is the image, or `none` for `NULL`,
with the remainders after each copy. The header length is compared with a sum that leaves out the
key. -/
def parseSized (reading : Reading) : Option (Option FirmwareImage × List ℤ) :=
  if reading.image.sign_algorithm.toNat > kNumAlgorithms then some (none, reading.remainders)
  else do
    let algorithm ← tableIndex reading.image.sign_algorithm.toNat
    let sign_key_len := 2 * siglen_map.get algorithm * 4 + 4 + 4
    let signature_len := siglen_map.get algorithm * 4
    let header_len := 2 + 2 + 2 + SHA512_DIGEST_SIZE
    if header_len ≠ reading.image.header_len.toNat then some (none, reading.remainders)
    else
      let reading ← reading.copyHeader sign_key_len
      let reading ← reading.copyFirmware signature_len
      if reading.st.remaining_len ≠ 0 then some (none, reading.remainders)
      else some (some reading.image, reading.remainders)

end Reading

/-- Everything after the file is in the buffer. -/
def parseFirmwareImage (firmware_buf : List UInt8) (image_len : ℤ) (image : FirmwareImage) :
    Option (Option FirmwareImage × List ℤ) := do
  let (magic, st) ← StatefulMemcpy
    { remaining_buf := firmware_buf, remaining_len := image_len } FIRMWARE_MAGIC_SIZE
  match magic with
  | none => some (none, [st.remaining_len])
  | some magic =>
    let image := { image with magic := vectorOf FIRMWARE_MAGIC_SIZE magic }
    if ← SafeMemcmp image.magic.toList FIRMWARE_MAGIC.toList FIRMWARE_MAGIC_SIZE then
      some (none, [st.remaining_len])
    else
      let reading : Reading := { st, image, remainders := [st.remaining_len] }
      let reading ← reading.copy 2 fun image bytes => { image with header_len := halfOfBytes bytes }
      let reading ← reading.copy 2 fun image bytes =>
        { image with sign_algorithm := halfOfBytes bytes }
      reading.parseSized

/-- Read an image from a file, `none` being a file that cannot be opened. -/
def ReadFirmwareImage (input_file : Option (List UInt8)) (image : Option FirmwareImage) :
    Option (Option FirmwareImage × List ℤ) :=
  match image, input_file with
  | some image, some file =>
    let image_len := intOfUnsigned (UInt32.ofNat file.length)
    if image_len ≠ readCount file image_len then some (none, [])
    else parseFirmwareImage (file.take image_len.toNat) image_len image
  | _, _ => some (none, [])

end ChromiumOS.Vboot
