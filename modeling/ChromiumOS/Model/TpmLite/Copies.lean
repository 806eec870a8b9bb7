import ChromiumOS.Model.TpmLite.Tlcl

/-! # The copies of the NV commands

The operands that `TlclWrite` and `TlclRead` call `memcpy` with, before anything is known of the bounds of the
buffers. A failed `assert` is `none`.
-/

namespace ChromiumOS.TpmLite

/-- The operands of a `memcpy`: where it starts in the buffer that it stores to and in the one that it reads, and
the number of bytes. -/
structure Memcpy where
  destination : ℕ
  source : ℕ
  count : ℕ
deriving DecidableEq, Repr

/-- The bytes that are stored and read are those of ranges of the two buffers. -/
def Memcpy.Inside (copy : Memcpy) (first last available : ℕ) : Prop :=
  copy.count = 0 ∨
    (first ≤ copy.destination ∧ copy.destination + copy.count ≤ last ∧ copy.source + copy.count ≤ available)

/-- A `memcpy` between buffers. -/
def Memcpy.perform (copy : Memcpy) (destination source : List UInt8) : List UInt8 :=
  destination.take copy.destination ++ (source.drop copy.source).take copy.count ++
    destination.drop (copy.destination + copy.count)

namespace Structures

variable (structures : Structures)

/-- `TlclWrite` copies the data of the caller behind the header of the command. -/
def writeMemcpy (length : UInt32) : Option Memcpy := do
  let total_length := UInt32.ofNat (kTpmRequestHeaderLength + kWriteInfoLength) + length
  guard (total_length.toBitVec.toInt ≤ TPM_LARGE_ENOUGH_COMMAND_SIZE)
  let destination ← structures.tpm_nv_write_cmd.pointers.lookup "data"
  return { destination, source := 0, count := length.toNat }

/-- What `TlclRead` gets for its request. -/
def readReceive (index length : UInt32) (exchange : Exchange) : Option (List UInt8) := do
  let cmd ← structures.tpm_nv_read_cmd.set "index" (ToTpmUint32 index)
  let cmd ← cmd.set "length" (ToTpmUint32 length)
  SendReceive cmd.buffer exchange

/-- `TlclRead` copies from the response to the start of the buffer of the caller, if it copies at all. -/
def readMemcpy (length : UInt32) (response : List UInt8) : Option (Option Memcpy) := do
  let result ← TpmReturnCode response
  if result = TPM_SUCCESS ∧ 0 < length then
    let result_length ← FromTpmUint32 (response.drop kTpmResponseHeaderLength)
    return some { destination := 0, source := kTpmResponseHeaderLength + 4, count := result_length.toNat }
  else return none

end Structures

end ChromiumOS.TpmLite
