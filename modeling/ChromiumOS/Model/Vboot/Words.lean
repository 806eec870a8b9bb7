import ChromiumOS.ToMathlib.Radix

/-! # Machine words in memory

The big-endian shift-and-or conversions shared by `rsa.c`, `sha1.c` and `sha2.c`, and the
little-endian layout that the firmware and key formats inherit from the machine: their fields are
copied to and from memory as they are.
-/

namespace ChromiumOS.Vboot

open Radix

/-- Big-endian bytes to 32-bit words, most significant word first. -/
def packWords : List UInt8 → List UInt32
  | b0 :: b1 :: b2 :: b3 :: rest =>
      ((b0.toUInt32 <<< 24) ||| (b1.toUInt32 <<< 16) ||| (b2.toUInt32 <<< 8) ||| b3.toUInt32) ::
        packWords rest
  | _ => []

/-- The four bytes of a word, most significant first (`UNPACK32`). -/
def unpackWord (word : UInt32) : List UInt8 :=
  [(word >>> 24).toUInt8, (word >>> 16).toUInt8, (word >>> 8).toUInt8, word.toUInt8]

/-- Big-endian bytes to 64-bit words (`PACK64`), most significant word first. -/
def packWords64 : List UInt8 → List UInt64
  | b0 :: b1 :: b2 :: b3 :: b4 :: b5 :: b6 :: b7 :: rest =>
      (b7.toUInt64 ||| (b6.toUInt64 <<< 8) ||| (b5.toUInt64 <<< 16) ||| (b4.toUInt64 <<< 24) |||
        (b3.toUInt64 <<< 32) ||| (b2.toUInt64 <<< 40) ||| (b1.toUInt64 <<< 48) |||
        (b0.toUInt64 <<< 56)) :: packWords64 rest
  | _ => []

/-- The eight bytes of a word, most significant first (`UNPACK64`). -/
def unpackWord64 (word : UInt64) : List UInt8 :=
  [(word >>> 56).toUInt8, (word >>> 48).toUInt8, (word >>> 40).toUInt8, (word >>> 32).toUInt8,
    (word >>> 24).toUInt8, (word >>> 16).toUInt8, (word >>> 8).toUInt8, word.toUInt8]

/-- The bytes of a word in memory. -/
def bytesOfWord (word : UInt32) : List UInt8 := leBytes 4 word.toNat

/-- The bytes of a halfword in memory. -/
def bytesOfHalf (half : UInt16) : List UInt8 := leBytes 2 half.toNat

/-- The word that four bytes of memory hold. -/
def wordOfBytes (bytes : List UInt8) : UInt32 := UInt32.ofNat (leNat bytes)

/-- The halfword that two bytes of memory hold. -/
def halfOfBytes (bytes : List UInt8) : UInt16 := UInt16.ofNat (leNat bytes)

/-- An array of words in memory. -/
def wordsOfBytes : List UInt8 → List UInt32
  | b0 :: b1 :: b2 :: b3 :: rest => wordOfBytes [b0, b1, b2, b3] :: wordsOfBytes rest
  | _ => []

/-- Conversion of an `unsigned int` to `int`. -/
def intOfUnsigned (value : UInt32) : ℤ :=
  if value.toNat < 2 ^ 31 then value.toNat else value.toNat - 2 ^ 32

/-- Conversion of an `int` to `unsigned int`. -/
def unsignedOfInt (value : ℤ) : UInt32 := UInt32.ofNat (value % 2 ^ 32).toNat

@[simp] theorem bytesOfHalf_length (half : UInt16) : (bytesOfHalf half).length = 2 :=
  leBytes_length 2 _

@[simp] theorem bytesOfWord_length (word : UInt32) : (bytesOfWord word).length = 4 :=
  leBytes_length 4 _

@[simp] theorem halfOfBytes_bytesOfHalf (half : UInt16) : halfOfBytes (bytesOfHalf half) = half := by
  have bound : half.toNat < 256 ^ 2 := half.toNat_lt
  rw [halfOfBytes, bytesOfHalf, leNat_leBytes_of_lt bound, UInt16.ofNat_toNat]

@[simp] theorem wordOfBytes_bytesOfWord (word : UInt32) : wordOfBytes (bytesOfWord word) = word := by
  have bound : word.toNat < 256 ^ 4 := word.toNat_lt
  rw [wordOfBytes, bytesOfWord, leNat_leBytes_of_lt bound, UInt32.ofNat_toNat]

theorem bytesOfWord_wordOfBytes {bytes : List UInt8} (length : bytes.length = 4) :
    bytesOfWord (wordOfBytes bytes) = bytes := by
  have bound : leNat bytes < 256 ^ 4 := by
    rw [← length]
    exact leNat_lt bytes
  norm_num only at bound
  rw [bytesOfWord, wordOfBytes, UInt32.toNat_ofNat_of_lt' bound, ← length]
  exact leBytes_leNat bytes

theorem unpackWord_length (word : UInt32) : (unpackWord word).length = 4 := rfl

theorem unpackWord64_length (word : UInt64) : (unpackWord64 word).length = 8 := rfl

end ChromiumOS.Vboot
