import Mathlib

/-! # Signature algorithms and their tables

`padding.c` is generated by `genpadding.sh`: twelve algorithm numbers, four RSA key sizes times
three digests, and for each number its key length in words, its digest size and its constant
PKCS#1 v1.5 padding. An `Algorithm` is an index the tables accept; code that indexes a table with
an unchecked number has to decide what happens outside.
-/

namespace ChromiumOS.Vboot

abbrev kNumAlgorithms : ℕ := 12

/-- An index inside every per-algorithm table. -/
abbrev Algorithm := Fin kNumAlgorithms

instance : NeZero kNumAlgorithms := ⟨Nat.succ_ne_zero 11⟩

def RSA1024NUMBYTES : ℕ := 128
def RSA2048NUMBYTES : ℕ := 256
def RSA4096NUMBYTES : ℕ := 512
def RSA8192NUMBYTES : ℕ := 1024

def RSA1024NUMWORDS : ℕ := RSA1024NUMBYTES / 4
def RSA2048NUMWORDS : ℕ := RSA2048NUMBYTES / 4
def RSA4096NUMWORDS : ℕ := RSA4096NUMBYTES / 4
def RSA8192NUMWORDS : ℕ := RSA8192NUMBYTES / 4

def SHA1_DIGEST_SIZE : ℕ := 20
def SHA256_DIGEST_SIZE : ℕ := 32
def SHA512_DIGEST_SIZE : ℕ := 64

/-- The digest a signature algorithm uses (`SHA1_DIGEST_ALGORITHM` and its siblings). -/
inductive DigestAlgorithm where
  | sha1
  | sha256
  | sha512
deriving DecidableEq, Repr

def DigestAlgorithm.size : DigestAlgorithm → ℕ
  | .sha1 => SHA1_DIGEST_SIZE
  | .sha256 => SHA256_DIGEST_SIZE
  | .sha512 => SHA512_DIGEST_SIZE

def SHA1_digestinfo : List UInt8 :=
  [0x30, 0x21, 0x30, 0x09, 0x06, 0x05, 0x2b, 0x0e, 0x03, 0x02, 0x1a, 0x05, 0x00, 0x04, 0x14]

def SHA256_digestinfo : List UInt8 :=
  [0x30, 0x31, 0x30, 0x0d, 0x06, 0x09, 0x60, 0x86, 0x48, 0x01, 0x65, 0x03, 0x04, 0x02, 0x01,
    0x05, 0x00, 0x04, 0x20]

def SHA512_digestinfo : List UInt8 :=
  [0x30, 0x51, 0x30, 0x0d, 0x06, 0x09, 0x60, 0x86, 0x48, 0x01, 0x65, 0x03, 0x04, 0x02, 0x03,
    0x05, 0x00, 0x04, 0x40]

/-- The array `genpadding.sh` prints: `0x00 0x01`, `nums` bytes `0xff`, `0x00`, the DigestInfo. -/
def paddingArray (nums : ℕ) (digestinfo : List UInt8) : List UInt8 :=
  [0x00, 0x01] ++ List.replicate nums 0xff ++ [0x00] ++ digestinfo

@[simp] theorem paddingArray_length (nums : ℕ) (digestinfo : List UInt8) :
    (paddingArray nums digestinfo).length = nums + digestinfo.length + 3 := by
  simp only [paddingArray, List.length_append, List.length_cons, List.length_nil,
    List.length_replicate]
  omega

def paddingRSA1024_SHA1 := paddingArray 90 SHA1_digestinfo
def paddingRSA1024_SHA256 := paddingArray 74 SHA256_digestinfo
def paddingRSA1024_SHA512 := paddingArray 42 SHA512_digestinfo
def paddingRSA2048_SHA1 := paddingArray 218 SHA1_digestinfo
def paddingRSA2048_SHA256 := paddingArray 202 SHA256_digestinfo
def paddingRSA2048_SHA512 := paddingArray 170 SHA512_digestinfo
def paddingRSA4096_SHA1 := paddingArray 474 SHA1_digestinfo
def paddingRSA4096_SHA256 := paddingArray 458 SHA256_digestinfo
def paddingRSA4096_SHA512 := paddingArray 426 SHA512_digestinfo
def paddingRSA8192_SHA1 := paddingArray 986 SHA1_digestinfo
def paddingRSA8192_SHA256 := paddingArray 970 SHA256_digestinfo
def paddingRSA8192_SHA512 := paddingArray 938 SHA512_digestinfo

/-- Key and signature length of each algorithm, in 32-bit words. -/
def siglen_map : Vector ℕ kNumAlgorithms :=
  #v[RSA1024NUMWORDS, RSA1024NUMWORDS, RSA1024NUMWORDS,
    RSA2048NUMWORDS, RSA2048NUMWORDS, RSA2048NUMWORDS,
    RSA4096NUMWORDS, RSA4096NUMWORDS, RSA4096NUMWORDS,
    RSA8192NUMWORDS, RSA8192NUMWORDS, RSA8192NUMWORDS]

def padding_map : Vector (List UInt8) kNumAlgorithms :=
  #v[paddingRSA1024_SHA1, paddingRSA1024_SHA256, paddingRSA1024_SHA512,
    paddingRSA2048_SHA1, paddingRSA2048_SHA256, paddingRSA2048_SHA512,
    paddingRSA4096_SHA1, paddingRSA4096_SHA256, paddingRSA4096_SHA512,
    paddingRSA8192_SHA1, paddingRSA8192_SHA256, paddingRSA8192_SHA512]

def padding_size_map : Vector ℕ kNumAlgorithms :=
  #v[RSA1024NUMBYTES - SHA1_DIGEST_SIZE, RSA1024NUMBYTES - SHA256_DIGEST_SIZE,
    RSA1024NUMBYTES - SHA512_DIGEST_SIZE, RSA2048NUMBYTES - SHA1_DIGEST_SIZE,
    RSA2048NUMBYTES - SHA256_DIGEST_SIZE, RSA2048NUMBYTES - SHA512_DIGEST_SIZE,
    RSA4096NUMBYTES - SHA1_DIGEST_SIZE, RSA4096NUMBYTES - SHA256_DIGEST_SIZE,
    RSA4096NUMBYTES - SHA512_DIGEST_SIZE, RSA8192NUMBYTES - SHA1_DIGEST_SIZE,
    RSA8192NUMBYTES - SHA256_DIGEST_SIZE, RSA8192NUMBYTES - SHA512_DIGEST_SIZE]

def hash_size_map : Vector ℕ kNumAlgorithms :=
  #v[SHA1_DIGEST_SIZE, SHA256_DIGEST_SIZE, SHA512_DIGEST_SIZE,
    SHA1_DIGEST_SIZE, SHA256_DIGEST_SIZE, SHA512_DIGEST_SIZE,
    SHA1_DIGEST_SIZE, SHA256_DIGEST_SIZE, SHA512_DIGEST_SIZE,
    SHA1_DIGEST_SIZE, SHA256_DIGEST_SIZE, SHA512_DIGEST_SIZE]

def hash_digestinfo_map : Vector (List UInt8) kNumAlgorithms :=
  #v[SHA1_digestinfo, SHA256_digestinfo, SHA512_digestinfo,
    SHA1_digestinfo, SHA256_digestinfo, SHA512_digestinfo,
    SHA1_digestinfo, SHA256_digestinfo, SHA512_digestinfo,
    SHA1_digestinfo, SHA256_digestinfo, SHA512_digestinfo]

/-- `digest_type_map` of `sha_utility.c`; `DigestBuf` lists its hash functions in this order too. -/
def digest_type_map : Vector DigestAlgorithm kNumAlgorithms :=
  #v[.sha1, .sha256, .sha512, .sha1, .sha256, .sha512,
    .sha1, .sha256, .sha512, .sha1, .sha256, .sha512]

/-- The tables agree: padding and digest fill the key length exactly. -/
theorem padding_size_add_hash_size (alg : Algorithm) :
    padding_size_map.get alg + hash_size_map.get alg = siglen_map.get alg * 4 := by
  revert alg
  decide

theorem hash_size_eq (alg : Algorithm) : hash_size_map.get alg = (digest_type_map.get alg).size := by
  revert alg
  decide

theorem padding_length (alg : Algorithm) : (padding_map.get alg).length = padding_size_map.get alg := by
  fin_cases alg <;> exact paddingArray_length _ _

/-- Each padding is the type-1 block: a zero byte, a one byte, filler, a zero byte, the DigestInfo. -/
theorem padding_map_eq (alg : Algorithm) :
    padding_map.get alg = paddingArray
      (siglen_map.get alg * 4 - (hash_digestinfo_map.get alg).length - hash_size_map.get alg - 3)
      (hash_digestinfo_map.get alg) := by
  fin_cases alg <;> rfl

theorem siglen_pos (alg : Algorithm) : 0 < siglen_map.get alg := by
  revert alg
  decide

theorem siglen_le (alg : Algorithm) : siglen_map.get alg ≤ 256 := by
  revert alg
  decide

end ChromiumOS.Vboot
