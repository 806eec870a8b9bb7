import ChromiumOS.Model.Vboot.Words

/-! # Preprocessing a public key

`dumpRSAPublicKey.c`. A `BIGNUM` is a natural number and the output is the list of bytes written.
-/

namespace ChromiumOS.Vboot

/-- `BN_num_bits`. -/
def BN_num_bits (value : ℕ) : ℕ := if value = 0 then 0 else value.log2 + 1

/-- `BN_mod_inverse`: the inverse of a unit modulo `modulus`, reduced. -/
def BN_mod_inverse (value modulus : ℕ) : ℕ := (Nat.gcdA value modulus % modulus).toNat

/-- A word loop of `output`: `nwords` times the low word, then a shift by one word. -/
def outputWords : ℕ → ℕ → List UInt8
  | 0, _ => []
  | nwords + 1, value => bytesOfWord (UInt32.ofNat (value % 2 ^ 32)) ++ outputWords nwords (value >>> 32)

/-- The preprocessed key that is written for the modulus `N`. -/
def output (N : ℕ) : List UInt8 :=
  let nwords := BN_num_bits N / 32
  let B := 2 ^ 32
  let N0inv := B - BN_mod_inverse N B
  let R := 2 ^ BN_num_bits N
  let RR := R * R % N
  bytesOfWord (UInt32.ofNat nwords) ++ bytesOfWord (UInt32.ofNat N0inv) ++ outputWords nwords N ++
    outputWords nwords RR

end ChromiumOS.Vboot
