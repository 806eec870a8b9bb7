import ChromiumOS.Math.RsaPower
import ChromiumOS.Proofs.Vboot.KeyDump

/-! # Key pairs from Mersenne primes

A product of distinct Mersenne primes is a modulus whose private exponent can be written down, so a
key pair of each size can be given without searching for primes. Signing with it is a power.
-/

namespace ChromiumOS.Vboot

open Radix

/-- The modulus with these Mersenne factors. -/
def mersenneModulus (exponents : List ℕ) : ℕ := (exponents.map mersenne).prod

/-- The inverse of the public exponent modulo every `p - 1`. -/
def mersennePrivate (exponents : List ℕ) : ℕ :=
  BN_mod_inverse 65537 (exponents.map fun q => mersenne q - 1).prod

/-- Signing with the private exponent. -/
def mersenneSigner (exponents : List ℕ) (words : ℕ) : Rsautl := fun input =>
  beBytes (words * 4) (beNat (paddingArray (words * 4 - 3 - input.length) input) ^
    mersennePrivate exponents % mersenneModulus exponents)

/-- Exponents of distinct Mersenne primes that leave the public exponent invertible. -/
structure MersenneExponents (exponents : List ℕ) : Prop where
  prime : ∀ q ∈ exponents, (mersenne q).Prime
  distinct : (exponents.map mersenne).Pairwise Nat.Coprime
  large : ∀ q ∈ exponents, 2 < mersenne q
  unit : ∀ q ∈ exponents, Nat.Coprime 65537 (mersenne q - 1)

/-- A padded block starts with a zero byte, so it stays below every modulus with its top bit set. -/
theorem beNat_paddingArray_lt {words : ℕ} (positive : 0 < words) {input : List UInt8}
    (fits : input.length + 11 ≤ words * 4) :
    beNat (paddingArray (words * 4 - 3 - input.length) input) < 2 ^ (32 * words - 1) := by
  obtain ⟨rest, shape⟩ : ∃ rest, paddingArray (words * 4 - 3 - input.length) input = [0] ++ rest :=
    ⟨_, rfl⟩
  have length := paddingArray_length (words * 4 - 3 - input.length) input
  rw [shape, List.length_append, List.length_singleton] at length
  have zero : beNat [0] = 0 := rfl
  rw [shape, beNat_append, zero, zero_mul, zero_add]
  calc beNat rest < 256 ^ rest.length := beNat_lt rest
    _ = 2 ^ (8 * rest.length) := by rw [show (256 : ℕ) = 2 ^ 8 from rfl, ← pow_mul]
    _ ≤ 2 ^ (32 * words - 1) := Nat.pow_le_pow_right Nat.two_pos (by omega)

namespace MersenneExponents

variable {exponents : List ℕ} (valid : MersenneExponents exponents)
include valid

theorem private_unit {q : ℕ} (member : q ∈ exponents) :
    mersennePrivate exponents * 65537 % (mersenne q - 1) = 1 := by
  have coprime : Nat.Coprime 65537 (exponents.map fun q => mersenne q - 1).prod := by
    rw [Nat.coprime_list_prod_right_iff]
    intro factor factorMember
    obtain ⟨q, member, rfl⟩ := List.mem_map.mp factorMember
    exact valid.unit q member
  have positive : 0 < (exponents.map fun q => mersenne q - 1).prod := by
    refine List.prod_pos fun factor factorMember => ?_
    obtain ⟨q, member, rfl⟩ := List.mem_map.mp factorMember
    have := valid.large q member
    omega
  have divides : mersenne q - 1 ∣ (exponents.map fun q => mersenne q - 1).prod :=
    List.dvd_prod (List.mem_map.mpr ⟨q, member, rfl⟩)
  have inverse := (BN_mod_inverse_spec positive coprime).2.of_dvd divides
  have large := valid.large q member
  rw [mul_comm, mersennePrivate, inverse, Nat.mod_eq_of_lt (by omega)]

/-- The public power undoes the private one. -/
theorem pow_pow (base : ℕ) :
    (base ^ mersennePrivate exponents) ^ 65537 ≡ base [MOD mersenneModulus exponents] := by
  rw [← pow_mul]
  refine RsaPower.pow_modEq_self ?_ valid.distinct ?_ base
  · intro p primeMember
    obtain ⟨q, member, rfl⟩ := List.mem_map.mp primeMember
    exact valid.prime q member
  · intro p primeMember
    obtain ⟨q, member, rfl⟩ := List.mem_map.mp primeMember
    exact valid.private_unit member

/-- The signer makes PKCS#1 v1.5 signatures. -/
theorem signs {words : ℕ} (positive : 0 < words)
    (top : 2 ^ (32 * words - 1) ≤ mersenneModulus exponents)
    (bound : mersenneModulus exponents < 2 ^ (32 * words)) :
    SignsPkcs1 (mersenneSigner exponents words) (mersenneModulus exponents) words := by
  intro input fits
  refine ⟨beBytes_length _ _, ?_⟩
  obtain ⟨block, blockEq⟩ : ∃ block, block =
    beNat (paddingArray (words * 4 - 3 - input.length) input) := ⟨_, rfl⟩
  have radix : 256 ^ (words * 4) = 2 ^ (32 * words) := by
    rw [show (256 : ℕ) = 2 ^ 8 from rfl, ← pow_mul]
    congr 1
    ring
  have positiveModulus : 0 < mersenneModulus exponents :=
    lt_of_lt_of_le (by positivity) top
  have reduced : block ^ mersennePrivate exponents % mersenneModulus exponents < 256 ^ (words * 4) :=
    (Nat.mod_lt _ positiveModulus).trans (radix ▸ bound)
  have small : block < mersenneModulus exponents := by
    rw [blockEq]
    exact lt_of_lt_of_le (beNat_paddingArray_lt positive fits) top
  have congruent : (block ^ mersennePrivate exponents % mersenneModulus exponents) ^ 65537 ≡ block
      [MOD mersenneModulus exponents] :=
    ((Nat.mod_modEq _ _).pow 65537).trans (valid.pow_pow block)
  rw [mersenneSigner, ← blockEq, beNat_beBytes_of_lt reduced]
  exact Eq.trans congruent (Nat.mod_eq_of_lt small)

end MersenneExponents

/-- Exponents for a modulus of 1024 bits. -/
def exponents1024 : List ℕ := [607, 127, 107, 89, 61, 31, 2]

/-- Exponents for a modulus of 8192 bits. -/
def exponents8192 : List ℕ := [3217, 2281, 1279, 607, 521, 127, 107, 31, 19, 3]

theorem exponents1024_prime : ∀ q ∈ exponents1024, (mersenne q).Prime := by
  simp only [exponents1024, List.forall_mem_cons]
  refine ⟨?_, ?_, ?_, ?_, ?_, ?_, ?_, List.forall_mem_nil _⟩
  · exact lucas_lehmer_sufficiency _ (by simp) (by norm_num)
  · exact lucas_lehmer_sufficiency _ (by simp) (by norm_num)
  · exact lucas_lehmer_sufficiency _ (by simp) (by norm_num)
  · exact lucas_lehmer_sufficiency _ (by simp) (by norm_num)
  · exact lucas_lehmer_sufficiency _ (by simp) (by norm_num)
  · exact lucas_lehmer_sufficiency _ (by simp) (by norm_num)
  · exact Nat.prime_three

theorem exponents8192_prime : ∀ q ∈ exponents8192, (mersenne q).Prime := by
  simp only [exponents8192, List.forall_mem_cons]
  refine ⟨?_, ?_, ?_, ?_, ?_, ?_, ?_, ?_, ?_, ?_, List.forall_mem_nil _⟩
  · exact lucas_lehmer_sufficiency _ (by simp) (by norm_num)
  · exact lucas_lehmer_sufficiency _ (by simp) (by norm_num)
  · exact lucas_lehmer_sufficiency _ (by simp) (by norm_num)
  · exact lucas_lehmer_sufficiency _ (by simp) (by norm_num)
  · exact lucas_lehmer_sufficiency _ (by simp) (by norm_num)
  · exact lucas_lehmer_sufficiency _ (by simp) (by norm_num)
  · exact lucas_lehmer_sufficiency _ (by simp) (by norm_num)
  · exact lucas_lehmer_sufficiency _ (by simp) (by norm_num)
  · exact lucas_lehmer_sufficiency _ (by simp) (by norm_num)
  · exact lucas_lehmer_sufficiency _ (by simp) (by norm_num)

theorem exponents1024_valid : MersenneExponents exponents1024 where
  prime := exponents1024_prime
  distinct := by decide +kernel
  large := by decide +kernel
  unit := by decide +kernel

theorem exponents8192_valid : MersenneExponents exponents8192 where
  prime := exponents8192_prime
  distinct := by decide +kernel
  large := by decide +kernel
  unit := by decide +kernel

theorem exponents1024_modulus : IsModulusFor 0 (mersenneModulus exponents1024) where
  odd := by decide +kernel
  top := by decide +kernel
  bound := by decide +kernel

theorem exponents8192_modulus :
    IsModulusFor ROOT_SIGNATURE_ALGORITHM (mersenneModulus exponents8192) where
  odd := by decide +kernel
  top := by decide +kernel
  bound := by decide +kernel

end ChromiumOS.Vboot
