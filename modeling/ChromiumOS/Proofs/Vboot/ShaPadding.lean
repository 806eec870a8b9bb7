import ChromiumOS.Proofs.Vboot.DigestStream
import ChromiumOS.Proofs.Vboot.RsaVerify

/-! # The padding of the SHA-2 functions

FIPS 180-2 closes a message with a mark, the fewest zeros that complete a block, and the length in bits
as a field of 64 or 128 bits. `SHA256_final` and `SHA512_final` write the low 32 bits of the length only,
so they follow the standard for messages of less than `2 ^ 29` bytes, and for no other ones.
-/

namespace ChromiumOS.Vboot

open BlockStream Radix

/-- The zero bytes of the padding that the standard asks for. -/
def fipsZeros (size field length : ℕ) : ℕ := (size - (length + 1 + field) % size) % size

/-- The padding that the standard asks for. -/
def fipsPadding (size field length : ℕ) : List UInt8 :=
  0x80 :: List.replicate (fipsZeros size field length) 0 ++ beBytes field (8 * length)

def fipsPadded (size field : ℕ) (message : List UInt8) : List UInt8 :=
  message ++ fipsPadding size field message.length

/-- No fewer zeros complete a block. -/
theorem fipsZeros_isLeast {size : ℕ} (positive : 0 < size) (field length : ℕ) :
    IsLeast {zeros | size ∣ length + 1 + zeros + field} (fipsZeros size field length) := by
  have below := Nat.mod_lt (length + 1 + field) positive
  have division := Nat.div_add_mod (length + 1 + field) size
  constructor
  · change size ∣ length + 1 + fipsZeros size field length + field
    rw [fipsZeros]
    by_cases full : (length + 1 + field) % size = 0
    · rw [full, Nat.sub_zero, Nat.mod_self]
      exact Nat.dvd_of_mod_eq_zero full
    · rw [Nat.mod_eq_of_lt (by omega : size - (length + 1 + field) % size < size)]
      refine ⟨(length + 1 + field) / size + 1, ?_⟩
      rw [Nat.mul_add, mul_one]
      omega
  · intro zeros complete
    have complete : (length + 1 + field + zeros) % size = 0 := by
      rw [show length + 1 + field + zeros = length + 1 + zeros + field by omega]
      exact Nat.mod_eq_zero_of_dvd complete
    rw [fipsZeros]
    by_cases full : (length + 1 + field) % size = 0
    · rw [full, Nat.sub_zero, Nat.mod_self]
      exact Nat.zero_le zeros
    · rw [Nat.mod_eq_of_lt (by omega : size - (length + 1 + field) % size < size)]
      by_contra fewer
      rw [Nat.add_mod, Nat.mod_eq_of_lt (by omega : zeros < size),
        Nat.mod_eq_of_lt (by omega)] at complete
      omega

/-- Leading zero bytes of a number. -/
theorem beBytes_of_small (high : ℕ) {low value : ℕ} (small : value < 256 ^ low) :
    beBytes (high + low) value = List.replicate high 0 ++ beBytes low value := by
  have zeros : beNat (List.replicate high 0) = 0 := by
    rw [beNat, List.reverse_replicate]
    induction high with
    | zero => rfl
    | succ high ih => rw [List.replicate_succ, leNat_cons, ih]; rfl
  have encoded := beBytes_beNat (List.replicate high 0 ++ beBytes low value)
  rwa [beNat_append, zeros, zero_mul, zero_add, beNat_beBytes_of_lt small, List.length_append,
    List.length_replicate, beBytes_length] at encoded

namespace Sha2

variable {σ : Type} (alg : Sha2 σ)

/-- The algorithm that puts the blocks it is fed together instead of hashing them. -/
def recording : Sha2 (List (List UInt8)) where
  blockSize := alg.blockSize
  shift := alg.shift
  tail := alg.tail
  h0 := []
  compress blocks block := blocks ++ [block]
  unpack := List.flatten

/-- The blocks folded in are those of the padded message, and the digest is that of the standard. -/
def FollowsStandard (field : ℕ) (message : List UInt8) : Prop :=
  alg.recording.hash message (unsignedOfInt message.length) =
      some (fipsPadded alg.blockSize.toNat field message) ∧
    alg.hash message (unsignedOfInt message.length) =
      some (alg.unpack (absorb alg.blockSize.toNat alg.compress alg.h0
        (fipsPadded alg.blockSize.toNat field message)))

variable {alg}

theorem hash_eq (proper : alg.Proper) {message : List UInt8} (bound : message.length < 2 ^ 31) :
    alg.hash message (unsignedOfInt message.length) = some (alg.digest message) := by
  have unsigned : (unsignedOfInt message.length).toNat = message.length :=
    unsignedOfInt_toNat (Int.natCast_nonneg message.length) (by omega)
  obtain ⟨next, count, rest, updated, represents⟩ := update_represents message
    (unsignedOfInt message.length) proper (init_represents proper) (by omega) (by omega)
  rw [unsigned, List.take_length, List.nil_append] at represents
  rw [hash, updated, Option.bind_eq_bind, Option.bind_some, final_eq proper represents]

theorem recorded_blocks (size : ℕ) (message : List UInt8) (count : ℕ) :
    (absorbBlocks size (fun blocks block => blocks ++ [block]) [] message count).flatten =
      message.take (count * size) := by
  induction count with
  | zero => simp [absorbBlocks]
  | succ count ih =>
    rw [absorbBlocks_succ, List.flatten_append, ih, Nat.succ_mul, List.take_add, blockOf]
    simp

theorem padded_length (proper : alg.Proper) (message : List UInt8) :
    ∃ count, (message ++ alg.padding message.length).length = count * alg.blockSize.toNat := by
  refine ⟨message.length / alg.blockSize.toNat + alg.lastBlocks message.length, ?_⟩
  rw [List.length_append, add_mul, ← padding_length proper message.length]
  have division := Nat.div_add_mod' message.length alg.blockSize.toNat
  omega

/-- What the algorithm is fed is the message and the padding. -/
theorem recording_hash_eq (proper : alg.Proper) {message : List UInt8}
    (bound : message.length < 2 ^ 31) :
    alg.recording.hash message (unsignedOfInt message.length) =
      some (message ++ alg.padding message.length) := by
  have recorded : alg.recording.Proper :=
    ⟨proper.shift_bounds, proper.blockSize_eq, proper.tail_bounds⟩
  obtain ⟨count, length⟩ := padded_length proper message
  rw [hash_eq recorded bound]
  change some (absorb alg.blockSize.toNat (fun blocks block => blocks ++ [block]) []
    (message ++ alg.padding message.length)).flatten = _
  rw [absorb_of_length _ _ proper.blockSize_pos length, recorded_blocks, ← length, List.take_length]

/-- The zeros before the low 32 bits of the length are those of the standard and the rest of its field. -/
theorem zeros_eq (proper : alg.Proper) {field : ℕ} (tail : alg.tail.toNat = field + 1)
    (wide : 4 ≤ field) (length : ℕ) :
    alg.lastBlocks length * alg.blockSize.toNat - length % alg.blockSize.toNat - 5 =
      fipsZeros alg.blockSize.toNat field length + (field - 4) := by
  have room : field + 1 ≤ alg.blockSize.toNat := tail ▸ proper.tail_bounds.2
  have below := Nat.mod_lt length proper.blockSize_pos
  have reduced : (length + 1 + field) % alg.blockSize.toNat =
      (length % alg.blockSize.toNat + (1 + field)) % alg.blockSize.toNat := by
    rw [add_assoc, Nat.mod_add_mod]
  rw [lastBlocks, fipsZeros, reduced, tail]
  generalize length % alg.blockSize.toNat = rest at below
  generalize alg.blockSize.toNat = size at room below
  split
  · next crowded =>
    have wrapped : (rest + (1 + field)) % size = rest + (1 + field) - size := by
      rw [Nat.mod_eq_sub_mod (by omega), Nat.mod_eq_of_lt (by omega)]
    rw [wrapped, Nat.mod_eq_of_lt (by omega)]
    omega
  · next roomy =>
    by_cases full : rest + (1 + field) = size
    · rw [full, Nat.mod_self, Nat.sub_zero, Nat.mod_self]
      omega
    · rw [Nat.mod_eq_of_lt (by omega : rest + (1 + field) < size), Nat.mod_eq_of_lt (by omega)]
      omega

/-- The padding as it is written: the field of the standard with the low 32 bits of the length in it. -/
theorem padding_eq (proper : alg.Proper) {field : ℕ} (tail : alg.tail.toNat = field + 1)
    (wide : 4 ≤ field) (length : ℕ) :
    alg.padding length = 0x80 :: List.replicate (fipsZeros alg.blockSize.toNat field length) 0 ++
      beBytes field (8 * length % 2 ^ 32) := by
  have small : 8 * length % 2 ^ 32 < 256 ^ 4 := Nat.mod_lt _ (by decide)
  have word : unpackWord (UInt32.ofNat (length * 8)) = beBytes 4 (8 * length % 2 ^ 32) := by
    rw [unpackWord_eq, UInt32.toNat_ofNat', mul_comm]
  have spread := beBytes_of_small (field - 4) small
  rw [Nat.sub_add_cancel wide] at spread
  rw [padding, zeros_eq proper tail wide, word, spread, List.replicate_add]
  simp only [List.cons_append, List.append_assoc]

theorem padding_eq_fips_iff (proper : alg.Proper) {field : ℕ} (tail : alg.tail.toNat = field + 1)
    (wide : 8 ≤ field) {length : ℕ} (bound : length < 2 ^ 31) :
    alg.padding length = fipsPadding alg.blockSize.toNat field length ↔ length < 2 ^ 29 := by
  have fits : ∀ value, value < 2 ^ 34 → value < 256 ^ field := by
    intro value below
    have powers : (256 : ℕ) ^ 8 ≤ 256 ^ field := Nat.pow_le_pow_right (by decide) wide
    omega
  rw [padding_eq proper tail (by omega), fipsPadding]
  constructor
  · intro same
    have fields := congrArg beNat (List.append_cancel_left same)
    rw [beNat_beBytes_of_lt (fits _ (by omega)), beNat_beBytes_of_lt (fits _ (by omega))] at fields
    omega
  · intro short
    rw [Nat.mod_eq_of_lt (by omega)]

theorem followsStandard_iff (proper : alg.Proper) {field : ℕ} (tail : alg.tail.toNat = field + 1)
    (wide : 8 ≤ field) {message : List UInt8} (bound : message.length < 2 ^ 31) :
    alg.FollowsStandard field message ↔ message.length < 2 ^ 29 := by
  rw [FollowsStandard, recording_hash_eq proper bound, hash_eq proper bound, fipsPadded,
    ← padding_eq_fips_iff proper tail wide bound]
  constructor
  · rintro ⟨blocks, -⟩
    exact List.append_cancel_left (Option.some.inj blocks)
  · intro same
    rw [digest, same]
    exact ⟨rfl, rfl⟩

end Sha2

/-- Both functions follow the standard exactly for the messages whose length in bits has 32 bits. -/
theorem sha2_follows_standard_iff (message : List UInt8) (bound : message.length < 2 ^ 31) :
    (sha256.FollowsStandard 8 message ↔ message.length < 2 ^ 29) ∧
      (sha512.FollowsStandard 16 message ↔ message.length < 2 ^ 29) :=
  ⟨Sha2.followsStandard_iff sha256_proper (by decide) (by decide) bound,
    Sha2.followsStandard_iff sha512_proper (by decide) (by decide) bound⟩

/-- Three bytes. -/
theorem sha2_follows_standard_abc :
    ([0x61, 0x62, 0x63] : List UInt8).length < 2 ^ 31 ∧
      (sha256.FollowsStandard 8 [0x61, 0x62, 0x63] ↔ 3 < 2 ^ 29) ∧
      (sha512.FollowsStandard 16 [0x61, 0x62, 0x63] ↔ 3 < 2 ^ 29) :=
  ⟨by decide, sha2_follows_standard_iff [0x61, 0x62, 0x63] (by decide)⟩

/-- The length of a message of `2 ^ 29` zero bytes is written as zero. -/
theorem long_message_departs :
    ¬ ∀ message : List UInt8, message.length < 2 ^ 31 →
      sha256.FollowsStandard 8 message ∧ sha512.FollowsStandard 16 message := by
  intro follows
  have length : (List.replicate (2 ^ 29) (0 : UInt8)).length = 2 ^ 29 := List.length_replicate
  have first := (follows (List.replicate (2 ^ 29) 0) (by rw [length]; decide)).1
  have short := (Sha2.followsStandard_iff sha256_proper (by decide) (by decide)
    (by rw [length]; decide)).mp first
  rw [length] at short
  exact absurd short (lt_irrefl _)

end ChromiumOS.Vboot
