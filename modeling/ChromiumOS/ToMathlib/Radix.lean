import Mathlib

/-! # Fixed-width byte and word strings as natural numbers

Mathlib's `Nat.ofDigits` reads an arbitrary digit list. Machine formats fix the number of digits
and store them as bytes or words, in either order. The lemmas below relate the two readings,
bound them, and show that a fixed width makes each encoding injective.
-/

namespace ChromiumOS.Radix

/-- The number denoted by a byte string, least significant byte first. -/
def leNat (bytes : List UInt8) : ℕ := Nat.ofDigits 256 (bytes.map UInt8.toNat)

/-- The number denoted by a byte string, most significant byte first. -/
def beNat (bytes : List UInt8) : ℕ := leNat bytes.reverse

/-- The low `count` bytes of a number, least significant first. -/
def leBytes : ℕ → ℕ → List UInt8
  | 0, _ => []
  | count + 1, value => UInt8.ofNat value :: leBytes count (value / 256)

/-- The low `count` bytes of a number, most significant first. -/
def beBytes (count value : ℕ) : List UInt8 := (leBytes count value).reverse

@[simp] theorem leNat_nil : leNat [] = 0 := rfl

@[simp] theorem leNat_cons (byte : UInt8) (rest : List UInt8) :
    leNat (byte :: rest) = byte.toNat + 256 * leNat rest := by
  simp [leNat, Nat.ofDigits_cons]

theorem leNat_append (first second : List UInt8) :
    leNat (first ++ second) = leNat first + 256 ^ first.length * leNat second := by
  simp [leNat, Nat.ofDigits_append]

theorem leNat_lt (bytes : List UInt8) : leNat bytes < 256 ^ bytes.length := by
  have digits : ∀ digit ∈ bytes.map UInt8.toNat, digit < 256 := by
    intro digit member
    obtain ⟨byte, _, rfl⟩ := List.mem_map.mp member
    exact byte.toNat_lt
  simpa [leNat] using Nat.ofDigits_lt_base_pow_length (by decide) digits

@[simp] theorem leBytes_length (count value : ℕ) : (leBytes count value).length = count := by
  induction count generalizing value with
  | zero => rfl
  | succ count ih => simp [leBytes, ih]

@[simp] theorem beBytes_length (count value : ℕ) : (beBytes count value).length = count := by
  simp [beBytes]

/-- Reading back a truncated number keeps exactly the low bytes. -/
theorem leNat_leBytes (count value : ℕ) : leNat (leBytes count value) = value % 256 ^ count := by
  induction count generalizing value with
  | zero => simp [leBytes, Nat.mod_one]
  | succ count ih =>
    have low : (UInt8.ofNat value).toNat = value % 256 := by simp
    rw [leBytes, leNat_cons, ih, low, pow_succ, mul_comm (256 ^ count), Nat.mod_mul]

theorem leNat_leBytes_of_lt {count value : ℕ} (bound : value < 256 ^ count) :
    leNat (leBytes count value) = value := by
  rw [leNat_leBytes, Nat.mod_eq_of_lt bound]

/-- Every byte string is the encoding of the number it denotes. -/
theorem leBytes_leNat (bytes : List UInt8) : leBytes bytes.length (leNat bytes) = bytes := by
  induction bytes with
  | nil => rfl
  | cons byte rest ih =>
    have bound : byte.toNat < 256 := byte.toNat_lt
    have low : UInt8.ofNat (byte.toNat + 256 * leNat rest) = byte := by
      apply UInt8.toNat_inj.mp
      simp only [UInt8.toNat_ofNat']
      omega
    have high : (byte.toNat + 256 * leNat rest) / 256 = leNat rest := by omega
    rw [List.length_cons, leBytes, leNat_cons, low, high, ih]

theorem leNat_injective {first second : List UInt8} (sameLength : first.length = second.length)
    (sameValue : leNat first = leNat second) : first = second := by
  rw [← leBytes_leNat first, ← leBytes_leNat second, sameLength, sameValue]

theorem beNat_lt (bytes : List UInt8) : beNat bytes < 256 ^ bytes.length := by
  simpa [beNat] using leNat_lt bytes.reverse

theorem beNat_append (first second : List UInt8) :
    beNat (first ++ second) = beNat first * 256 ^ second.length + beNat second := by
  rw [beNat, List.reverse_append, leNat_append, List.length_reverse, mul_comm, add_comm]
  rfl

theorem beBytes_beNat (bytes : List UInt8) : beBytes bytes.length (beNat bytes) = bytes := by
  have encoded := leBytes_leNat bytes.reverse
  rw [List.length_reverse] at encoded
  rw [beBytes, beNat, encoded, List.reverse_reverse]

theorem beNat_beBytes_of_lt {count value : ℕ} (bound : value < 256 ^ count) :
    beNat (beBytes count value) = value := by
  rw [beNat, beBytes, List.reverse_reverse, leNat_leBytes_of_lt bound]

/-- Four bytes packed by shifts and disjunctions, as a number. -/
theorem toNat_pack (b0 b1 b2 b3 : UInt8) :
    ((b0.toUInt32 <<< 24) ||| (b1.toUInt32 <<< 16) ||| (b2.toUInt32 <<< 8) ||| b3.toUInt32).toNat =
      beNat [b0, b1, b2, b3] := by
  have h0 : b0.toNat < 2 ^ 8 := b0.toNat_lt
  have h1 : b1.toNat < 2 ^ 8 := b1.toNat_lt
  have h2 : b2.toNat < 2 ^ 8 := b2.toNat_lt
  have h3 : b3.toNat < 2 ^ 8 := b3.toNat_lt
  have shift (byte : UInt8) (amount : UInt32) (count : ℕ) (small : count ≤ 24)
      (same : amount.toNat = count) : (byte.toUInt32 <<< amount).toNat = byte.toNat <<< count := by
    have bound : byte.toNat < 2 ^ 8 := byte.toNat_lt
    have fits : byte.toNat * 2 ^ count < 2 ^ 8 * 2 ^ 24 :=
      Nat.mul_lt_mul_of_lt_of_le bound (Nat.pow_le_pow_right (by decide) small) (by positivity)
    rw [UInt32.toNat_shiftLeft, same, Nat.mod_eq_of_lt (show count < 32 by omega),
      UInt8.toNat_toUInt32, Nat.shiftLeft_eq, Nat.mod_eq_of_lt (by omega)]
  rw [UInt32.toNat_or, UInt32.toNat_or, UInt32.toNat_or, shift b0 24 24 (by decide) rfl,
    shift b1 16 16 (by decide) rfl, shift b2 8 8 (by decide) rfl, UInt8.toNat_toUInt32]
  have first : b0.toNat <<< 24 ||| b1.toNat <<< 16 = (b0.toNat <<< 8 + b1.toNat) <<< 16 := by
    rw [Nat.shiftLeft_add_eq_or_of_lt h1, Nat.shiftLeft_or_distrib, ← Nat.shiftLeft_add]
  have second : (b0.toNat <<< 8 + b1.toNat) <<< 16 ||| b2.toNat <<< 8 =
      ((b0.toNat <<< 8 + b1.toNat) <<< 8 + b2.toNat) <<< 8 := by
    rw [Nat.shiftLeft_add_eq_or_of_lt h2, Nat.shiftLeft_or_distrib, ← Nat.shiftLeft_add]
  rw [first, second, ← Nat.shiftLeft_add_eq_or_of_lt h3]
  simp only [Nat.shiftLeft_eq, beNat, List.reverse_cons, List.reverse_nil, List.nil_append,
    List.cons_append, leNat_cons, leNat_nil]
  omega

theorem and_255 (value : ℕ) : value &&& 255 = value % 256 := Nat.and_two_pow_sub_one_eq_mod value 8

/-- The four bytes of a word picked by shifts and masks. -/
theorem unpack_eq_beBytes (word : UInt32) :
    [(word >>> 24).toUInt8, ((word >>> 16) &&& 0xff).toUInt8, ((word >>> 8) &&& 0xff).toUInt8,
      (word &&& 0xff).toUInt8] = beBytes 4 word.toNat := by
  have byte (amount : UInt32) (count : ℕ) (small : count < 32) (same : amount.toNat = count) :
      ((word >>> amount) &&& 0xff).toUInt8 = UInt8.ofNat (word.toNat / 2 ^ count) := by
    apply UInt8.toNat_inj.mp
    simp [same, Nat.shiftRight_eq_div_pow, Nat.mod_eq_of_lt small, and_255]
  have top : (word >>> 24).toUInt8 = UInt8.ofNat (word.toNat / 2 ^ 24) := by
    apply UInt8.toNat_inj.mp
    simp [Nat.shiftRight_eq_div_pow]
  have low : (word &&& 0xff).toUInt8 = UInt8.ofNat word.toNat := by
    apply UInt8.toNat_inj.mp
    simp [and_255]
  rw [top, byte 16 16 (by decide) rfl, byte 8 8 (by decide) rfl, low]
  simp only [beBytes, leBytes, List.reverse_cons, List.reverse_nil, List.nil_append, List.cons_append,
    Nat.div_div_eq_div_mul]
  norm_num

/-- The number denoted by a list of 32-bit words, least significant word first. -/
def wordsNat (words : List UInt32) : ℕ := Nat.ofDigits (2 ^ 32) (words.map UInt32.toNat)

@[simp] theorem wordsNat_nil : wordsNat [] = 0 := rfl

@[simp] theorem wordsNat_cons (word : UInt32) (rest : List UInt32) :
    wordsNat (word :: rest) = word.toNat + 2 ^ 32 * wordsNat rest := by
  simp [wordsNat, Nat.ofDigits_cons]

theorem wordsNat_append (first second : List UInt32) :
    wordsNat (first ++ second) = wordsNat first + (2 ^ 32) ^ first.length * wordsNat second := by
  simp only [wordsNat, List.map_append, Nat.ofDigits_append, List.length_map]

theorem wordsNat_lt (words : List UInt32) : wordsNat words < (2 ^ 32) ^ words.length := by
  have digits : ∀ digit ∈ words.map UInt32.toNat, digit < 2 ^ 32 := by
    intro digit member
    obtain ⟨word, _, rfl⟩ := List.mem_map.mp member
    exact word.toNat_lt
  simpa [wordsNat] using Nat.ofDigits_lt_base_pow_length (by decide) digits

theorem wordsNat_replicate_zero (count : ℕ) : wordsNat (List.replicate count 0) = 0 := by
  induction count with
  | zero => rfl
  | succ count ih => simp [List.replicate_succ, ih]

end ChromiumOS.Radix
