import ChromiumOS.Model.Vboot.Sha

/-! # The optimised compression functions

`sha2.c` with `UNROLL_LOOPS`, where the working variables stay where they are and the names they have in a
round rotate, and the branch of `sha1.c` for little-endian machines, which does the same and extends the
message schedule as it goes along.
-/

namespace ChromiumOS.Vboot

instance neZeroFive : NeZero 5 := ⟨by decide⟩

instance neZeroEight : NeZero 8 := ⟨by decide⟩

/-- The working variables that `a` to `h` are in a round. -/
structure Registers where
  a : Fin 8
  b : Fin 8
  c : Fin 8
  d : Fin 8
  e : Fin 8
  f : Fin 8
  g : Fin 8
  h : Fin 8
deriving DecidableEq

/-- `SHA256_EXP` and `SHA512_EXP`. -/
def SHA2_EXP {ω : Type} [Add ω] [OfNat ω 0] [AndOp ω] [XorOp ω] [Complement ω] (F1 F2 : ω → ω)
    (k w : Array ω) (wv : Vector ω 8) (names : Registers) (j : ℕ) : Vector ω 8 :=
  let t1 := wv[names.h] + F2 wv[names.e] + CH wv[names.e] wv[names.f] wv[names.g] + k.getD j 0 + w.getD j 0
  let t2 := F1 wv[names.a] + MAJ wv[names.a] wv[names.b] wv[names.c]
  (wv.set names.d (wv[names.d] + t1)).set names.h (t1 + t2)

/-- `PACK32` of the four bytes at an offset. -/
def PACK32 (str : List UInt8) (offset : ℕ) : UInt32 :=
  (str.getD (offset + 3) 0).toUInt32 ||| ((str.getD (offset + 2) 0).toUInt32 <<< 8) |||
    ((str.getD (offset + 1) 0).toUInt32 <<< 16) ||| ((str.getD offset 0).toUInt32 <<< 24)

/-- `PACK64` of the eight bytes at an offset. -/
def PACK64 (str : List UInt8) (offset : ℕ) : UInt64 :=
  (str.getD (offset + 7) 0).toUInt64 ||| ((str.getD (offset + 6) 0).toUInt64 <<< 8) |||
    ((str.getD (offset + 5) 0).toUInt64 <<< 16) ||| ((str.getD (offset + 4) 0).toUInt64 <<< 24) |||
    ((str.getD (offset + 3) 0).toUInt64 <<< 32) ||| ((str.getD (offset + 2) 0).toUInt64 <<< 40) |||
    ((str.getD (offset + 1) 0).toUInt64 <<< 48) ||| ((str.getD offset 0).toUInt64 <<< 56)

/-- The lines `SHA256_EXP(a,b,c,d,e,f,g,h,j)`. -/
def SHA256_EXP_lines : List (Registers × ℕ) :=
  [(⟨0, 1, 2, 3, 4, 5, 6, 7⟩, 0), (⟨7, 0, 1, 2, 3, 4, 5, 6⟩, 1),
    (⟨6, 7, 0, 1, 2, 3, 4, 5⟩, 2), (⟨5, 6, 7, 0, 1, 2, 3, 4⟩, 3),
    (⟨4, 5, 6, 7, 0, 1, 2, 3⟩, 4), (⟨3, 4, 5, 6, 7, 0, 1, 2⟩, 5),
    (⟨2, 3, 4, 5, 6, 7, 0, 1⟩, 6), (⟨1, 2, 3, 4, 5, 6, 7, 0⟩, 7),
    (⟨0, 1, 2, 3, 4, 5, 6, 7⟩, 8), (⟨7, 0, 1, 2, 3, 4, 5, 6⟩, 9),
    (⟨6, 7, 0, 1, 2, 3, 4, 5⟩, 10), (⟨5, 6, 7, 0, 1, 2, 3, 4⟩, 11),
    (⟨4, 5, 6, 7, 0, 1, 2, 3⟩, 12), (⟨3, 4, 5, 6, 7, 0, 1, 2⟩, 13),
    (⟨2, 3, 4, 5, 6, 7, 0, 1⟩, 14), (⟨1, 2, 3, 4, 5, 6, 7, 0⟩, 15),
    (⟨0, 1, 2, 3, 4, 5, 6, 7⟩, 16), (⟨7, 0, 1, 2, 3, 4, 5, 6⟩, 17),
    (⟨6, 7, 0, 1, 2, 3, 4, 5⟩, 18), (⟨5, 6, 7, 0, 1, 2, 3, 4⟩, 19),
    (⟨4, 5, 6, 7, 0, 1, 2, 3⟩, 20), (⟨3, 4, 5, 6, 7, 0, 1, 2⟩, 21),
    (⟨2, 3, 4, 5, 6, 7, 0, 1⟩, 22), (⟨1, 2, 3, 4, 5, 6, 7, 0⟩, 23),
    (⟨0, 1, 2, 3, 4, 5, 6, 7⟩, 24), (⟨7, 0, 1, 2, 3, 4, 5, 6⟩, 25),
    (⟨6, 7, 0, 1, 2, 3, 4, 5⟩, 26), (⟨5, 6, 7, 0, 1, 2, 3, 4⟩, 27),
    (⟨4, 5, 6, 7, 0, 1, 2, 3⟩, 28), (⟨3, 4, 5, 6, 7, 0, 1, 2⟩, 29),
    (⟨2, 3, 4, 5, 6, 7, 0, 1⟩, 30), (⟨1, 2, 3, 4, 5, 6, 7, 0⟩, 31),
    (⟨0, 1, 2, 3, 4, 5, 6, 7⟩, 32), (⟨7, 0, 1, 2, 3, 4, 5, 6⟩, 33),
    (⟨6, 7, 0, 1, 2, 3, 4, 5⟩, 34), (⟨5, 6, 7, 0, 1, 2, 3, 4⟩, 35),
    (⟨4, 5, 6, 7, 0, 1, 2, 3⟩, 36), (⟨3, 4, 5, 6, 7, 0, 1, 2⟩, 37),
    (⟨2, 3, 4, 5, 6, 7, 0, 1⟩, 38), (⟨1, 2, 3, 4, 5, 6, 7, 0⟩, 39),
    (⟨0, 1, 2, 3, 4, 5, 6, 7⟩, 40), (⟨7, 0, 1, 2, 3, 4, 5, 6⟩, 41),
    (⟨6, 7, 0, 1, 2, 3, 4, 5⟩, 42), (⟨5, 6, 7, 0, 1, 2, 3, 4⟩, 43),
    (⟨4, 5, 6, 7, 0, 1, 2, 3⟩, 44), (⟨3, 4, 5, 6, 7, 0, 1, 2⟩, 45),
    (⟨2, 3, 4, 5, 6, 7, 0, 1⟩, 46), (⟨1, 2, 3, 4, 5, 6, 7, 0⟩, 47),
    (⟨0, 1, 2, 3, 4, 5, 6, 7⟩, 48), (⟨7, 0, 1, 2, 3, 4, 5, 6⟩, 49),
    (⟨6, 7, 0, 1, 2, 3, 4, 5⟩, 50), (⟨5, 6, 7, 0, 1, 2, 3, 4⟩, 51),
    (⟨4, 5, 6, 7, 0, 1, 2, 3⟩, 52), (⟨3, 4, 5, 6, 7, 0, 1, 2⟩, 53),
    (⟨2, 3, 4, 5, 6, 7, 0, 1⟩, 54), (⟨1, 2, 3, 4, 5, 6, 7, 0⟩, 55),
    (⟨0, 1, 2, 3, 4, 5, 6, 7⟩, 56), (⟨7, 0, 1, 2, 3, 4, 5, 6⟩, 57),
    (⟨6, 7, 0, 1, 2, 3, 4, 5⟩, 58), (⟨5, 6, 7, 0, 1, 2, 3, 4⟩, 59),
    (⟨4, 5, 6, 7, 0, 1, 2, 3⟩, 60), (⟨3, 4, 5, 6, 7, 0, 1, 2⟩, 61),
    (⟨2, 3, 4, 5, 6, 7, 0, 1⟩, 62), (⟨1, 2, 3, 4, 5, 6, 7, 0⟩, 63)]

/-- The block loop body of `SHA256_transform` with its loops unrolled. -/
def SHA256_compress_unrolled (h : Vector UInt32 8) (sub_block : List UInt8) : Vector UInt32 8 :=
  let w := [0, 4, 8, 12, 16, 20, 24, 28, 32, 36, 40, 44, 48, 52, 56, 60].map (PACK32 sub_block)
  let w := [16, 17, 18, 19, 20, 21, 22, 23, 24, 25, 26, 27, 28, 29, 30, 31,
    32, 33, 34, 35, 36, 37, 38, 39, 40, 41, 42, 43, 44, 45, 46, 47,
    48, 49, 50, 51, 52, 53, 54, 55, 56, 57, 58, 59, 60, 61, 62, 63].foldl
    (SHA2_SCR SHA256_F3 SHA256_F4) w.toArray
  let wv := SHA256_EXP_lines.foldl
    (fun wv line => SHA2_EXP SHA256_F1 SHA256_F2 sha256_k.toArray w wv line.1 line.2) h
  h.zipWith (· + ·) wv

/-- The eight lines `SHA512_EXP(a,b,c,d,e,f,g,h,j); j++` of a turn. -/
def SHA512_EXP_lines : List Registers :=
  [⟨0, 1, 2, 3, 4, 5, 6, 7⟩,
    ⟨7, 0, 1, 2, 3, 4, 5, 6⟩,
    ⟨6, 7, 0, 1, 2, 3, 4, 5⟩,
    ⟨5, 6, 7, 0, 1, 2, 3, 4⟩,
    ⟨4, 5, 6, 7, 0, 1, 2, 3⟩,
    ⟨3, 4, 5, 6, 7, 0, 1, 2⟩,
    ⟨2, 3, 4, 5, 6, 7, 0, 1⟩,
    ⟨1, 2, 3, 4, 5, 6, 7, 0⟩]

/-- One turn of the unrolled loop, and the rounds done after it. -/
def SHA512_turn (w : Array UInt64) (wv : Vector UInt64 8) (j : ℕ) : Vector UInt64 8 × ℕ :=
  SHA512_EXP_lines.foldl
    (fun acc names => (SHA2_EXP SHA512_F1 SHA512_F2 sha512_k.toArray w acc.1 names acc.2, acc.2 + 1)) (wv, j)

/-- `do ... while (j < 80)`; ten turns are enough. -/
def SHA512_turns (w : Array UInt64) : ℕ → Vector UInt64 8 → ℕ → Vector UInt64 8
  | 0, wv, _ => wv
  | fuel + 1, wv, j =>
    let (wv, j) := SHA512_turn w wv j
    if j < 80 then SHA512_turns w fuel wv j else wv

/-- The block loop body of `SHA512_transform` with its loops unrolled. -/
def SHA512_compress_unrolled (h : Vector UInt64 8) (sub_block : List UInt8) : Vector UInt64 8 :=
  let w := [0, 8, 16, 24, 32, 40, 48, 56, 64, 72, 80, 88, 96, 104, 112, 120].map (PACK64 sub_block)
  let w := [16, 17, 18, 19, 20, 21, 22, 23, 24, 25, 26, 27, 28, 29, 30, 31,
    32, 33, 34, 35, 36, 37, 38, 39, 40, 41, 42, 43, 44, 45, 46, 47,
    48, 49, 50, 51, 52, 53, 54, 55, 56, 57, 58, 59, 60, 61, 62, 63,
    64, 65, 66, 67, 68, 69, 70, 71, 72, 73, 74, 75, 76, 77, 78, 79].foldl
    (SHA2_SCR SHA512_F3 SHA512_F4) w.toArray
  h.zipWith (· + ·) (SHA512_turns w 10 h 0)

def ror27 (val : UInt32) : UInt32 := (val >>> 27) ||| (val <<< 5)

def ror2 (val : UInt32) : UInt32 := (val >>> 2) ||| (val <<< 30)

def ror31 (val : UInt32) : UInt32 := (val >>> 31) ||| (val <<< 1)

/-- `bswap_32` of the C library: the bytes of a word in the other order. -/
def bswap_32 (x : UInt32) : UInt32 := wordOfBytes (bytesOfWord x).reverse

/-- The variables that `A` to `E` are in a step. -/
structure SHA_F_names where
  A : Fin 5
  B : Fin 5
  C : Fin 5
  D : Fin 5
  E : Fin 5
deriving DecidableEq

/-- `SHA_F1` to `SHA_F4`: how `B`, `C` and `D` are mixed, the constant, and what `W[t]` is set to. -/
def SHA_F (mix : UInt32 → UInt32 → UInt32 → UInt32) (constant : UInt32) (word : Array UInt32 → ℕ → UInt32)
    (acc : Array UInt32 × Vector UInt32 5) (names : SHA_F_names) (t : ℕ) :
    Array UInt32 × Vector UInt32 5 :=
  let (W, v) := acc
  let v' := v.set names.E (v[names.E] +
    (ror27 v[names.A] + word W t + mix v[names.B] v[names.C] v[names.D] + constant))
  (W.push (word W t), v'.set names.B (ror2 v'[names.B]))

/-- `W[t] = ror31(W[t-3] ^ W[t-8] ^ W[t-14] ^ W[t-16])`. -/
def nextWord (W : Array UInt32) (t : ℕ) : UInt32 :=
  ror31 (W.getD (t - 3) 0 ^^^ W.getD (t - 8) 0 ^^^ W.getD (t - 14) 0 ^^^ W.getD (t - 16) 0)

/-- `W[t] = bswap_32(ctx->buf.w[t])`, where `buf.w` are the words that the bytes are in memory. -/
def bufferWord (buf : List UInt8) (_W : Array UInt32) (t : ℕ) : UInt32 :=
  bswap_32 (wordOfBytes ((buf.drop (4 * t)).take 4))

/-- The macro is defined once for either way to set `W[t]`. -/
def SHA_F1 (word : Array UInt32 → ℕ → UInt32) :=
  SHA_F (fun B C D => D ^^^ (B &&& (C ^^^ D))) 0x5A827999 word

def SHA_F2 := SHA_F (fun B C D => B ^^^ C ^^^ D) 0x6ED9EBA1 nextWord

def SHA_F3 := SHA_F (fun B C D => (B &&& C) ||| (D &&& (B ||| C))) 0x8F1BBCDC nextWord

def SHA_F4 := SHA_F (fun B C D => B ^^^ C ^^^ D) 0xCA62C1D6 nextWord

/-- The five steps of a turn, with the variables that their names are. -/
def SHA_F_lines : List SHA_F_names :=
  [⟨0, 1, 2, 3, 4⟩, ⟨4, 0, 1, 2, 3⟩, ⟨3, 4, 0, 1, 2⟩, ⟨2, 3, 4, 0, 1⟩, ⟨1, 2, 3, 4, 0⟩]

/-- Some steps of a turn that starts at `t`, each with its number in the turn. -/
def SHA_F_steps (step : Array UInt32 × Vector UInt32 5 → SHA_F_names → ℕ → Array UInt32 × Vector UInt32 5)
    (lines : List (SHA_F_names × ℕ)) (acc : Array UInt32 × Vector UInt32 5) (t : ℕ) :
    Array UInt32 × Vector UInt32 5 :=
  lines.foldl (fun acc line => step acc line.1 (t + line.2)) acc

/-- `SHA1_Transform` of the little-endian branch. The loops over `t` go on where the one before stops. -/
def SHA1_Transform (state : Vector UInt32 5) (buf : List UInt8) : Vector UInt32 5 :=
  let lines := SHA_F_lines.zipIdx
  let acc := [0, 5, 10].foldl (SHA_F_steps (SHA_F1 (bufferWord buf)) lines) (#[], state)
  let acc := SHA_F_steps (SHA_F1 (bufferWord buf)) (lines.take 1) acc 15
  let acc := SHA_F_steps (SHA_F1 nextWord) (lines.drop 1) acc 15
  let acc := [20, 25, 30, 35].foldl (SHA_F_steps SHA_F2 lines) acc
  let acc := [40, 45, 50, 55].foldl (SHA_F_steps SHA_F3 lines) acc
  let acc := [60, 65, 70, 75].foldl (SHA_F_steps SHA_F4 lines) acc
  state.zipWith (· + ·) acc.2

end ChromiumOS.Vboot
