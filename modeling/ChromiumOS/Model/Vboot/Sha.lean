import ChromiumOS.Model.Vboot.Padding
import ChromiumOS.Model.Vboot.Words

/-! # SHA-1, SHA-256 and SHA-512

`sha1.c` (the portable branch, which is the one the build selects) and `sha2.c` (the loops that are
not unrolled). The two SHA-2 functions are the same text with different word size, block size and
constants, so they share one definition.

A pointer argument is the list of bytes readable from it on. `none` is a run outside defined
behaviour: a byte read past that list, the negative `len` that makes `SHA1_update` count below zero,
or a block offset `i << 6` that leaves the range of `int`. The buffer that `SHA1_init` and its siblings leave
uninitialised starts as zeros; no result depends on them.
-/

namespace ChromiumOS.Vboot

/-- The `count` bytes at `offset`, when all of them can be read. -/
def readAt (data : List UInt8) (offset count : ℕ) : Option (List UInt8) :=
  if offset + count ≤ data.length then some ((data.drop offset).take count) else none

/-- `memcpy(&dst[offset], src, ...)`. -/
def memcpyAt (dst : List UInt8) (offset : ℕ) (src : List UInt8) : List UInt8 :=
  dst.take offset ++ src ++ dst.drop (offset + src.length)

def SHA1_BLOCK_SIZE : ℕ := 64

structure SHA1_CTX where
  count : UInt64
  state : Vector UInt32 5
  buf : List UInt8
deriving DecidableEq, Repr

def rol (bits value : UInt32) : UInt32 := (value <<< bits) ||| (value >>> (32 - bits))

/-- `W[t]` of the message schedule, from the sixteenth word on. -/
def SHA1_schedule (W : Array UInt32) (t : ℕ) : Array UInt32 :=
  W.push (rol 1 (W.getD (t - 3) 0 ^^^ W.getD (t - 8) 0 ^^^ W.getD (t - 14) 0 ^^^ W.getD (t - 16) 0))

/-- One turn of the round loop on `A, B, C, D, E`. -/
def SHA1_round (W : Array UInt32) (v : Vector UInt32 5) (t : ℕ) : Vector UInt32 5 :=
  let A := v[0]
  let B := v[1]
  let C := v[2]
  let D := v[3]
  let E := v[4]
  let tmp := rol 5 A + E + W.getD t 0
  let tmp := tmp +
    if t < 20 then (D ^^^ (B &&& (C ^^^ D))) + 0x5A827999
    else if t < 40 then (B ^^^ C ^^^ D) + 0x6ED9EBA1
    else if t < 60 then ((B &&& C) ||| (D &&& (B ||| C))) + 0x8F1BBCDC
    else (B ^^^ C ^^^ D) + 0xCA62C1D6
  #v[tmp, A, rol 30 B, C, D]

/-- Fold one 64-byte buffer into the chaining state. -/
def SHA1_transform (state : Vector UInt32 5) (buf : List UInt8) : Vector UInt32 5 :=
  let W := (List.range' 16 64).foldl SHA1_schedule (packWords buf).toArray
  state.zipWith (· + ·) ((List.range 80).foldl (SHA1_round W) state)

def SHA1_h0 : Vector UInt32 5 := #v[0x67452301, 0xEFCDAB89, 0x98BADCFE, 0x10325476, 0xC3D2E1F0]

def SHA1_init : SHA1_CTX where
  count := 0
  state := SHA1_h0
  buf := List.replicate SHA1_BLOCK_SIZE 0

/-- The body of the `SHA1_update` loop; the index `i` is carried along with the context. -/
def SHA1_updateByte (acc : SHA1_CTX × ℕ) (byte : UInt8) : SHA1_CTX × ℕ :=
  let (ctx, i) := acc
  let ctx := { ctx with buf := ctx.buf.set i byte }
  if i + 1 = SHA1_BLOCK_SIZE then ({ ctx with state := SHA1_transform ctx.state ctx.buf }, 0)
  else (ctx, i + 1)

/-- `SHA1_update` on bytes that are known to be readable. -/
def SHA1_updateBytes (ctx : SHA1_CTX) (bytes : List UInt8) : SHA1_CTX :=
  let i := ctx.count.toNat % SHA1_BLOCK_SIZE
  let ctx := { ctx with count := ctx.count + UInt64.ofNat bytes.length }
  (bytes.foldl SHA1_updateByte (ctx, i)).1

def SHA1_update (ctx : SHA1_CTX) (data : List UInt8) (len : ℤ) : Option SHA1_CTX :=
  if len < 0 then none
  else (readAt data 0 len.toNat).map (SHA1_updateBytes ctx)

/-- The zero bytes of the padding; at most a block of them is missing, which bounds the loop. -/
def SHA1_padZeros : ℕ → SHA1_CTX → SHA1_CTX
  | 0, ctx => ctx
  | turns + 1, ctx =>
      if ctx.count.toNat % SHA1_BLOCK_SIZE ≠ SHA1_BLOCK_SIZE - 8 then
        SHA1_padZeros turns (SHA1_updateBytes ctx [0])
      else ctx

/-- The byte `cnt >> ((7 - i) * 8)` of the length field. -/
def SHA1_lengthByte (cnt : UInt64) (i : ℕ) : UInt8 := (cnt >>> UInt64.ofNat ((7 - i) * 8)).toUInt8

def SHA1_final (ctx : SHA1_CTX) : List UInt8 :=
  let cnt := ctx.count * 8
  let ctx := SHA1_updateBytes ctx [0x80]
  let ctx := SHA1_padZeros SHA1_BLOCK_SIZE ctx
  let ctx := (List.range 8).foldl (fun ctx i => SHA1_updateBytes ctx [SHA1_lengthByte cnt i]) ctx
  ctx.state.toList.flatMap unpackWord

def SHA1 (data : List UInt8) (len : ℤ) : Option (List UInt8) :=
  (SHA1_update SHA1_init data len).map SHA1_final

/-- What `SHA256_*` and `SHA512_*` differ in. Blocks have `blockSize = 1 <<< shift` bytes, and the
padding needs `tail` bytes at the end of the last block. -/
structure Sha2 (σ : Type) where
  blockSize : UInt32
  shift : UInt32
  tail : UInt32
  h0 : σ
  compress : σ → List UInt8 → σ
  unpack : σ → List UInt8

/-- `SHA256_CTX` and `SHA512_CTX`: the chaining value, the bytes folded in, the bytes pending. -/
structure Sha2Ctx (σ : Type) where
  h : σ
  tot_len : UInt32
  len : UInt32
  block : List UInt8
deriving DecidableEq, Repr

namespace Sha2

variable {σ : Type} (alg : Sha2 σ)

/-- One block of `message`, at an offset that has to stay an `int`. -/
def blockAt (message : List UInt8) (i : ℕ) : Option (List UInt8) :=
  let offset := i <<< alg.shift.toNat
  if offset < 2 ^ 31 then readAt message offset alg.blockSize.toNat else none

def transform (h : σ) (message : List UInt8) (block_nb : ℕ) : Option σ :=
  (List.range block_nb).foldlM (fun h i => (alg.blockAt message i).map (alg.compress h)) h

def init : Sha2Ctx σ where
  h := alg.h0
  tot_len := 0
  len := 0
  block := List.replicate (2 * alg.blockSize.toNat) 0

/-- The parameter `len` is an `int` that every use converts to `unsigned int`. -/
def update (ctx : Sha2Ctx σ) (data : List UInt8) (len : UInt32) : Option (Sha2Ctx σ) := do
  let tmp_len := alg.blockSize - ctx.len
  let rem_len := if len < tmp_len then len else tmp_len
  let first ← readAt data 0 rem_len.toNat
  let block := memcpyAt ctx.block ctx.len.toNat first
  if ctx.len + len < alg.blockSize then
    some { ctx with len := ctx.len + len, block := block }
  else
    let new_len := len - rem_len
    let block_nb := new_len / alg.blockSize
    let shifted_data := data.drop rem_len.toNat
    let h ← alg.transform ctx.h block 1
    let h ← alg.transform h shifted_data block_nb.toNat
    let rem_len := new_len % alg.blockSize
    let rest ← readAt shifted_data (block_nb <<< alg.shift).toNat rem_len.toNat
    some { h := h
           tot_len := ctx.tot_len + ((block_nb + 1) <<< alg.shift)
           len := rem_len
           block := memcpyAt block 0 rest }

def final (ctx : Sha2Ctx σ) : Option (List UInt8) := do
  let block_nb : UInt32 := 1 + if alg.blockSize - alg.tail < ctx.len % alg.blockSize then 1 else 0
  let len_b := (ctx.tot_len + ctx.len) <<< 3
  let pm_len := block_nb <<< alg.shift
  let block := memcpyAt ctx.block ctx.len.toNat (List.replicate (pm_len - ctx.len).toNat 0)
  let block := block.set ctx.len.toNat 0x80
  let block := memcpyAt block (pm_len - 4).toNat (unpackWord len_b)
  let h ← alg.transform ctx.h block block_nb.toNat
  some (alg.unpack h)

def hash (data : List UInt8) (len : UInt32) : Option (List UInt8) := do
  alg.final (← alg.update alg.init data len)

end Sha2

/-- `ROTR` on 32-bit words. -/
def ROTR32 (x n : UInt32) : UInt32 := (x >>> n) ||| (x <<< (32 - n))

/-- `ROTR` on 64-bit words. -/
def ROTR64 (x n : UInt64) : UInt64 := (x >>> n) ||| (x <<< (64 - n))

def CH {ω : Type} [AndOp ω] [XorOp ω] [Complement ω] (x y z : ω) : ω := (x &&& y) ^^^ (~~~x &&& z)

def MAJ {ω : Type} [AndOp ω] [XorOp ω] (x y z : ω) : ω := (x &&& y) ^^^ (x &&& z) ^^^ (y &&& z)

/-- A message schedule step with the two functions that differ between the word sizes. -/
def SHA2_SCR {ω : Type} [Add ω] [OfNat ω 0] (F3 F4 : ω → ω) (w : Array ω) (i : ℕ) : Array ω :=
  w.push (F4 (w.getD (i - 2) 0) + w.getD (i - 7) 0 + F3 (w.getD (i - 15) 0) + w.getD (i - 16) 0)

/-- One turn of the round loop. -/
def SHA2_round {ω : Type} [Add ω] [OfNat ω 0] [AndOp ω] [XorOp ω] [Complement ω] (F1 F2 : ω → ω)
    (k w : Array ω) (wv : Vector ω 8) (j : ℕ) : Vector ω 8 :=
  let t1 := wv[7] + F2 wv[4] + CH wv[4] wv[5] wv[6] + k.getD j 0 + w.getD j 0
  let t2 := F1 wv[0] + MAJ wv[0] wv[1] wv[2]
  #v[t1 + t2, wv[0], wv[1], wv[2], wv[3] + t1, wv[4], wv[5], wv[6]]

def SHA256_F1 (x : UInt32) : UInt32 := ROTR32 x 2 ^^^ ROTR32 x 13 ^^^ ROTR32 x 22
def SHA256_F2 (x : UInt32) : UInt32 := ROTR32 x 6 ^^^ ROTR32 x 11 ^^^ ROTR32 x 25
def SHA256_F3 (x : UInt32) : UInt32 := ROTR32 x 7 ^^^ ROTR32 x 18 ^^^ (x >>> 3)
def SHA256_F4 (x : UInt32) : UInt32 := ROTR32 x 17 ^^^ ROTR32 x 19 ^^^ (x >>> 10)

def SHA512_F1 (x : UInt64) : UInt64 := ROTR64 x 28 ^^^ ROTR64 x 34 ^^^ ROTR64 x 39
def SHA512_F2 (x : UInt64) : UInt64 := ROTR64 x 14 ^^^ ROTR64 x 18 ^^^ ROTR64 x 41
def SHA512_F3 (x : UInt64) : UInt64 := ROTR64 x 1 ^^^ ROTR64 x 8 ^^^ (x >>> 7)
def SHA512_F4 (x : UInt64) : UInt64 := ROTR64 x 19 ^^^ ROTR64 x 61 ^^^ (x >>> 6)

def sha256_h0 : Vector UInt32 8 :=
  #v[0x6a09e667, 0xbb67ae85, 0x3c6ef372, 0xa54ff53a,
    0x510e527f, 0x9b05688c, 0x1f83d9ab, 0x5be0cd19]

def sha512_h0 : Vector UInt64 8 :=
  #v[0x6a09e667f3bcc908, 0xbb67ae8584caa73b, 0x3c6ef372fe94f82b, 0xa54ff53a5f1d36f1,
    0x510e527fade682d1, 0x9b05688c2b3e6c1f, 0x1f83d9abfb41bd6b, 0x5be0cd19137e2179]

def sha256_k : Vector UInt32 64 :=
  #v[0x428a2f98, 0x71374491, 0xb5c0fbcf, 0xe9b5dba5, 0x3956c25b, 0x59f111f1,
    0x923f82a4, 0xab1c5ed5, 0xd807aa98, 0x12835b01, 0x243185be, 0x550c7dc3,
    0x72be5d74, 0x80deb1fe, 0x9bdc06a7, 0xc19bf174, 0xe49b69c1, 0xefbe4786,
    0x0fc19dc6, 0x240ca1cc, 0x2de92c6f, 0x4a7484aa, 0x5cb0a9dc, 0x76f988da,
    0x983e5152, 0xa831c66d, 0xb00327c8, 0xbf597fc7, 0xc6e00bf3, 0xd5a79147,
    0x06ca6351, 0x14292967, 0x27b70a85, 0x2e1b2138, 0x4d2c6dfc, 0x53380d13,
    0x650a7354, 0x766a0abb, 0x81c2c92e, 0x92722c85, 0xa2bfe8a1, 0xa81a664b,
    0xc24b8b70, 0xc76c51a3, 0xd192e819, 0xd6990624, 0xf40e3585, 0x106aa070,
    0x19a4c116, 0x1e376c08, 0x2748774c, 0x34b0bcb5, 0x391c0cb3, 0x4ed8aa4a,
    0x5b9cca4f, 0x682e6ff3, 0x748f82ee, 0x78a5636f, 0x84c87814, 0x8cc70208,
    0x90befffa, 0xa4506ceb, 0xbef9a3f7, 0xc67178f2]

def sha512_k : Vector UInt64 80 :=
  #v[0x428a2f98d728ae22, 0x7137449123ef65cd, 0xb5c0fbcfec4d3b2f, 0xe9b5dba58189dbbc,
    0x3956c25bf348b538, 0x59f111f1b605d019, 0x923f82a4af194f9b, 0xab1c5ed5da6d8118,
    0xd807aa98a3030242, 0x12835b0145706fbe, 0x243185be4ee4b28c, 0x550c7dc3d5ffb4e2,
    0x72be5d74f27b896f, 0x80deb1fe3b1696b1, 0x9bdc06a725c71235, 0xc19bf174cf692694,
    0xe49b69c19ef14ad2, 0xefbe4786384f25e3, 0x0fc19dc68b8cd5b5, 0x240ca1cc77ac9c65,
    0x2de92c6f592b0275, 0x4a7484aa6ea6e483, 0x5cb0a9dcbd41fbd4, 0x76f988da831153b5,
    0x983e5152ee66dfab, 0xa831c66d2db43210, 0xb00327c898fb213f, 0xbf597fc7beef0ee4,
    0xc6e00bf33da88fc2, 0xd5a79147930aa725, 0x06ca6351e003826f, 0x142929670a0e6e70,
    0x27b70a8546d22ffc, 0x2e1b21385c26c926, 0x4d2c6dfc5ac42aed, 0x53380d139d95b3df,
    0x650a73548baf63de, 0x766a0abb3c77b2a8, 0x81c2c92e47edaee6, 0x92722c851482353b,
    0xa2bfe8a14cf10364, 0xa81a664bbc423001, 0xc24b8b70d0f89791, 0xc76c51a30654be30,
    0xd192e819d6ef5218, 0xd69906245565a910, 0xf40e35855771202a, 0x106aa07032bbd1b8,
    0x19a4c116b8d2d0c8, 0x1e376c085141ab53, 0x2748774cdf8eeb99, 0x34b0bcb5e19b48a8,
    0x391c0cb3c5c95a63, 0x4ed8aa4ae3418acb, 0x5b9cca4f7763e373, 0x682e6ff3d6b2b8a3,
    0x748f82ee5defb2fc, 0x78a5636f43172f60, 0x84c87814a1f0ab72, 0x8cc702081a6439ec,
    0x90befffa23631e28, 0xa4506cebde82bde9, 0xbef9a3f7b2c67915, 0xc67178f2e372532b,
    0xca273eceea26619c, 0xd186b8c721c0c207, 0xeada7dd6cde0eb1e, 0xf57d4f7fee6ed178,
    0x06f067aa72176fba, 0x0a637dc5a2c898a6, 0x113f9804bef90dae, 0x1b710b35131c471b,
    0x28db77f523047d84, 0x32caab7b40c72493, 0x3c9ebe0a15c9bebc, 0x431d67c49c100d4c,
    0x4cc5d4becb3e42b6, 0x597f299cfc657e2a, 0x5fcb6fab3ad6faec, 0x6c44198c4a475817]

/-- The block loop body of `SHA256_transform`. -/
def SHA256_compress (h : Vector UInt32 8) (sub_block : List UInt8) : Vector UInt32 8 :=
  let w := (List.range' 16 48).foldl (SHA2_SCR SHA256_F3 SHA256_F4) (packWords sub_block).toArray
  h.zipWith (· + ·) ((List.range 64).foldl (SHA2_round SHA256_F1 SHA256_F2 sha256_k.toArray w) h)

/-- The block loop body of `SHA512_transform`. -/
def SHA512_compress (h : Vector UInt64 8) (sub_block : List UInt8) : Vector UInt64 8 :=
  let w := (List.range' 16 64).foldl (SHA2_SCR SHA512_F3 SHA512_F4) (packWords64 sub_block).toArray
  h.zipWith (· + ·) ((List.range 80).foldl (SHA2_round SHA512_F1 SHA512_F2 sha512_k.toArray w) h)

def sha256 : Sha2 (Vector UInt32 8) where
  blockSize := 64
  shift := 6
  tail := 9
  h0 := sha256_h0
  compress := SHA256_compress
  unpack h := h.toList.flatMap unpackWord

def sha512 : Sha2 (Vector UInt64 8) where
  blockSize := 128
  shift := 7
  tail := 17
  h0 := sha512_h0
  compress := SHA512_compress
  unpack h := h.toList.flatMap unpackWord64

abbrev SHA256_CTX := Sha2Ctx (Vector UInt32 8)

def SHA256_init : SHA256_CTX := sha256.init

def SHA256_update (ctx : SHA256_CTX) (data : List UInt8) (len : ℤ) : Option SHA256_CTX :=
  sha256.update ctx data (unsignedOfInt len)

def SHA256_final (ctx : SHA256_CTX) : Option (List UInt8) := sha256.final ctx

def SHA256 (data : List UInt8) (len : ℤ) : Option (List UInt8) :=
  sha256.hash data (unsignedOfInt len)

abbrev SHA512_CTX := Sha2Ctx (Vector UInt64 8)

def SHA512_init : SHA512_CTX := sha512.init

def SHA512_update (ctx : SHA512_CTX) (data : List UInt8) (len : ℤ) : Option SHA512_CTX :=
  sha512.update ctx data (unsignedOfInt len)

def SHA512_final (ctx : SHA512_CTX) : Option (List UInt8) := sha512.final ctx

def SHA512 (data : List UInt8) (len : ℤ) : Option (List UInt8) :=
  sha512.hash data (unsignedOfInt len)

end ChromiumOS.Vboot
