import ChromiumOS.Model.Vboot.Padding
import ChromiumOS.Model.Vboot.Words

/-! # RSA signature verification on a preprocessed key

`rsa.c` computes the public exponentiation with word-serial Montgomery multiplication. Words and
accumulators keep their machine widths, so every truncation of the source is a truncation here.
An array argument is the list of its words, lowest index first; a loop over `key->len` words walks
that list. `subM` is the only signed accumulator: it stays within `[-2^32, 2^32)` and is an integer.
-/

namespace ChromiumOS.Vboot

/-- `len` counts the words of `n`; `n0inv` is `-1 / n[0] mod 2^32`; `rr` is `R^2`. -/
structure RSAPublicKey where
  len : ℤ
  n0inv : UInt32
  n : List UInt32
  rr : List UInt32
deriving DecidableEq, Repr

/-- The loop of `subM`, `A` being the borrow carried in from the lower words. -/
def subWords : ℤ → List UInt32 → List UInt32 → List UInt32
  | _, [], _ => []
  | _, a, [] => a
  | A, a :: as, n :: ns =>
      let A := A + (a.toNat - n.toNat)
      UInt32.ofNat (A % 2 ^ 32).toNat :: subWords (A >>> (32 : ℕ)) as ns

/-- `a[] -= mod`. -/
def subM (key : RSAPublicKey) (a : List UInt32) : List UInt32 := subWords 0 a key.n

/-- The loop of `geM`, on words listed from the most significant one down. -/
def geWords : List UInt32 → List UInt32 → Bool
  | a :: as, n :: ns => if a < n then false else if n < a then true else geWords as ns
  | _, _ => true

/-- `return a[] >= mod`. -/
def geM (key : RSAPublicKey) (a : List UInt32) : Bool := geWords a.reverse key.n.reverse

/-- The loop of `montMulAdd` from word 1 on. Word `i` of `c` is read before `c[i - 1]` is written,
so the words still to be read are the old ones. Returns the words written and the accumulators. -/
def montMulAddLoop (a d0 : UInt32) :
    UInt64 → UInt64 → List UInt32 → List UInt32 → List UInt32 → List UInt32 × UInt64 × UInt64
  | A, B, b :: bs, c :: cs, n :: ns =>
      let A := (A >>> 32) + a.toUInt64 * b.toUInt64 + c.toUInt64
      let B := (B >>> 32) + d0.toUInt64 * n.toUInt64 + A.toUInt32.toUInt64
      let (words, last) := montMulAddLoop a d0 A B bs cs ns
      (B.toUInt32 :: words, last)
  | A, B, _, _, _ => ([], A, B)

/-- `montgomery c[] += a * b[] / R % mod`, one word `a` of the multiplier. -/
def montMulAdd (key : RSAPublicKey) (c : List UInt32) (a : UInt32) (b : List UInt32) :
    List UInt32 :=
  match b, c, key.n with
  | b0 :: bs, c0 :: cs, n0 :: ns =>
      let A := a.toUInt64 * b0.toUInt64 + c0.toUInt64
      let d0 := A.toUInt32 * key.n0inv
      let B := d0.toUInt64 * n0.toUInt64 + A.toUInt32.toUInt64
      let (words, A, B) := montMulAddLoop a d0 A B bs cs ns
      let A := (A >>> 32) + (B >>> 32)
      let c := words ++ [A.toUInt32]
      if A >>> 32 ≠ 0 then subM key c else c
  | _, _, _ => c

/-- `montgomery c[] = a[] * b[] / R % mod`. -/
def montMul (key : RSAPublicKey) (a b : List UInt32) : List UInt32 :=
  a.foldl (fun c word => montMulAdd key c word b) (List.replicate key.len.toNat 0)

/-- One turn of the squaring loop: two Montgomery squarings. -/
def squareTwice (key : RSAPublicKey) (aR : List UInt32) : List UInt32 :=
  let aaR := montMul key aR aR
  montMul key aaR aaR

/-- In-place public exponentiation with exponent 65537 of a big-endian byte array. -/
def modpowF4 (key : RSAPublicKey) (inout : List UInt8) : List UInt8 :=
  let a := (packWords inout).reverse
  let aR := (squareTwice key)^[8] (montMul key a key.rr)
  let aaa := montMul key aR a
  let aaa := if geM key aaa then subM key aaa else aaa
  aaa.reverse.flatMap unpackWord

/-- Verify a PKCS#1 v1.5 signature against an expected hash. Both comparison loops run to their
end, so the result does not depend on where the first difference is. -/
def RSA_verify (key : RSAPublicKey) (sig : List UInt8) (sig_len : ℤ) (sig_type : ℕ)
    (hash : List UInt8) : Bool :=
  if sig_len ≠ key.len * 4 then false
  else if valid : sig_type < kNumAlgorithms then
    if key.len ≠ siglen_map.get ⟨sig_type, valid⟩ then false
    else
      let buf := modpowF4 key (sig.take sig_len.toNat)
      let padding := padding_map.get ⟨sig_type, valid⟩
      let size := padding_size_map.get ⟨sig_type, valid⟩
      (List.range size).all (fun i => buf[i]? == padding[i]?) &&
        (List.range' size (sig_len.toNat - size)).all (fun i => buf[i]? == hash[i - size]?)
  else false

end ChromiumOS.Vboot
