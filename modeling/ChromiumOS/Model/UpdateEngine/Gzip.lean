import ChromiumOS.Model.UpdateEngine.FileWriter

/-! # Decompressing gzip data in memory

`GzipDecompressData` of `gzip.cc`. zlib is a parameter, and so is which sizes the allocator has memory for. A
`size_t` has 32 bits: `GzipCompressData` takes the maximum of one and an `unsigned`. The sizes that the buffer
is allocated with are kept, and a run that needs more turns of the loop than allowed is `none`.
-/

namespace ChromiumOS.UpdateEngine

/-- A zlib: `inflate` with `Z_FINISH` on the available input with some room for output. -/
structure Inflater (Stream : Type) where
  inflateInit2 : ZlibCode × Stream
  inflate : Stream → List UInt8 → ℕ → Inflated Stream
  inflateEnd : Stream → ZlibCode

/-- What was returned, the output with the size set for it, and the sizes that were allocated. -/
structure Decompressed where
  result : Bool
  out : List UInt8
  out_size : ℕ
  sizes : List ℕ
deriving DecidableEq, Repr

section Gzip

variable {Stream : Type} (zlib : Inflater Stream) (allocates : ℕ → Bool)

/-- A product in a `size_t`. -/
def doubled (size : ℕ) : ℕ := size * 2 % 2 ^ 32

/-- The loop; `out` is what was put out so far and `sizes` ends with `out_size`. -/
def inflateTurns : ℕ → Stream → List UInt8 → List UInt8 → ℕ → ℕ → List ℕ → Option Decompressed
  | 0, _, _, _, _, _, _ => none
  | turns + 1, stream, next_in, out, avail_out, out_size, sizes =>
    let inflated := zlib.inflate stream next_in avail_out
    let next_in := next_in.drop inflated.consumed
    let out := out ++ inflated.output
    match inflated.code with
    | .Z_STREAM_END =>
      some ⟨decide (zlib.inflateEnd inflated.stream = .Z_OK), out, out.length, sizes⟩
    | .Z_OK | .Z_BUF_ERROR =>
      let out_size := doubled out_size
      let sizes := sizes ++ [out_size]
      if allocates out_size then
        inflateTurns turns inflated.stream next_in out ((out_size + 2 ^ 32 - out.length) % 2 ^ 32) out_size sizes
      else some ⟨false, [], out_size, sizes⟩
    | _ => some ⟨false, [], out_size, sizes⟩

def GzipDecompressData (turns : ℕ) (data : List UInt8) : Option Decompressed :=
  if data.length = 0 then some ⟨true, [], 0, []⟩
  else if zlib.inflateInit2.1 ≠ .Z_OK then some ⟨false, [], 0, []⟩
  else
    let out_size := doubled data.length
    if allocates out_size then
      inflateTurns zlib allocates turns zlib.inflateInit2.2 data [] out_size out_size [out_size]
    else some ⟨false, [], out_size, [out_size]⟩

end Gzip

end ChromiumOS.UpdateEngine
