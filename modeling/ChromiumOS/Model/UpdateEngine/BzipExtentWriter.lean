import ChromiumOS.Model.UpdateEngine.ExtentWriter

/-! # Writing what a bzip2 stream decompresses to

`bzip_extent_writer.cc`. The library is a parameter. A run that needs more turns of the loop of `Write` than
allowed has not returned and is `none`, as is a failed `CHECK`.
-/

namespace ChromiumOS.UpdateEngine

/-- The return codes of the library. -/
inductive BzCode where
  | BZ_OK
  | BZ_STREAM_END
  | BZ_SEQUENCE_ERROR
  | BZ_PARAM_ERROR
  | BZ_MEM_ERROR
  | BZ_DATA_ERROR
  | BZ_DATA_ERROR_MAGIC
deriving DecidableEq, Repr

/-- What one `BZ2_bzDecompress` did: its code, how much input it took, its output and the new stream. -/
structure BzDecompressed (Stream : Type) where
  code : BzCode
  consumed : ℕ
  output : List UInt8
  stream : Stream

/-- A libbz2: `BZ2_bzDecompress` is given the available input and some room for output. -/
structure Bzlib (Stream : Type) where
  BZ2_bzDecompressInit : BzCode × Stream
  BZ2_bzDecompress : Stream → List UInt8 → ℕ → BzDecompressed Stream
  BZ2_bzDecompressEnd : Stream → BzCode

structure BzipExtentWriter (Stream Writer : Type) where
  next_ : Writer
  stream_ : Stream
  input_buffer_ : List UInt8

namespace BzipExtentWriter

variable {Stream Writer : Type} (bzlib : Bzlib Stream) (next : ExtentWriter Writer)

def kOutputBufferLength : ℕ := 1024 * 1024

def Init (writer : BzipExtentWriter Stream Writer) (fd : Descriptor) (extents : List Extent)
    (block_size : UInt32) : Option (Bool × BzipExtentWriter Stream Writer) :=
  let writer := { writer with stream_ := bzlib.BZ2_bzDecompressInit.2 }
  if bzlib.BZ2_bzDecompressInit.1 ≠ .BZ_OK then some (false, writer)
  else do
    let (result, next_) ← next.Init writer.next_ fd extents block_size
    some (result, { writer with next_ })

/-- The loop of `Write` on the input from `next_in` on; the last result is what `avail_in` is left at. -/
def writeLoop : ℕ → BzipExtentWriter Stream Writer → List UInt8 →
    Option (Bool × BzipExtentWriter Stream Writer × ℕ)
  | 0, _, _ => none
  | turns + 1, writer, next_in =>
    let result := bzlib.BZ2_bzDecompress writer.stream_ next_in kOutputBufferLength
    let writer := { writer with stream_ := result.stream }
    let next_in := next_in.drop result.consumed
    if result.code ≠ .BZ_OK ∧ result.code ≠ .BZ_STREAM_END then some (false, writer, next_in.length)
    else if result.output = [] then some (true, writer, next_in.length)
    else do
      let (written, next_) ← next.Write writer.next_ result.output
      let writer := { writer with next_ }
      if ¬ written then some (false, writer, next_in.length)
      else if result.code = .BZ_STREAM_END ∧ next_in ≠ [] then none
      else if next_in = [] then some (true, writer, 0)
      else writeLoop turns writer next_in

def Write (turns : ℕ) (writer : BzipExtentWriter Stream Writer) (bytes : List UInt8) :
    Option (Bool × BzipExtentWriter Stream Writer) := do
  let input_buffer_ := writer.input_buffer_ ++ bytes
  let (written, writer, avail_in) ← writeLoop bzlib next turns { writer with input_buffer_ } input_buffer_
  if written then
    some (true, { writer with input_buffer_ := input_buffer_.drop (input_buffer_.length - avail_in) })
  else some (false, writer)

def EndImpl (writer : BzipExtentWriter Stream Writer) : Option (Bool × BzipExtentWriter Stream Writer) :=
  if writer.input_buffer_ ≠ [] then some (false, writer)
  else if bzlib.BZ2_bzDecompressEnd writer.stream_ ≠ .BZ_OK then some (false, writer)
  else do
    let (result, next_) ← next.End writer.next_
    some (result, { writer with next_ })

def functions (turns : ℕ) : ExtentWriter (BzipExtentWriter Stream Writer) where
  Init writer fd extents block_size := writer.Init bzlib next fd extents block_size
  Write writer bytes := writer.Write bzlib next turns bytes
  End writer := writer.EndImpl bzlib next

/-- A new writer around another; its stream is not used before `Init`. -/
def new (next_ : Writer) (stream_ : Stream) : BzipExtentWriter Stream Writer where
  next_ := next_
  stream_ := stream_
  input_buffer_ := []

end BzipExtentWriter

end ChromiumOS.UpdateEngine
