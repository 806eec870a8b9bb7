import Mathlib

/-! # File writers

`file_writer.cc` and `decompressing_file_writer.cc`. What the coming `write` calls reply is part of
the state of the direct writer, next to the bytes accepted and the errors reported so far. A run that
needs more replies than there are, or more turns of the inflate loop than allowed, has not returned
and is `none`, as is a failed `CHECK`. zlib is a parameter.
-/

namespace ChromiumOS.UpdateEngine

/-- The reply of one `write`: an error, or the number of bytes taken. -/
inductive WriteReply where
  | failed (errno : ℕ+)
  | wrote (count : ℕ)
deriving DecidableEq, Repr

/-- A writer on a file descriptor. -/
structure DirectFileWriter where
  fd_ : ℤ
  accepted : List UInt8
  errors : List ℕ+
  replies : List WriteReply
deriving DecidableEq, Repr

namespace DirectFileWriter

def Open (writer : DirectFileWriter) (fd : ℤ) (errno : ℕ+) : Option (ℤ × DirectFileWriter) :=
  if writer.fd_ ≠ -1 then none
  else some (if fd < 0 then -errno else 0, { writer with fd_ := fd })

/-- The loop of `Write`: the bytes taken, what is left of the replies, and the error if any. -/
def writeLoop : List WriteReply → List UInt8 → Option (List UInt8 × List WriteReply × Option ℕ+)
  | replies, [] => some ([], replies, none)
  | [], _ => none
  | .failed errno :: replies, _ => some ([], replies, some errno)
  | .wrote count :: replies, bytes => do
      let (taken, replies, error) ← writeLoop replies (bytes.drop count)
      some (bytes.take count ++ taken, replies, error)

/-- Returns the number of bytes, or a negative error. -/
def Write (writer : DirectFileWriter) (bytes : List UInt8) : Option (ℤ × DirectFileWriter) :=
  if writer.fd_ < 0 then none
  else do
    let (taken, replies, error) ← writeLoop writer.replies bytes
    let rc : ℤ := match error with
      | none => bytes.length
      | some errno => -errno
    some (rc, { writer with
      accepted := writer.accepted ++ taken
      errors := writer.errors ++ error.toList
      replies })

def Close (writer : DirectFileWriter) (rc : ℤ) : Option (ℤ × DirectFileWriter) :=
  if writer.fd_ < 0 then none else some (rc, { writer with fd_ := -2 })

end DirectFileWriter

/-- The return codes of `inflate`. -/
inductive ZlibCode where
  | Z_OK
  | Z_STREAM_END
  | Z_NEED_DICT
  | Z_STREAM_ERROR
  | Z_DATA_ERROR
  | Z_MEM_ERROR
  | Z_BUF_ERROR
deriving DecidableEq, Repr

/-- The codes that `Write` goes on after. -/
def ZlibCode.isFatal (code : ZlibCode) : Bool := code != .Z_STREAM_END && code != .Z_OK && code != .Z_BUF_ERROR

/-- What one `inflate` did: its code, how much input it took, its output and the new stream. -/
structure Inflated (Stream : Type) where
  code : ZlibCode
  consumed : ℕ
  output : List UInt8
  stream : Stream

/-- A zlib: the stream after `inflateInit2`, and `inflate` on the available input with some room for
output. -/
structure Zlib (Stream : Type) where
  init : Stream
  inflate : Stream → List UInt8 → ℕ → Inflated Stream

/-- The writer that decompresses; `avail_in` is the input that zlib has not taken, `codes` are the
codes returned so far. -/
structure GzipDecompressingFileWriter (Stream : Type) where
  next_ : DirectFileWriter
  stream_ : Stream
  avail_in : List UInt8
  codes : List ZlibCode

namespace GzipDecompressingFileWriter

variable {Stream : Type} (zlib : Zlib Stream)

/-- The size of `buf`. -/
def bufSize : ℕ := 1024

/-- The loop of `Write`. The code it tests is shadowed by the one `inflate` returns, so it ends only
when an error is returned or nothing more comes out. The result of writing is not looked at. -/
def inflateLoop : ℕ → GzipDecompressingFileWriter Stream → ℕ →
    Option (ℤ × GzipDecompressingFileWriter Stream)
  | 0, _, _ => none
  | turns + 1, writer, count =>
    let inflated := zlib.inflate writer.stream_ writer.avail_in bufSize
    let writer := { writer with
      stream_ := inflated.stream
      avail_in := writer.avail_in.drop inflated.consumed
      codes := writer.codes ++ [inflated.code] }
    if inflated.code.isFatal then some (0, writer)
    else if inflated.output ≠ [] then do
      let (_, next_) ← writer.next_.Write inflated.output
      inflateLoop turns { writer with next_ } count
    else if writer.avail_in ≠ [] then none
    else some (count, writer)

def Write (turns : ℕ) (writer : GzipDecompressingFileWriter Stream) (bytes : List UInt8) :
    Option (ℤ × GzipDecompressingFileWriter Stream) :=
  if writer.avail_in ≠ [] then some (-1, writer)
  else inflateLoop zlib turns { writer with avail_in := bytes } bytes.length

end GzipDecompressingFileWriter

end ChromiumOS.UpdateEngine
