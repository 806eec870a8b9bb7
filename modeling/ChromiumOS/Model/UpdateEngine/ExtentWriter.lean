import ChromiumOS.ToMathlib.Overwrite

/-! # Writing to the extents of a file

`extent_writer.cc` and `extent_writer.h`. What the coming `write` calls do is a parameter: each of them fails
or takes a number of bytes, at least one as on every regular file. A failed `CHECK` is `none`. A `size_t` has
32 bits: `bzip_extent_writer.h` overrides `Init` with an `uint32` in its place.
-/

namespace ChromiumOS.UpdateEngine

open Overwrite

structure Extent where
  start_block : UInt64
  num_blocks : UInt64
deriving DecidableEq, Repr

/-- `kuint64max`. -/
def kSparseHole : UInt64 := 0xFFFFFFFFFFFFFFFF

/-- An open file: its bytes, the offset of the descriptor and the number of `write` calls so far. -/
structure Descriptor where
  contents : List UInt8
  offset : ℕ
  calls : ℕ
deriving DecidableEq, Repr

/-- What a `write` does: `none` fails, `some extra` takes at most `extra + 1` bytes. -/
abbrev WriteLimits := ℕ → Option ℕ

namespace Descriptor

/-- `lseek64` with `SEEK_SET`; the result is whether it is not `-1`. -/
def lseek64 (fd : Descriptor) (offset : ℤ) : Bool × Descriptor :=
  if offset < 0 then (false, fd) else (true, { fd with offset := offset.toNat })

/-- The number of bytes that were taken, or `none` for `-1`. -/
def write (limits : WriteLimits) (fd : Descriptor) (buf : List UInt8) : Option ℕ × Descriptor :=
  match limits fd.calls with
  | none => (none, { fd with calls := fd.calls + 1 })
  | some extra =>
    let rc := min buf.length (extra + 1)
    (some rc,
      { contents := overwrite 0 fd.contents fd.offset (buf.take rc)
        offset := fd.offset + rc
        calls := fd.calls + 1 })

end Descriptor

/-- The loop of `WriteAll`; every turn takes a byte, so there are at most `count` of them. -/
def writeTurns (limits : WriteLimits) : ℕ → Descriptor → List UInt8 → Bool × Descriptor
  | 0, fd, _ => (true, fd)
  | turns + 1, fd, buf =>
    if buf = [] then (true, fd)
    else
      match fd.write limits buf with
      | (none, fd) => (false, fd)
      | (some rc, fd) => writeTurns limits turns fd (buf.drop rc)

def WriteAll (limits : WriteLimits) (fd : Descriptor) (buf : List UInt8) : Bool × Descriptor :=
  writeTurns limits buf.length fd buf

/-- Conversion of an `uint64` to `off64_t`. -/
def offsetOf (value : UInt64) : ℤ :=
  if value.toNat < 2 ^ 63 then value.toNat else value.toNat - 2 ^ 64

/-- The functions of an `ExtentWriter`. -/
structure ExtentWriter (Writer : Type) where
  Init : Writer → Descriptor → List Extent → UInt32 → Option (Bool × Writer)
  Write : Writer → List UInt8 → Option (Bool × Writer)
  End : Writer → Option (Bool × Writer)

/-- A caller that gives the data in pieces and stops when one is not written. -/
def ExtentWriter.writeChunks {Writer : Type} (functions : ExtentWriter Writer) :
    Writer → List (List UInt8) → Option (Bool × Writer)
  | writer, [] => some (true, writer)
  | writer, chunk :: chunks => do
    let (written, writer) ← functions.Write writer chunk
    if written then writeChunks functions writer chunks else some (false, writer)

/-- A caller that sets up a writer, gives it the data in pieces and ends, and stops when something fails. -/
def ExtentWriter.run {Writer : Type} (functions : ExtentWriter Writer) (writer : Writer) (fd : Descriptor)
    (extents : List Extent) (block_size : UInt32) (chunks : List (List UInt8)) : Option (Bool × Writer) := do
  let (initialised, writer) ← functions.Init writer fd extents block_size
  if initialised then
    let (written, writer) ← functions.writeChunks writer chunks
    if written then functions.End writer else some (false, writer)
  else some (false, writer)

structure DirectExtentWriter where
  fd_ : Descriptor
  block_size_ : UInt32
  extent_bytes_written_ : UInt64
  extents_ : List Extent
  next_extent_index_ : ℕ
deriving DecidableEq, Repr

namespace DirectExtentWriter

def Init (writer : DirectExtentWriter) (fd : Descriptor) (extents : List Extent) (block_size : UInt32) :
    DirectExtentWriter :=
  { writer with fd_ := fd, block_size_ := block_size, extents_ := extents }

variable (limits : WriteLimits)

/-- Seek to the place in the extent and write there, unless it is a hole. -/
def writeExtent (writer : DirectExtentWriter) (extent : Extent) (bytes : List UInt8) :
    Bool × DirectExtentWriter :=
  if extent.start_block ≠ kSparseHole then
    let offset := offsetOf (extent.start_block * writer.block_size_.toUInt64 + writer.extent_bytes_written_)
    match writer.fd_.lseek64 offset with
    | (false, fd_) => (false, { writer with fd_ })
    | (true, fd_) =>
      let (written, fd_) := WriteAll limits fd_ bytes
      (written, { writer with fd_ })
  else (true, writer)

/-- Go to the next extent when this one is filled. -/
def advance (writer : DirectExtentWriter) (extent : Extent) (bytes_remaining_next_extent : UInt64)
    (bytes_to_write : ℕ) : Option DirectExtentWriter :=
  let writer :=
    { writer with extent_bytes_written_ := writer.extent_bytes_written_ + UInt64.ofNat bytes_to_write }
  if bytes_remaining_next_extent.toNat = bytes_to_write then
    if writer.extent_bytes_written_ ≠ extent.num_blocks * writer.block_size_.toUInt64 then none
    else
      some { writer with
        extent_bytes_written_ := 0
        next_extent_index_ := writer.next_extent_index_ + 1 }
  else some writer

/-- The loop of `Write` on the bytes that are left; every turn takes a byte. -/
def writeLoop : ℕ → DirectExtentWriter → List UInt8 → Option (Bool × DirectExtentWriter)
  | 0, writer, _ => some (true, writer)
  | turns + 1, writer, bytes =>
    if bytes = [] then some (true, writer)
    else
      match writer.extents_[writer.next_extent_index_]? with
      | none => some (false, writer)
      | some extent =>
        let bytes_remaining_next_extent :=
          extent.num_blocks * writer.block_size_.toUInt64 - writer.extent_bytes_written_
        if bytes_remaining_next_extent = 0 then none
        else
          let bytes_to_write := min bytes.length bytes_remaining_next_extent.toNat
          match writer.writeExtent limits extent (bytes.take bytes_to_write) with
          | (false, writer) => some (false, writer)
          | (true, writer) => do
            let writer ← writer.advance extent bytes_remaining_next_extent bytes_to_write
            writeLoop turns writer (bytes.drop bytes_to_write)

def Write (writer : DirectExtentWriter) (bytes : List UInt8) : Option (Bool × DirectExtentWriter) :=
  writeLoop limits bytes.length writer bytes

def functions : ExtentWriter DirectExtentWriter where
  Init writer fd extents block_size := some (true, writer.Init fd extents block_size)
  Write writer bytes := writer.Write limits bytes
  End writer := some (true, writer)

/-- A new writer; its descriptor is not used before `Init`. -/
def new : DirectExtentWriter where
  fd_ := { contents := [], offset := 0, calls := 0 }
  block_size_ := 0
  extent_bytes_written_ := 0
  extents_ := []
  next_extent_index_ := 0

end DirectExtentWriter

structure ZeroPadExtentWriter (Writer : Type) where
  underlying_extent_writer_ : Writer
  block_size_ : UInt32
  bytes_written_mod_block_size_ : UInt32
deriving DecidableEq, Repr

namespace ZeroPadExtentWriter

variable {Writer : Type} (underlying : ExtentWriter Writer)

def Init (writer : ZeroPadExtentWriter Writer) (fd : Descriptor) (extents : List Extent)
    (block_size : UInt32) : Option (Bool × ZeroPadExtentWriter Writer) := do
  let writer := { writer with block_size_ := block_size }
  let (result, underlying_extent_writer_) ←
    underlying.Init writer.underlying_extent_writer_ fd extents block_size
  some (result, { writer with underlying_extent_writer_ })

def Write (writer : ZeroPadExtentWriter Writer) (bytes : List UInt8) :
    Option (Bool × ZeroPadExtentWriter Writer) := do
  let (written, underlying_extent_writer_) ← underlying.Write writer.underlying_extent_writer_ bytes
  let writer := { writer with underlying_extent_writer_ }
  if written then
    some (true, { writer with
      bytes_written_mod_block_size_ :=
        (writer.bytes_written_mod_block_size_ + UInt32.ofNat bytes.length) % writer.block_size_ })
  else some (false, writer)

/-- `End` of the underlying writer, after the padding. -/
def endUnderlying (writer : ZeroPadExtentWriter Writer) : Option (Bool × ZeroPadExtentWriter Writer) := do
  let (result, underlying_extent_writer_) ← underlying.End writer.underlying_extent_writer_
  some (result, { writer with underlying_extent_writer_ })

def EndImpl (writer : ZeroPadExtentWriter Writer) : Option (Bool × ZeroPadExtentWriter Writer) :=
  if writer.bytes_written_mod_block_size_ ≠ 0 then do
    let write_size := writer.block_size_ - writer.bytes_written_mod_block_size_
    let zeros := List.replicate write_size.toNat (0 : UInt8)
    let (written, underlying_extent_writer_) ← underlying.Write writer.underlying_extent_writer_ zeros
    let writer := { writer with underlying_extent_writer_ }
    if written then endUnderlying underlying writer else some (false, writer)
  else endUnderlying underlying writer

def functions : ExtentWriter (ZeroPadExtentWriter Writer) where
  Init writer fd extents block_size := writer.Init underlying fd extents block_size
  Write writer bytes := writer.Write underlying bytes
  End writer := writer.EndImpl underlying

/-- A new writer around another. -/
def new (underlying_extent_writer : Writer) : ZeroPadExtentWriter Writer where
  underlying_extent_writer_ := underlying_extent_writer
  block_size_ := 0
  bytes_written_mod_block_size_ := 0

end ZeroPadExtentWriter

end ChromiumOS.UpdateEngine
