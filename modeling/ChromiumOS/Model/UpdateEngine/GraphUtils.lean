import ChromiumOS.Model.UpdateEngine.ExtentWriter

/-! # Building extents from blocks

`graph_utils.cc`, the parts of `graph_types.h` that it uses, and `extent_mapper.cc`. What the system calls say
about a file is a parameter of the mapper.
-/

namespace ChromiumOS.UpdateEngine

structure EdgeProperties where
  extents : List Extent
deriving DecidableEq, Repr

/-- A vertex with its out-edges by the index of their other end. -/
structure Vertex where
  out_edges : List (ℕ × EdgeProperties)
deriving DecidableEq, Repr

abbrev Graph := List Vertex

abbrev Edge := ℕ × ℕ

/-- `EdgeWeight`; the edge must be in the graph. -/
def EdgeWeight (graph : Graph) (edge : Edge) : Option UInt64 := do
  let vertex ← graph[edge.1]?
  let properties ← vertex.out_edges.lookup edge.2
  some (properties.extents.foldl (fun weight extent => weight + extent.num_blocks) 0)

def AppendBlockToExtents (extents : List Extent) (block : UInt64) : List Extent :=
  match extents.getLast? with
  | some extent =>
    if extent.start_block + extent.num_blocks = block then
      extents.dropLast ++ [{ extent with num_blocks := extent.num_blocks + 1 }]
    else extents ++ [⟨block, 1⟩]
  | none => extents ++ [⟨block, 1⟩]

/-- The block size of the mapper. -/
def kBlockSize : ℕ := 4096

/-- The parts of a `struct stat` that the mapper reads; a size is no negative `off_t`. -/
structure FileStat where
  st_size : ℕ
  isRegular : Bool
  bound : st_size < 2 ^ 63

/-- What the system says about a file: `none` and `false` are failing calls. `FIBMAP` takes a block of the
file to a block of the device. -/
structure MappedFile where
  stat : Option FileStat
  opens : Bool
  fstat : Option FileStat
  FIBMAP : UInt32 → Option UInt32

/-- What the loop does with the next block: the current extent and the extents put out. -/
def nextBlock (acc : Extent × List Extent) (block : UInt32) : Extent × List Extent :=
  let (current, out) := acc
  if current.num_blocks = 0 then (⟨block.toUInt64, 1⟩, out)
  else if current.start_block + current.num_blocks = block.toUInt64 then
    ({ current with num_blocks := current.num_blocks + 1 }, out)
  else (⟨block.toUInt64, 1⟩, out ++ [current])

/-- The loop over some block indexes; it returns when a block is not mapped. -/
def mapBlocks (FIBMAP : UInt32 → Option UInt32) :
    List ℕ → Extent × List Extent → Bool × (Extent × List Extent)
  | [], acc => (true, acc)
  | i :: rest, acc =>
    match FIBMAP (UInt32.ofNat i) with
    | none => (false, acc)
    | some block => mapBlocks FIBMAP rest (nextBlock acc block)

/-- The number of blocks as an `int`. -/
def block_count (size : ℕ) : ℤ :=
  let blocks : ℕ := (size + kBlockSize - 1) / kBlockSize % 2 ^ 32
  if blocks < 2 ^ 31 then blocks else blocks - 2 ^ 32

def ExtentsForFileFibmap (file : MappedFile) (out : List Extent) : Bool × List Extent :=
  match file.stat with
  | none => (false, out)
  | some stbuf =>
    if ¬ stbuf.isRegular then (false, out)
    else if ¬ file.opens then (false, out)
    else
      match file.fstat with
      | none => (false, out)
      | some stbuf =>
        match mapBlocks file.FIBMAP (List.range (block_count stbuf.st_size).toNat) (⟨0, 0⟩, out) with
        | (false, _, out) => (false, out)
        | (true, current, out) => (true, if 0 < current.num_blocks then out ++ [current] else out)

end ChromiumOS.UpdateEngine
