import ChromiumOS.Model.UpdateEngine.ExtentWriter

/-! # Extent writers scatter their data

What a file should hold after writing is said by recursion on the extents, without a position that is carried
from call to call. The writer keeps to it from every position, so what it has written after some calls is the
scattering of everything it was given, however that was cut.
-/

namespace ChromiumOS.UpdateEngine

open Overwrite

namespace Extent

/-- The number of bytes in an extent. -/
def bytes (block_size : UInt32) (extent : Extent) : ℕ := extent.num_blocks.toNat * block_size.toNat

/-- The offset of an extent in the file. -/
def start (block_size : UInt32) (extent : Extent) : ℕ := extent.start_block.toNat * block_size.toNat

/-- An extent with a block or more, whose size and offsets do not overflow. -/
structure Fits (block_size : UInt32) (extent : Extent) : Prop where
  positive : 0 < extent.num_blocks.toNat
  sized : extent.bytes block_size < 2 ^ 64
  placed : extent.start_block ≠ kSparseHole → extent.start block_size + extent.bytes block_size ≤ 2 ^ 63

end Extent

section Scatter

variable (block_size : UInt32)

/-- The bytes that the extents have room for, when some of the first one is used. -/
def roomFrom : List Extent → ℕ → ℕ
  | [], _ => 0
  | extent :: extents, used => extent.bytes block_size - used + roomFrom extents 0

/-- Scatter the data to the extents in order, when some of the first one is used. Data for a hole is
dropped, and so is what there is no room for. -/
def scatterFrom : List Extent → ℕ → List UInt8 → List UInt8 → List UInt8
  | [], _, _, contents => contents
  | extent :: extents, used, data, contents =>
    let room := extent.bytes block_size - used
    let contents :=
      if extent.start_block = kSparseHole then contents
      else overwrite 0 contents (extent.start block_size + used) (data.take room)
    scatterFrom extents 0 (data.drop room) contents

/-- The offset in the file at which a byte of the data is, if it is written at all. -/
def placeFrom : List Extent → ℕ → ℕ → Option ℕ
  | [], _, _ => none
  | extent :: extents, used, index =>
    let room := extent.bytes block_size - used
    if index < room then
      if extent.start_block = kSparseHole then none else some (extent.start block_size + used + index)
    else placeFrom extents 0 (index - room)

/-- The bytes that some extents have room for. -/
def capacity (extents : List Extent) : ℕ := roomFrom block_size extents 0

/-- The contents of a file after the data is scattered to some extents. -/
def scatter (extents : List Extent) (data contents : List UInt8) : List UInt8 :=
  scatterFrom block_size extents 0 data contents

/-- The offset at which a byte of the data is. -/
def place (extents : List Extent) (index : ℕ) : Option ℕ := placeFrom block_size extents 0 index

theorem scatterFrom_nil (extents : List Extent) (used : ℕ) (contents : List UInt8) :
    scatterFrom block_size extents used [] contents = contents := by
  induction extents generalizing used with
  | nil => rfl
  | cons extent extents ih =>
    rw [scatterFrom]
    simp only [List.take_nil, List.drop_nil, overwrite, ite_self]
    exact ih 0

theorem placeFrom_later (extent : Extent) (extents : List Extent) (used index : ℕ) :
    placeFrom block_size (extent :: extents) used (extent.bytes block_size - used + index) =
      placeFrom block_size extents 0 index := by
  rw [placeFrom]
  rw [if_neg (by omega), Nat.add_sub_cancel_left]

/-- Bytes that no byte of the data is placed at are not changed. -/
theorem scatterFrom_other {extents : List Extent} {used : ℕ} {data : List UInt8} {offset : ℕ}
    (contents : List UInt8) (other : ∀ index < data.length, placeFrom block_size extents used index ≠ some offset) :
    (scatterFrom block_size extents used data contents).getD offset 0 = contents.getD offset 0 := by
  induction extents generalizing used data contents with
  | nil => rfl
  | cons extent extents ih =>
    rw [scatterFrom]
    rw [ih]
    · split
      · rfl
      · next placed =>
        rw [getD_overwrite, if_neg]
        rintro ⟨above, below⟩
        rw [List.length_take] at below
        apply other (offset - (extent.start block_size + used)) (by omega)
        rw [placeFrom]
        rw [if_pos (by omega), if_neg placed]
        congr 1
        omega
    · intro index inside
      rw [← placeFrom_later block_size extent extents used index]
      apply other
      rw [List.length_drop] at inside
      omega

/-- A byte is at its place unless a later one is placed there. -/
theorem scatterFrom_placed {extents : List Extent} {used index : ℕ} {data : List UInt8} {offset : ℕ}
    (contents : List UInt8) (inside : index < data.length)
    (placed : placeFrom block_size extents used index = some offset)
    (last : ∀ later, index < later → later < data.length →
      placeFrom block_size extents used later ≠ some offset) :
    (scatterFrom block_size extents used data contents).getD offset 0 = data.getD index 0 := by
  induction extents generalizing used index data contents with
  | nil => simp [placeFrom] at placed
  | cons extent extents ih =>
    have later_place := placeFrom_later block_size extent extents used
    rw [placeFrom] at placed
    rw [scatterFrom]
    split at placed
    · next first =>
      split at placed
      · simp at placed
      · next written =>
        rw [Option.some.injEq] at placed
        rw [scatterFrom_other, if_neg written, getD_overwrite, if_pos]
        · rw [← placed, Nat.add_sub_cancel_left, List.getD_eq_getElem?_getD, List.getElem?_take_of_lt first,
            ← List.getD_eq_getElem?_getD]
        · rw [List.length_take]
          omega
        · intro later before
          rw [List.length_drop] at before
          rw [← later_place]
          exact last _ (by omega) (by omega)
    · next behind =>
      rw [ih _ _ placed]
      · rw [List.getD_eq_getElem?_getD, List.getElem?_drop, ← List.getD_eq_getElem?_getD]
        congr 1
        omega
      · intro later after before
        rw [List.length_drop] at before
        rw [← later_place]
        exact last _ (by omega) (by omega)
      · rw [List.length_drop]
        omega

/-- Scattering goes on behind data that does not fill the first extent. -/
theorem scatterFrom_within (extent : Extent) (extents : List Extent) {used : ℕ} {first : List UInt8}
    (more contents : List UInt8) (within : used + first.length ≤ extent.bytes block_size) :
    scatterFrom block_size (extent :: extents) used (first ++ more) contents =
      scatterFrom block_size (extent :: extents) (used + first.length) more
        (if extent.start_block = kSparseHole then contents
          else overwrite 0 contents (extent.start block_size + used) first) := by
  have room : extent.bytes block_size - used =
      first.length + (extent.bytes block_size - (used + first.length)) := by omega
  rw [scatterFrom, scatterFrom]
  rw [room, List.take_length_add_append, List.drop_length_add_append, overwrite_append, ← add_assoc]
  split
  · rfl
  · rfl

/-- Data that there is no room for is dropped. -/
theorem scatterFrom_full {extents : List Extent} {used : ℕ} {first : List UInt8} (more contents : List UInt8)
    (full : roomFrom block_size extents used ≤ first.length) :
    scatterFrom block_size extents used (first ++ more) contents =
      scatterFrom block_size extents used first contents := by
  induction extents generalizing used first contents with
  | nil => rfl
  | cons extent extents ih =>
    rw [roomFrom] at full
    rw [scatterFrom, scatterFrom, List.take_append_of_le_length (by omega),
      List.drop_append_of_le_length (by omega)]
    exact ih _ (by rw [List.length_drop]; omega)

/-- A filled extent is left behind. -/
theorem scatterFrom_filled (extent : Extent) (extents : List Extent) (more contents : List UInt8) :
    scatterFrom block_size (extent :: extents) (extent.bytes block_size) more contents =
      scatterFrom block_size extents 0 more contents := by
  rw [scatterFrom]
  simp only [Nat.sub_self, List.take_zero, List.drop_zero, overwrite, ite_self]

end Scatter

section WriteAll

variable {limits : WriteLimits} (succeeds : ∀ call, (limits call).isSome)
include succeeds

theorem writeTurns_spec {turns : ℕ} {buf : List UInt8} (enough : buf.length ≤ turns) (fd : Descriptor) :
    ∃ calls, writeTurns limits turns fd buf =
      (true, ⟨overwrite 0 fd.contents fd.offset buf, fd.offset + buf.length, calls⟩) := by
  induction turns generalizing fd buf with
  | zero =>
    obtain rfl := List.length_eq_zero_iff.mp (Nat.le_zero.mp enough)
    exact ⟨fd.calls, rfl⟩
  | succ turns ih =>
    rw [writeTurns]
    split
    · next done =>
      rw [done]
      exact ⟨fd.calls, rfl⟩
    · next left =>
      obtain ⟨extra, limit⟩ := Option.isSome_iff_exists.mp (succeeds fd.calls)
      have positive : 0 < buf.length := List.length_pos_iff.mpr left
      have rest : (buf.drop (min buf.length (extra + 1))).length ≤ turns := by
        rw [List.length_drop]
        omega
      obtain ⟨calls, later⟩ := ih rest
        ⟨overwrite 0 fd.contents fd.offset (buf.take (min buf.length (extra + 1))),
          fd.offset + min buf.length (extra + 1), fd.calls + 1⟩
      have taken : (buf.take (min buf.length (extra + 1))).length = min buf.length (extra + 1) := by
        rw [List.length_take]
        omega
      have joined := overwrite_append 0 fd.contents fd.offset (buf.take (min buf.length (extra + 1)))
        (buf.drop (min buf.length (extra + 1)))
      rw [List.take_append_drop, taken] at joined
      rw [Descriptor.write, limit]
      dsimp only
      rw [later, joined, List.length_drop]
      dsimp only
      have whole : fd.offset + min buf.length (extra + 1) + (buf.length - min buf.length (extra + 1)) =
          fd.offset + buf.length := by
        omega
      rw [whole]
      exact ⟨calls, rfl⟩

/-- The bytes are written at the offset. -/
theorem WriteAll_spec (fd : Descriptor) (buf : List UInt8) :
    ∃ calls, WriteAll limits fd buf =
      (true, ⟨overwrite 0 fd.contents fd.offset buf, fd.offset + buf.length, calls⟩) :=
  writeTurns_spec succeeds le_rfl fd

end WriteAll

namespace DirectExtentWriter

variable {block_size : UInt32}

/-- The writer has the extents left, and has used some of the first of them. -/
structure At (block_size : UInt32) (writer : DirectExtentWriter) (extents : List Extent) (used : ℕ) : Prop where
  within : ∀ extent ∈ extents.head?, used < extent.bytes block_size
  sized : writer.block_size_ = block_size
  left : writer.extents_.drop writer.next_extent_index_ = extents
  written : writer.extent_bytes_written_.toNat = used

theorem At.head {writer : DirectExtentWriter} {extent : Extent} {extents : List Extent} {used : ℕ}
    (at_ : At block_size writer (extent :: extents) used) :
    writer.extents_[writer.next_extent_index_]? = some extent := by
  rw [← List.head?_drop, at_.left, List.head?_cons]

theorem At.bytes_remaining {writer : DirectExtentWriter} {extent : Extent} {extents : List Extent} {used : ℕ}
    (at_ : At block_size writer (extent :: extents) used) (fits : extent.Fits block_size) :
    (extent.num_blocks * writer.block_size_.toUInt64 - writer.extent_bytes_written_).toNat =
      extent.bytes block_size - used := by
  have below := at_.within extent rfl
  have sized := fits.sized
  have product : (extent.num_blocks * writer.block_size_.toUInt64).toNat = extent.bytes block_size := by
    rw [at_.sized, UInt64.toNat_mul, UInt32.toNat_toUInt64]
    exact Nat.mod_eq_of_lt fits.sized
  rw [UInt64.toNat_sub_of_le _ _ (by rw [UInt64.le_iff_toNat_le, at_.written, product]; exact below.le), product,
    at_.written]

variable {limits : WriteLimits} (succeeds : ∀ call, (limits call).isSome)

include succeeds in
/-- Bytes that stay in the first extent are written behind those that are there, or dropped. -/
theorem writeExtent_spec {writer : DirectExtentWriter} {extent : Extent} {extents : List Extent} {used : ℕ}
    (at_ : At block_size writer (extent :: extents) used) (fits : extent.Fits block_size) (bytes : List UInt8) :
    ∃ fd, writer.writeExtent limits extent bytes = (true, { writer with fd_ := fd }) ∧
      fd.contents = if extent.start_block = kSparseHole then writer.fd_.contents
        else overwrite 0 writer.fd_.contents (extent.start block_size + used) bytes := by
  rw [writeExtent]
  split
  · next placed =>
    have below := at_.within extent rfl
    have bound := fits.placed placed
    have product : (extent.start_block * writer.block_size_.toUInt64).toNat = extent.start block_size := by
      rw [at_.sized, UInt64.toNat_mul, UInt32.toNat_toUInt64, Extent.start, Nat.mod_eq_of_lt]
      rw [Extent.start] at bound
      omega
    have sum : (extent.start_block * writer.block_size_.toUInt64 + writer.extent_bytes_written_).toNat =
        extent.start block_size + used := by
      rw [UInt64.toNat_add, product, at_.written, Nat.mod_eq_of_lt (by omega)]
    have offset : offsetOf (extent.start_block * writer.block_size_.toUInt64 + writer.extent_bytes_written_) =
        (extent.start block_size + used : ℕ) := by
      rw [offsetOf, sum, if_pos (by omega)]
    obtain ⟨calls, written⟩ := WriteAll_spec succeeds
      { writer.fd_ with offset := extent.start block_size + used } bytes
    have seek : writer.fd_.lseek64 (extent.start block_size + used : ℕ) =
        (true, { writer.fd_ with offset := extent.start block_size + used }) := by
      rw [Descriptor.lseek64, if_neg (by omega), Int.toNat_natCast]
    dsimp only
    rw [offset, seek]
    dsimp only
    rw [written]
    exact ⟨_, rfl, rfl⟩
  · next hole => exact ⟨writer.fd_, rfl, (if_pos (not_not.mp hole)).symm⟩

/-- Between two positions the writer has written some bytes. -/
structure Wrote (block_size : UInt32) (before : DirectExtentWriter) (extents : List Extent) (used : ℕ)
    (bytes : List UInt8) (after : DirectExtentWriter) (rest : List Extent) (used' : ℕ) : Prop where
  at_ : At block_size after rest used'
  fits : ∀ extent ∈ rest, extent.Fits block_size
  room : roomFrom block_size extents used = bytes.length + roomFrom block_size rest used'
  scattered : ∀ more, scatterFrom block_size extents used (bytes ++ more) before.fd_.contents =
    scatterFrom block_size rest used' more after.fd_.contents

namespace Wrote

variable {before middle after : DirectExtentWriter} {extents rest rest' : List Extent} {used used' used'' : ℕ}
  {first second : List UInt8}

theorem nil (at_ : At block_size before extents used) (fits : ∀ extent ∈ extents, extent.Fits block_size) :
    Wrote block_size before extents used [] before extents used :=
  ⟨at_, fits, by simp, fun _ => rfl⟩

theorem trans (wrote : Wrote block_size before extents used first middle rest used')
    (later : Wrote block_size middle rest used' second after rest' used'') :
    Wrote block_size before extents used (first ++ second) after rest' used'' where
  at_ := later.at_
  fits := later.fits
  room := by rw [wrote.room, later.room, List.length_append, add_assoc]
  scattered more := by rw [List.append_assoc, wrote.scattered, later.scattered]

theorem contents (wrote : Wrote block_size before extents used first after rest used') :
    after.fd_.contents = scatterFrom block_size extents used first before.fd_.contents := by
  have scattered := wrote.scattered []
  rw [List.append_nil, scatterFrom_nil] at scattered
  exact scattered.symm

end Wrote

theorem At.with_fd {writer : DirectExtentWriter} {extents : List Extent} {used : ℕ}
    (at_ : At block_size writer extents used) (fd : Descriptor) :
    At block_size { writer with fd_ := fd } extents used :=
  ⟨at_.within, at_.sized, at_.left, at_.written⟩

/-- The position after some bytes of the first extent; a filled extent is left behind. -/
theorem advance_spec {writer : DirectExtentWriter} {extent : Extent} {extents : List Extent} {used count : ℕ}
    (at_ : At block_size writer (extent :: extents) used) (positive : 0 < block_size.toNat)
    (fits : ∀ each ∈ extent :: extents, each.Fits block_size) (within : used + count ≤ extent.bytes block_size) :
    ∃ writer' rest used', writer.advance extent
        (extent.num_blocks * writer.block_size_.toUInt64 - writer.extent_bytes_written_) count = some writer' ∧
      writer'.fd_ = writer.fd_ ∧ At block_size writer' rest used' ∧
      (∀ each ∈ rest, each.Fits block_size) ∧
      roomFrom block_size rest used' = roomFrom block_size (extent :: extents) (used + count) ∧
      ∀ more contents, scatterFrom block_size (extent :: extents) (used + count) more contents =
        scatterFrom block_size rest used' more contents := by
  have head_fits := fits extent List.mem_cons_self
  have sized := head_fits.sized
  have remaining := at_.bytes_remaining head_fits
  have below := at_.within extent rfl
  have written : (writer.extent_bytes_written_ + UInt64.ofNat count).toNat = used + count := by
    rw [UInt64.toNat_add, at_.written, UInt64.toNat_ofNat_of_lt' (by rw [UInt64.size]; omega),
      Nat.mod_eq_of_lt (by omega)]
  rw [advance]
  dsimp only
  split
  · next filled =>
    have full : used + count = extent.bytes block_size := by omega
    have same : writer.extent_bytes_written_ + UInt64.ofNat count = extent.num_blocks * writer.block_size_.toUInt64 := by
      rw [← UInt64.toNat_inj, written, full, at_.sized, UInt64.toNat_mul, UInt32.toNat_toUInt64]
      exact (Nat.mod_eq_of_lt sized).symm
    rw [if_neg (not_not.mpr same)]
    refine ⟨_, extents, 0, rfl, rfl, ⟨?_, at_.sized, ?_, rfl⟩, ?_, ?_, ?_⟩
    · intro next head
      have next_fits := fits next (List.mem_cons_of_mem _ (List.mem_of_mem_head? head))
      exact Nat.mul_pos next_fits.positive positive
    · rw [← List.drop_drop, at_.left, List.drop_one, List.tail_cons]
    · exact fun each member => fits each (List.mem_cons_of_mem _ member)
    · rw [roomFrom, full, Nat.sub_self, zero_add]
    · intro more contents
      rw [full, scatterFrom_filled]
  · next unfilled =>
    refine ⟨_, extent :: extents, used + count, rfl, rfl, ⟨?_, at_.sized, at_.left, written⟩, fits, rfl,
      fun _ _ => rfl⟩
    intro each head
    obtain rfl : extent = each := Option.some.inj head
    omega

include succeeds in
/-- A turn of the loop writes what the first extent has room for. -/
theorem writeLoop_turn (turns : ℕ) {writer : DirectExtentWriter} {extent : Extent} {extents : List Extent}
    {used : ℕ} {bytes : List UInt8} (at_ : At block_size writer (extent :: extents) used)
    (positive : 0 < block_size.toNat) (fits : ∀ each ∈ extent :: extents, each.Fits block_size)
    (left : bytes ≠ []) :
    ∃ count writer' rest used', 0 < count ∧
      writeLoop limits (turns + 1) writer bytes = writeLoop limits turns writer' (bytes.drop count) ∧
      Wrote block_size writer (extent :: extents) used (bytes.take count) writer' rest used' := by
  have head_fits := fits extent List.mem_cons_self
  have remaining := at_.bytes_remaining head_fits
  have below := at_.within extent rfl
  have some_bytes : 0 < bytes.length := List.length_pos_iff.mpr left
  have room : extent.num_blocks * writer.block_size_.toUInt64 - writer.extent_bytes_written_ ≠ 0 := by
    intro zero
    rw [zero] at remaining
    change 0 = _ at remaining
    omega
  have length : (bytes.take (min bytes.length (extent.bytes block_size - used))).length =
      min bytes.length (extent.bytes block_size - used) := by
    rw [List.length_take]
    omega
  obtain ⟨fd, written, contents⟩ := writeExtent_spec succeeds at_ head_fits
    (bytes.take (min bytes.length (extent.bytes block_size - used)))
  have within : used + min bytes.length (extent.bytes block_size - used) ≤ extent.bytes block_size := by omega
  obtain ⟨writer', rest, used', advanced, fd', at', fits', room', scattered⟩ :=
    advance_spec (at_.with_fd fd) positive fits within
  refine ⟨min bytes.length (extent.bytes block_size - used), writer', rest, used', by omega, ?_,
    ⟨at', fits', ?_, ?_⟩⟩
  · rw [writeLoop, if_neg left, at_.head]
    dsimp only
    rw [if_neg room, remaining, written]
    dsimp only at advanced ⊢
    rw [advanced]
    rfl
  · rw [length, room', roomFrom, roomFrom]
    omega
  · intro more
    rw [scatterFrom_within _ _ _ _ _ (by rw [length]; omega), length, scattered, fd', contents]

/-- What comes of writing some bytes from a position: there is room and all of them are written, or there is
not and the write fails after the bytes that there was room for. -/
inductive Written (block_size : UInt32) (before : DirectExtentWriter) (extents : List Extent) (used : ℕ)
    (bytes : List UInt8) : Option (Bool × DirectExtentWriter) → Prop
  | accepted {after : DirectExtentWriter} {rest : List Extent} {used' : ℕ}
      (wrote : Wrote block_size before extents used bytes after rest used') :
      Written block_size before extents used bytes (some (true, after))
  | rejected {after : DirectExtentWriter} (full : roomFrom block_size extents used < bytes.length)
      (contents : after.fd_.contents = scatterFrom block_size extents used bytes before.fd_.contents) :
      Written block_size before extents used bytes (some (false, after))

theorem Written.after {before middle : DirectExtentWriter} {extents rest : List Extent} {used used' : ℕ}
    {first second : List UInt8} {result : Option (Bool × DirectExtentWriter)}
    (wrote : Wrote block_size before extents used first middle rest used')
    (written : Written block_size middle rest used' second result) :
    Written block_size before extents used (first ++ second) result := by
  cases written with
  | accepted later => exact .accepted (wrote.trans later)
  | rejected full contents =>
    apply Written.rejected
    · rw [wrote.room, List.length_append]
      omega
    · rw [contents, wrote.scattered]

include succeeds in
theorem writeLoop_spec {turns : ℕ} {writer : DirectExtentWriter} {extents : List Extent} {used : ℕ}
    {bytes : List UInt8} (enough : bytes.length ≤ turns) (at_ : At block_size writer extents used)
    (positive : 0 < block_size.toNat) (fits : ∀ each ∈ extents, each.Fits block_size) :
    Written block_size writer extents used bytes (writeLoop limits turns writer bytes) := by
  induction turns generalizing writer extents used bytes with
  | zero =>
    obtain rfl := List.length_eq_zero_iff.mp (Nat.le_zero.mp enough)
    exact .accepted (.nil at_ fits)
  | succ turns ih =>
    rcases eq_or_ne bytes [] with rfl | left
    · rw [writeLoop, if_pos rfl]
      exact .accepted (.nil at_ fits)
    cases extents with
    | nil =>
      have none_left : writer.extents_[writer.next_extent_index_]? = none := by
        rw [← List.head?_drop, at_.left, List.head?_nil]
      rw [writeLoop, if_neg left, none_left]
      exact .rejected (List.length_pos_iff.mpr left) rfl
    | cons extent extents =>
      obtain ⟨count, middle, rest, used', some_bytes, turn, wrote⟩ :=
        writeLoop_turn succeeds turns at_ positive fits left
      have fewer : (bytes.drop count).length ≤ turns := by
        rw [List.length_drop]
        omega
      have written := (ih fewer wrote.at_ wrote.fits).after wrote
      rw [turn]
      rwa [List.take_append_drop] at written

include succeeds in
theorem Write_spec {writer : DirectExtentWriter} {extents : List Extent} {used : ℕ}
    (at_ : At block_size writer extents used) (positive : 0 < block_size.toNat)
    (fits : ∀ each ∈ extents, each.Fits block_size) (bytes : List UInt8) :
    Written block_size writer extents used bytes (writer.Write limits bytes) :=
  writeLoop_spec succeeds le_rfl at_ positive fits

include succeeds in
/-- Writing in pieces is writing what they are pieces of. -/
theorem writeChunks_spec {writer : DirectExtentWriter} {extents : List Extent} {used : ℕ}
    (at_ : At block_size writer extents used) (positive : 0 < block_size.toNat)
    (fits : ∀ each ∈ extents, each.Fits block_size) (chunks : List (List UInt8)) :
    Written block_size writer extents used chunks.flatten
      ((DirectExtentWriter.functions limits).writeChunks writer chunks) := by
  induction chunks generalizing writer extents used with
  | nil => exact .accepted (.nil at_ fits)
  | cons chunk chunks ih =>
    have written := Write_spec succeeds at_ positive fits chunk
    rw [ExtentWriter.writeChunks, List.flatten_cons]
    change Written _ _ _ _ _ ((writer.Write limits chunk).bind _)
    generalize writer.Write limits chunk = result at written ⊢
    cases written with
    | accepted wrote => exact (ih wrote.at_ wrote.fits).after wrote
    | rejected full contents =>
      apply Written.rejected
      · rw [List.length_append]
        omega
      · rw [contents, scatterFrom_full block_size _ _ full.le]

theorem At.start (fd : Descriptor) {extents : List Extent} (positive : 0 < block_size.toNat)
    (fits : ∀ each ∈ extents, each.Fits block_size) :
    At block_size (new.Init fd extents block_size) extents 0 where
  within extent head :=
    Nat.mul_pos (fits extent (List.mem_of_mem_head? head)).positive positive
  sized := rfl
  left := rfl
  written := rfl

end DirectExtentWriter

namespace ZeroPadExtentWriter

open DirectExtentWriter

variable {block_size : UInt32} {limits : WriteLimits}

/-- The bytes that are missing to a multiple of the block size. -/
def missing (block_size : UInt32) (length : ℕ) : ℕ :=
  (block_size.toNat - length % block_size.toNat) % block_size.toNat

theorem dvd_roomFrom (extents : List Extent) : block_size.toNat ∣ roomFrom block_size extents 0 := by
  induction extents with
  | nil => exact dvd_zero _
  | cons extent extents ih =>
    rw [roomFrom, Nat.sub_zero]
    exact dvd_add (dvd_mul_left _ _) ih

theorem missing_le {length room : ℕ} (positive : 0 < block_size.toNat) (whole : block_size.toNat ∣ room)
    (fits : length ≤ room) : length + missing block_size length ≤ room := by
  rw [missing]
  generalize block_size.toNat = size at *
  obtain ⟨count, rfl⟩ := whole
  have parts := Nat.div_add_mod length size
  have below := Nat.mod_lt length positive
  rcases Nat.eq_zero_or_pos (length % size) with zero | partly
  · rw [zero, Nat.sub_zero, Nat.mod_self]
    exact fits
  · have fewer : length / size < count := by
      by_contra more
      have product := Nat.mul_le_mul_left size (not_lt.mp more)
      omega
    have product := Nat.mul_le_mul_left size (Nat.succ_le_of_lt fewer)
    rw [Nat.mul_succ] at product
    rw [Nat.mod_eq_of_lt (by omega)]
    omega

/-- The padding writer counts the bytes that it passes on. -/
structure Counts (block_size : UInt32) (writer : ZeroPadExtentWriter DirectExtentWriter) (length : ℕ) : Prop where
  sized : writer.block_size_ = block_size
  counted : writer.bytes_written_mod_block_size_.toNat = length % block_size.toNat

variable (succeeds : ∀ call, (limits call).isSome)

include succeeds in
theorem writeChunks_spec {writer : ZeroPadExtentWriter DirectExtentWriter} {extents : List Extent}
    {used length : ℕ} {chunks : List (List UInt8)} (positive : 0 < block_size.toNat)
    (at_ : At block_size writer.underlying_extent_writer_ extents used) (counts : Counts block_size writer length)
    (fits : ∀ each ∈ extents, each.Fits block_size)
    (sized : ∀ chunk ∈ chunks, chunk.length + block_size.toNat < 2 ^ 32) :
    (∃ after rest used', (functions (DirectExtentWriter.functions limits)).writeChunks writer chunks =
        some (true, after) ∧ Counts block_size after (length + chunks.flatten.length) ∧
      Wrote block_size writer.underlying_extent_writer_ extents used chunks.flatten
        after.underlying_extent_writer_ rest used') ∨
    roomFrom block_size extents used < chunks.flatten.length ∧
      ∃ after, (functions (DirectExtentWriter.functions limits)).writeChunks writer chunks =
        some (false, after) ∧
      after.underlying_extent_writer_.fd_.contents = scatterFrom block_size extents used chunks.flatten
        writer.underlying_extent_writer_.fd_.contents := by
  induction chunks generalizing writer extents used length with
  | nil => exact .inl ⟨writer, extents, used, rfl, counts, .nil at_ fits⟩
  | cons chunk chunks ih =>
    have written := Write_spec succeeds at_ positive fits chunk
    have chunk_sized := sized chunk List.mem_cons_self
    have next (written : Bool) (middle : DirectExtentWriter)
        (same : writer.underlying_extent_writer_.Write limits chunk = some (written, middle)) :
        (functions (DirectExtentWriter.functions limits)).Write writer chunk = some (written,
          if written then
            { underlying_extent_writer_ := middle
              block_size_ := writer.block_size_
              bytes_written_mod_block_size_ :=
                (writer.bytes_written_mod_block_size_ + UInt32.ofNat chunk.length) % writer.block_size_ }
          else { writer with underlying_extent_writer_ := middle }) := by
      have passed : (DirectExtentWriter.functions limits).Write writer.underlying_extent_writer_ chunk =
          some (written, middle) := same
      change Write (DirectExtentWriter.functions limits) writer chunk = _
      rw [Write, passed]
      cases written <;> rfl
    rw [ExtentWriter.writeChunks, List.flatten_cons]
    generalize same : writer.underlying_extent_writer_.Write limits chunk = result at written
    cases written with
    | @accepted middle rest used' wrote =>
      have below : length % block_size.toNat < block_size.toNat := Nat.mod_lt _ positive
      have no_wrap : length % block_size.toNat + chunk.length < 2 ^ 32 := by omega
      have count : ((writer.bytes_written_mod_block_size_ + UInt32.ofNat chunk.length) % writer.block_size_).toNat =
          (length + chunk.length) % block_size.toNat := by
        rw [UInt32.toNat_mod, UInt32.toNat_add, counts.counted, counts.sized,
          UInt32.toNat_ofNat_of_lt' (by rw [UInt32.size]; omega), Nat.mod_eq_of_lt no_wrap, Nat.mod_add_mod]
      rw [next true middle same]
      have counts' : Counts block_size ⟨middle, writer.block_size_, _⟩ (length + chunk.length) := ⟨counts.sized, count⟩
      obtain ⟨after, last, used'', run, counted, later⟩ | ⟨full, after, run, contents⟩ := ih
        (by exact wrote.at_) counts' wrote.fits (fun each member => sized each (List.mem_cons_of_mem _ member))
      · refine .inl ⟨after, last, used'', run, ?_, wrote.trans later⟩
        rwa [List.length_append, ← add_assoc]
      · refine .inr ⟨?_, after, run, by rw [contents, wrote.scattered]⟩
        rw [wrote.room, List.length_append]
        omega
    | @rejected after full contents =>
      rw [next false after same]
      refine .inr ⟨?_, _, rfl, ?_⟩
      · rw [List.length_append]
        omega
      · rw [scatterFrom_full block_size _ _ full.le]
        exact contents

include succeeds in
/-- `End` writes zeros up to the next multiple of the block size. -/
theorem EndImpl_spec {writer : ZeroPadExtentWriter DirectExtentWriter} {extents : List Extent} {used length : ℕ}
    (positive : 0 < block_size.toNat) (at_ : At block_size writer.underlying_extent_writer_ extents used)
    (counts : Counts block_size writer length) (fits : ∀ each ∈ extents, each.Fits block_size)
    (room : missing block_size length ≤ roomFrom block_size extents used) :
    ∃ after, writer.EndImpl (DirectExtentWriter.functions limits) = some (true, after) ∧
      after.underlying_extent_writer_.fd_.contents = scatterFrom block_size extents used
        (List.replicate (missing block_size length) 0) writer.underlying_extent_writer_.fd_.contents := by
  have below : length % block_size.toNat < block_size.toNat := Nat.mod_lt _ positive
  rw [EndImpl]
  split
  · next partly =>
    have counted := counts.counted
    have nonzero : length % block_size.toNat ≠ 0 := by
      intro zero
      apply partly
      rw [← UInt32.toNat_inj, counted, zero]
      rfl
    have short : block_size.toNat - length % block_size.toNat < block_size.toNat := by omega
    have write_size : (writer.block_size_ - writer.bytes_written_mod_block_size_).toNat =
        missing block_size length := by
      rw [counts.sized, UInt32.toNat_sub_of_le _ _ (by rw [UInt32.le_iff_toNat_le, counted]; exact below.le),
        counted, missing, Nat.mod_eq_of_lt short]
    have written := Write_spec succeeds at_ positive fits
      (List.replicate (missing block_size length) 0)
    have passed (zeros : List UInt8) : (DirectExtentWriter.functions limits).Write
        writer.underlying_extent_writer_ zeros = writer.underlying_extent_writer_.Write limits zeros := rfl
    dsimp only
    rw [write_size, passed]
    generalize writer.underlying_extent_writer_.Write limits _ = result at written ⊢
    cases written with
    | accepted wrote => exact ⟨_, rfl, wrote.contents⟩
    | rejected full contents =>
      rw [List.length_replicate] at full
      omega
  · next whole =>
    have zero : length % block_size.toNat = 0 := by
      rw [← counts.counted, not_not.mp whole]
      rfl
    have nothing : missing block_size length = 0 := by rw [missing, zero, Nat.sub_zero, Nat.mod_self]
    rw [nothing, List.replicate_zero, scatterFrom_nil]
    exact ⟨writer, rfl, rfl⟩

end ZeroPadExtentWriter

section Runs

variable {limits : WriteLimits} (succeeds : ∀ call, (limits call).isSome)
variable {block_size : UInt32} (positive : 0 < block_size.toNat)
variable {extents : List Extent} (fits : ∀ extent ∈ extents, extent.Fits block_size)
include succeeds positive fits

theorem DirectExtentWriter.run_spec (fd : Descriptor) (chunks : List (List UInt8)) :
    ∃ writer, (DirectExtentWriter.functions limits).run .new fd extents block_size chunks =
        some (decide (chunks.flatten.length ≤ capacity block_size extents), writer) ∧
      writer.fd_.contents = scatter block_size extents chunks.flatten fd.contents := by
  have written := DirectExtentWriter.writeChunks_spec succeeds (.start fd positive fits) positive fits chunks
  have start : (DirectExtentWriter.functions limits).Init .new fd extents block_size =
      some (true, DirectExtentWriter.new.Init fd extents block_size) := rfl
  rw [ExtentWriter.run, start]
  dsimp only [Option.bind_eq_bind, Option.bind_some]
  generalize (DirectExtentWriter.functions limits).writeChunks _ chunks = result at written ⊢
  cases written with
  | accepted wrote =>
    have room := wrote.room
    refine ⟨_, ?_, wrote.contents⟩
    rw [capacity, decide_eq_true (by omega)]
    rfl
  | rejected full contents =>
    refine ⟨_, ?_, contents⟩
    rw [capacity, decide_eq_false (by omega)]
    rfl

theorem ZeroPadExtentWriter.run_spec (fd : Descriptor) {chunks : List (List UInt8)}
    (sized : ∀ chunk ∈ chunks, chunk.length + block_size.toNat < 2 ^ 32) :
    ∃ writer, (ZeroPadExtentWriter.functions (DirectExtentWriter.functions limits)).run (.new .new) fd extents
        block_size chunks = some (decide (chunks.flatten.length ≤ capacity block_size extents), writer) ∧
      writer.underlying_extent_writer_.fd_.contents = scatter block_size extents
        (chunks.flatten ++ List.replicate (missing block_size chunks.flatten.length) 0) fd.contents := by
  have start : (ZeroPadExtentWriter.functions (DirectExtentWriter.functions limits)).Init (.new .new) fd extents
      block_size = some (true, ⟨DirectExtentWriter.new.Init fd extents block_size, block_size, 0⟩) := rfl
  have counts : Counts block_size ⟨DirectExtentWriter.new.Init fd extents block_size, block_size, 0⟩ 0 :=
    ⟨rfl, (Nat.zero_mod _).symm⟩
  rw [ExtentWriter.run, start]
  dsimp only [Option.bind_eq_bind, Option.bind_some]
  obtain ⟨middle, rest, used, run, counted, wrote⟩ | ⟨full, after, run, contents⟩ :=
    writeChunks_spec succeeds positive (DirectExtentWriter.At.start fd positive fits) counts fits sized
  · have room := wrote.room
    have padded := missing_le positive (dvd_roomFrom extents) (show chunks.flatten.length ≤ _ by omega)
    rw [zero_add] at counted
    obtain ⟨after, ended, contents⟩ := EndImpl_spec succeeds positive wrote.at_ counted wrote.fits (by omega)
    refine ⟨after, ?_, ?_⟩
    · rw [run, capacity, decide_eq_true (by omega)]
      exact ended
    · exact contents.trans (wrote.scattered _).symm
  · refine ⟨after, ?_, ?_⟩
    · rw [run, capacity, decide_eq_false (by omega)]
      rfl
    · rw [contents, scatter, scatterFrom_full block_size _ _ full.le]
      rfl

end Runs

end ChromiumOS.UpdateEngine
