import ChromiumOS.Model.UpdateEngine.DownloadAction

/-! # What a successful download has written

A direct writer takes all of its bytes or reports an error, and a chunk that is not written is not
hashed. The decompressing writer drains zlib after every chunk, but it forgets about failed writes
and returns zero when zlib fails, so it writes the whole decompression only if neither happens and
the downloaded bytes are a whole gzip stream.
-/

namespace ChromiumOS.UpdateEngine

namespace DirectFileWriter

/-- Without an error every byte is taken, and an error needs a byte to write. -/
theorem writeLoop_spec {replies rest : List WriteReply} {bytes taken : List UInt8}
    {error : Option ℕ+} (wrote : writeLoop replies bytes = some (taken, rest, error)) :
    (error = none → taken = bytes) ∧ (error ≠ none → bytes ≠ []) := by
  induction replies generalizing bytes taken with
  | nil =>
    cases bytes with
    | nil =>
      obtain ⟨rfl, -, rfl⟩ : [] = taken ∧ [] = rest ∧ none = error := by simpa [writeLoop] using wrote
      exact ⟨fun _ => rfl, fun wrong => absurd rfl wrong⟩
    | cons byte bytes => exact absurd wrote (by simp [writeLoop])
  | cons reply replies ih =>
    cases bytes with
    | nil =>
      obtain ⟨rfl, -, rfl⟩ : [] = taken ∧ reply :: replies = rest ∧ none = error := by
        simpa [writeLoop] using wrote
      exact ⟨fun _ => rfl, fun wrong => absurd rfl wrong⟩
    | cons byte bytes =>
      refine ⟨fun success => ?_, fun _ => List.cons_ne_nil _ _⟩
      cases reply with
      | failed errno =>
        obtain ⟨-, -, rfl⟩ : [] = taken ∧ replies = rest ∧ some errno = error := by
          simpa [writeLoop] using wrote
        exact absurd success (by simp)
      | wrote count =>
        rw [writeLoop] at wrote
        · obtain ⟨⟨later, remaining, failure⟩, looped, same⟩ := Option.bind_eq_some_iff.mp wrote
          obtain ⟨rfl, rfl, rfl⟩ : (byte :: bytes).take count ++ later = taken ∧ remaining = rest ∧
              failure = error := by simpa using same
          rw [(ih looped).1 success, List.take_append_drop]
        · simp

variable {writer next : DirectFileWriter} {bytes : List UInt8} {rc : ℤ}

/-- Either every byte is taken and counted, or a byte was there and its error is reported. -/
theorem Write_cases (wrote : writer.Write bytes = some (rc, next)) :
    (rc = bytes.length ∧ next.accepted = writer.accepted ++ bytes ∧ next.errors = writer.errors) ∨
      (rc < 0 ∧ bytes ≠ [] ∧ ∃ errno, next.errors = writer.errors ++ [errno]) := by
  rw [Write] at wrote
  split at wrote
  · exact absurd wrote (by simp)
  obtain ⟨⟨taken, rest, error⟩, looped, same⟩ := Option.bind_eq_some_iff.mp wrote
  obtain ⟨whole, someByte⟩ := writeLoop_spec looped
  cases error with
  | none =>
    obtain ⟨rfl, rfl⟩ : (bytes.length : ℤ) = rc ∧ _ = next := by simpa using same
    exact .inl ⟨rfl, by rw [whole rfl], rfl⟩
  | some errno =>
    obtain ⟨rfl, rfl⟩ : -(errno : ℤ) = rc ∧ _ = next := by simpa using same
    have positive := errno.pos
    exact .inr ⟨by omega, someByte (by simp), errno, rfl⟩

theorem Write_errors (wrote : writer.Write bytes = some (rc, next)) : writer.errors <+: next.errors := by
  obtain ⟨-, -, same⟩ | ⟨-, -, errno, more⟩ := Write_cases wrote
  · exact same ▸ List.prefix_rfl
  · rw [more]
    exact List.prefix_append _ _

/-- Without an error nothing is lost. -/
theorem Write_of_errors (wrote : writer.Write bytes = some (rc, next)) (none : next.errors = []) :
    rc = bytes.length ∧ next.accepted = writer.accepted ++ bytes := by
  obtain ⟨count, accepted, -⟩ | ⟨-, -, errno, more⟩ := Write_cases wrote
  · exact ⟨count, accepted⟩
  · exact absurd (more.symm.trans none) (by simp)

end DirectFileWriter

section Zlib

variable {Stream : Type} (zlib : Zlib Stream)

/-- A stream that took some input and gave some output, in calls none of which failed. -/
inductive Zlib.Fed : Stream → List UInt8 → List UInt8 → Prop
  | init : Fed zlib.init [] []
  | inflate {stream : Stream} {consumed output : List UInt8} (fed : Fed stream consumed output)
      (input : List UInt8) (room : ℕ)
      (fine : (zlib.inflate stream input room).code.isFatal = false) :
      Fed (zlib.inflate stream input room).stream
        (consumed ++ input.take (zlib.inflate stream input room).consumed)
        (output ++ (zlib.inflate stream input room).output)

/-- What a zlib promises about the streams of a format: nothing is not one, and a call with room
that leaves no input and gives nothing has given all of the stream before, if that is complete. -/
structure Zlib.Decodes (decompress : List UInt8 → Option (List UInt8)) : Prop where
  empty : decompress [] = none
  drained : ∀ {stream consumed output input room all}, zlib.Fed stream consumed output → 0 < room →
    (zlib.inflate stream input room).code.isFatal = false →
    (zlib.inflate stream input room).output = [] →
    input.drop (zlib.inflate stream input room).consumed = [] →
    decompress (consumed ++ input) = some all → output = all

end Zlib

namespace GzipDecompressingFileWriter

variable {Stream : Type} {zlib : Zlib Stream} {decompress : List UInt8 → Option (List UInt8)}
variable {writer next : GzipDecompressingFileWriter Stream} {rc : ℤ}

/-- The state of a writer between chunks, when nothing has gone wrong: zlib took every byte and the
file has all of its output. -/
structure Drained (zlib : Zlib Stream) (decompress : List UInt8 → Option (List UInt8))
    (writer : GzipDecompressingFileWriter Stream) (consumed : List UInt8) : Prop where
  fed : zlib.Fed writer.stream_ consumed writer.next_.accepted
  avail_in : writer.avail_in = []
  complete : ∀ all, decompress consumed = some all → writer.next_.accepted = all

/-- The writer after one `inflate`. -/
def advance (zlib : Zlib Stream) (writer : GzipDecompressingFileWriter Stream) :
    GzipDecompressingFileWriter Stream :=
  let inflated := zlib.inflate writer.stream_ writer.avail_in bufSize
  { writer with
    stream_ := inflated.stream
    avail_in := writer.avail_in.drop inflated.consumed
    codes := writer.codes ++ [inflated.code] }

/-- One turn of the loop: zlib failed, gave something to write, or has nothing more to give. -/
theorem inflateLoop_cases {turns count : ℕ}
    (looped : inflateLoop zlib (turns + 1) writer count = some (rc, next)) :
    let inflated := zlib.inflate writer.stream_ writer.avail_in bufSize
    (inflated.code.isFatal = true ∧ next = writer.advance zlib) ∨
      (inflated.code.isFatal = false ∧ ∃ ignored file,
        writer.next_.Write inflated.output = some (ignored, file) ∧
        inflateLoop zlib turns { writer.advance zlib with next_ := file } count = some (rc, next)) ∨
      (inflated.code.isFatal = false ∧ inflated.output = [] ∧
        writer.avail_in.drop inflated.consumed = [] ∧ rc = count ∧ next = writer.advance zlib) := by
  rw [inflateLoop] at looped
  dsimp only at looped ⊢
  split at looped
  · next fatal =>
    obtain ⟨-, rfl⟩ : 0 = rc ∧ writer.advance zlib = next := by simpa [advance] using looped
    exact .inl ⟨fatal, rfl⟩
  · next fine =>
    rw [Bool.not_eq_true] at fine
    split at looped
    · obtain ⟨⟨ignored, file⟩, wrote, looped⟩ := Option.bind_eq_some_iff.mp looped
      exact .inr (.inl ⟨fine, ignored, file, wrote, looped⟩)
    · next silent =>
      split at looped
      · exact absurd looped (by simp)
      · next taken =>
        obtain ⟨rfl, rfl⟩ : (count : ℤ) = rc ∧ writer.advance zlib = next := by
          simpa [advance] using looped
        exact .inr (.inr ⟨fine, not_not.mp silent, not_not.mp taken, rfl, rfl⟩)

/-- The codes and errors of a loop come after those from before. -/
theorem inflateLoop_grows (writer : GzipDecompressingFileWriter Stream) {turns count : ℕ}
    (looped : inflateLoop zlib turns writer count = some (rc, next)) :
    (writer.advance zlib).codes <+: next.codes ∧ writer.next_.errors <+: next.next_.errors := by
  induction turns generalizing writer with
  | zero => exact absurd looped (by simp [inflateLoop])
  | succ turns ih =>
    obtain ⟨-, rfl⟩ | ⟨-, ignored, file, wrote, looped⟩ | ⟨-, -, -, -, rfl⟩ := inflateLoop_cases looped
    · exact ⟨List.prefix_rfl, List.prefix_rfl⟩
    · obtain ⟨codes, errors⟩ := ih { writer.advance zlib with next_ := file } looped
      exact ⟨(List.prefix_append _ _).trans codes, (DirectFileWriter.Write_errors wrote).trans errors⟩
    · exact ⟨List.prefix_rfl, List.prefix_rfl⟩

/-- Nothing has gone wrong in a writer so far. -/
structure Clean (writer : GzipDecompressingFileWriter Stream) : Prop where
  codes : ∀ code ∈ writer.codes, code.isFatal = false
  errors : writer.next_.errors = []

/-- The loop hands all of its input to zlib and all of the output to the file. -/
theorem inflateLoop_drains (decodes : zlib.Decodes decompress)
    (writer : GzipDecompressingFileWriter Stream) {turns count : ℕ} {consumed : List UInt8}
    (fed : zlib.Fed writer.stream_ consumed writer.next_.accepted)
    (looped : inflateLoop zlib turns writer count = some (rc, next)) (clean : next.Clean) :
    rc = count ∧ Drained zlib decompress next (consumed ++ writer.avail_in) := by
  induction turns generalizing writer consumed with
  | zero => exact absurd looped (by simp [inflateLoop])
  | succ turns ih =>
    have returned := clean.codes (zlib.inflate writer.stream_ writer.avail_in bufSize).code
      ((inflateLoop_grows writer looped).1.subset (by simp [advance]))
    have advanced := fed.inflate writer.avail_in bufSize returned
    obtain ⟨fatal, -⟩ | ⟨-, ignored, file, wrote, later⟩ | ⟨-, silent, taken, rfl, rfl⟩ :=
      inflateLoop_cases looped
    · exact absurd fatal (by rw [returned]; decide)
    · have errors : file.errors <+: next.next_.errors :=
        (inflateLoop_grows { writer.advance zlib with next_ := file } later).2
      rw [clean.errors, List.prefix_nil] at errors
      rw [← (DirectFileWriter.Write_of_errors wrote errors).2] at advanced
      have result := ih { writer.advance zlib with next_ := file } advanced later
      rwa [List.append_assoc, advance, List.take_append_drop] at result
    · have input : writer.avail_in.take (zlib.inflate writer.stream_ writer.avail_in bufSize).consumed =
          writer.avail_in := List.take_of_length_le (List.drop_eq_nil_iff.mp taken)
      rw [silent, List.append_nil, input] at advanced
      refine ⟨rfl, advanced, taken, fun whole decompressed => ?_⟩
      exact decodes.drained fed (by decide) returned silent taken decompressed

/-- A chunk on a drained writer leaves it drained. -/
theorem Drained.Write (decodes : zlib.Decodes decompress) {turns : ℕ} {consumed bytes : List UInt8}
    (drained : Drained zlib decompress writer consumed)
    (wrote : writer.Write zlib turns bytes = some (rc, next)) (clean : next.Clean) :
    rc = bytes.length ∧ Drained zlib decompress next (consumed ++ bytes) := by
  rw [GzipDecompressingFileWriter.Write, if_neg (not_not_intro drained.avail_in)] at wrote
  exact inflateLoop_drains decodes { writer with avail_in := bytes } drained.fed wrote clean

/-- A chunk cleans up nothing. -/
theorem Clean.of_Write {turns : ℕ} {bytes : List UInt8}
    (wrote : writer.Write zlib turns bytes = some (rc, next)) (clean : next.Clean) : writer.Clean := by
  rw [GzipDecompressingFileWriter.Write] at wrote
  split at wrote
  · obtain ⟨-, rfl⟩ : -1 = rc ∧ writer = next := by simpa using wrote
    exact clean
  · obtain ⟨codes, errors⟩ := inflateLoop_grows { writer with avail_in := bytes } wrote
    rw [clean.errors] at errors
    refine ⟨fun code member => ?_, List.prefix_nil.mp errors⟩
    exact clean.codes code (((List.prefix_append _ _).trans codes).subset member)

end GzipDecompressingFileWriter

namespace DownloadAction

variable {Stream Digest : Type} {zlib : Zlib Stream}
variable {hash : List UInt8 → Digest} {decompress : List UInt8 → Option (List UInt8)} {turns : ℕ}

/-- The downloaded bytes. -/
def delivered (chunks : List Chunk) : List UInt8 := (chunks.map Chunk.bytes).flatten

section Steps

variable {action next : DownloadAction Stream Digest}

/-- What a chunk does to the writer and to the hash. -/
theorem ReceivedBytes_cases {chunk : Chunk}
    (received : action.ReceivedBytes zlib turns chunk = some next) :
    ∃ rc, action.file_writer.Write zlib turns chunk.bytes = some (rc, next.file_writer) ∧
      next.hash_ = action.hash_ ∧ next.omaha_hash_calculator_.data =
        action.omaha_hash_calculator_.data ++ if 0 ≤ rc then chunk.bytes else [] := by
  rw [ReceivedBytes] at received
  split at received
  swap
  · exact absurd received (by simp)
  obtain ⟨⟨rc, file_writer⟩, wrote, received⟩ := Option.bind_eq_some_iff.mp received
  dsimp only at received
  split at received
  · next nonneg =>
    rw [OmahaHashCalculator.Update] at received
    split at received
    · exact absurd received (by simp)
    · obtain rfl := Option.some.inj received
      exact ⟨rc, wrote, rfl, by rw [if_pos nonneg]⟩
  · next negative =>
    obtain rfl := Option.some.inj received
    exact ⟨rc, wrote, rfl, by rw [if_neg negative, List.append_nil]⟩

/-- A statement about an action and the bytes delivered to it that every chunk preserves. -/
theorem received_invariant (invariant : DownloadAction Stream Digest → List UInt8 → Prop)
    (step : ∀ {action next chunk bytes}, invariant action bytes →
      ReceivedBytes zlib turns action chunk = some next → invariant next (bytes ++ chunk.bytes))
    {chunks : List Chunk} (bytes : List UInt8) (holds : invariant action bytes)
    (received : chunks.foldlM (ReceivedBytes zlib turns) action = some next) :
    invariant next (bytes ++ delivered chunks) := by
  induction chunks generalizing action bytes with
  | nil =>
    obtain rfl := Option.some.inj received
    rwa [delivered, List.map_nil, List.flatten_nil, List.append_nil]
  | cons chunk chunks ih =>
    rw [List.foldlM_cons] at received
    obtain ⟨middle, first, rest⟩ := Option.bind_eq_some_iff.mp received
    have result := ih _ (step holds first) rest
    rwa [List.append_assoc] at result

private theorem close_keeps {rc : ℤ} (closed : action.close rc = some next) :
    next.file_writer.bottom.accepted = action.file_writer.bottom.accepted ∧
      next.file_writer.bottom.errors = action.file_writer.bottom.errors ∧
      next.file_writer.codes = action.file_writer.codes ∧
      next.omaha_hash_calculator_ = action.omaha_hash_calculator_ ∧ next.hash_ = action.hash_ := by
  rw [close] at closed
  obtain ⟨⟨result, file_writer⟩, closing, closed⟩ := Option.bind_eq_some_iff.mp closed
  dsimp only at closed
  split at closed
  · exact absurd closed (by simp)
  obtain rfl := Option.some.inj closed
  cases shape : action.file_writer with
  | direct writer =>
    rw [shape, FileWriter.Close, DirectFileWriter.Close] at closing
    split at closing
    · exact absurd closing (by simp)
    · obtain ⟨-, rfl⟩ : rc = result ∧ _ = file_writer := by simpa using closing
      exact ⟨rfl, rfl, rfl, rfl, rfl⟩
  | gzip writer =>
    rw [shape, FileWriter.Close, DirectFileWriter.Close] at closing
    split at closing
    · exact absurd closing (by simp)
    · obtain ⟨-, rfl⟩ : rc = result ∧ _ = file_writer := by simpa using closing
      exact ⟨rfl, rfl, rfl, rfl, rfl⟩

/-- Closing the writer changes neither what it wrote nor what was hashed. -/
theorem closeWriter_keeps {rc : ℤ} (closed : action.closeWriter rc = some next) :
    next.file_writer.bottom.accepted = action.file_writer.bottom.accepted ∧
      next.file_writer.bottom.errors = action.file_writer.bottom.errors ∧
      next.file_writer.codes = action.file_writer.codes ∧
      next.omaha_hash_calculator_ = action.omaha_hash_calculator_ ∧ next.hash_ = action.hash_ := by
  rw [closeWriter] at closed
  split at closed
  · exact close_keeps closed
  · obtain rfl := Option.some.inj closed
    exact ⟨rfl, rfl, rfl, rfl, rfl⟩

/-- Success means that the hash of what was hashed is the expected one. -/
theorem TransferComplete_success [DecidableEq Digest] {rc : ℤ} {successful : Bool}
    (completed : action.TransferComplete hash rc successful = some (true, next)) :
    next.file_writer.bottom.accepted = action.file_writer.bottom.accepted ∧
      next.file_writer.bottom.errors = action.file_writer.bottom.errors ∧
      next.file_writer.codes = action.file_writer.codes ∧
      next.omaha_hash_calculator_.data = action.omaha_hash_calculator_.data ∧
      hash action.omaha_hash_calculator_.data = action.hash_ := by
  rw [TransferComplete] at completed
  obtain ⟨middle, closing, completed⟩ := Option.bind_eq_some_iff.mp completed
  have kept := closeWriter_keeps closing
  obtain ⟨accepted, errors, codes, calculator, expected⟩ := kept
  split at completed
  swap
  · exact absurd completed (by simp)
  rw [OmahaHashCalculator.Finalize] at completed
  split at completed
  · exact absurd completed (by simp)
  simp only [Option.bind_eq_bind, Option.bind_some, Option.some.injEq, Prod.mk.injEq,
    decide_eq_true_eq] at completed
  obtain ⟨same, rfl⟩ := completed
  have data := congrArg OmahaHashCalculator.data calculator
  rw [data, expected] at same
  exact ⟨accepted, errors, codes, data, same⟩

end Steps

/-- A download that succeeds, step by step. -/
theorem download_steps [DecidableEq Digest] {plan : InstallPlan Digest} {replies : FileReplies}
    {chunks : List Chunk} {successful : Bool} {last : DownloadAction Stream Digest}
    (downloaded : download zlib hash turns plan replies chunks successful = some (true, last)) :
    ∃ opened received, PerformAction zlib plan replies = some (true, opened) ∧
      chunks.foldlM (ReceivedBytes zlib turns) opened = some received ∧
      received.TransferComplete hash replies.close successful = some (true, last) := by
  rw [download] at downloaded
  obtain ⟨⟨success, opened⟩, performed, downloaded⟩ := Option.bind_eq_some_iff.mp downloaded
  dsimp only at downloaded
  split at downloaded
  · next opening =>
    obtain ⟨received, folded, completed⟩ := Option.bind_eq_some_iff.mp downloaded
    exact ⟨opened, received, by rw [performed, opening], folded, completed⟩
  · exact absurd downloaded (by simp)

section Modes

/-- A direct action after some bytes: it has written and hashed all of them, or hashed fewer. -/
def DirectAfter (action : DownloadAction Stream Digest) (bytes : List UInt8) : Prop :=
  ∃ writer, action.file_writer = .direct writer ∧
    ((writer.accepted = bytes ∧ action.omaha_hash_calculator_.data = bytes) ∨
      (writer.errors ≠ [] ∧ action.omaha_hash_calculator_.data.length < bytes.length))

/-- A decompressing action after some bytes: unless something went wrong, its writer is drained. -/
def GzipAfter (zlib : Zlib Stream) (decompress : List UInt8 → Option (List UInt8))
    (action : DownloadAction Stream Digest) (bytes : List UInt8) : Prop :=
  ∃ writer, action.file_writer = .gzip writer ∧ (writer.Clean → writer.Drained zlib decompress bytes)

variable {action next : DownloadAction Stream Digest} {chunk : Chunk} {bytes : List UInt8}

theorem DirectAfter.receive (after : action.DirectAfter bytes)
    (received : action.ReceivedBytes zlib turns chunk = some next) :
    next.DirectAfter (bytes ++ chunk.bytes) := by
  obtain ⟨writer, shape, state⟩ := after
  obtain ⟨rc, wrote, -, hashed⟩ := ReceivedBytes_cases received
  rw [shape, FileWriter.Write] at wrote
  obtain ⟨⟨count, file⟩, writing, same⟩ := Option.map_eq_some_iff.mp wrote
  obtain ⟨rfl, fileEq⟩ : count = rc ∧ .direct file = next.file_writer := by simpa using same
  refine ⟨file, fileEq.symm, ?_⟩
  rw [hashed]
  obtain ⟨rfl, accepted, errors⟩ | ⟨negative, nonempty, errno, errors⟩ :=
    DirectFileWriter.Write_cases writing
  · rw [if_pos (by omega), accepted, errors]
    obtain ⟨written, data⟩ | ⟨failed, fewer⟩ := state
    · exact .inl ⟨by rw [written], by rw [data]⟩
    · refine .inr ⟨failed, ?_⟩
      rw [List.length_append, List.length_append]
      omega
  · rw [if_neg (by omega), List.append_nil]
    have more := List.length_pos_of_ne_nil nonempty
    refine .inr ⟨by simp [errors], ?_⟩
    rw [List.length_append]
    obtain ⟨-, data⟩ | ⟨-, fewer⟩ := state
    · rw [data]
      omega
    · omega

theorem GzipAfter.receive (decodes : zlib.Decodes decompress)
    (after : action.GzipAfter zlib decompress bytes)
    (received : action.ReceivedBytes zlib turns chunk = some next) :
    next.GzipAfter zlib decompress (bytes ++ chunk.bytes) := by
  obtain ⟨writer, shape, state⟩ := after
  obtain ⟨rc, wrote, -, -⟩ := ReceivedBytes_cases received
  rw [shape, FileWriter.Write] at wrote
  obtain ⟨⟨count, file⟩, writing, same⟩ := Option.map_eq_some_iff.mp wrote
  obtain ⟨rfl, fileEq⟩ : count = rc ∧ .gzip file = next.file_writer := by simpa using same
  refine ⟨file, fileEq.symm, fun clean => ?_⟩
  exact ((state (.of_Write writing clean)).Write decodes writing clean).2

end Modes

section Whole

variable [DecidableEq Digest]

/-- The file has every output byte of the plan: the downloaded ones, or for a full update all of
their decompression. -/
def Intact (decompress : List UInt8 → Option (List UInt8)) (plan : InstallPlan Digest)
    (bytes file : List UInt8) : Prop :=
  if plan.is_full_update then decompress bytes = some file else file = bytes

/-- The downloads in which no step loses output. For a full update no `write` fails, zlib reports no
error and the downloaded bytes are a whole stream; otherwise no `write` fails, or the downloaded
bytes are the expected ones. -/
def LosesNothing (decompress : List UInt8 → Option (List UInt8)) (plan : InstallPlan Digest)
    (payload bytes : List UInt8) (last : DownloadAction Stream Digest) : Prop :=
  if plan.is_full_update then
    last.file_writer.bottom.errors = [] ∧ (∀ code ∈ last.file_writer.codes, code.isFatal = false) ∧
      (decompress bytes).isSome
  else last.file_writer.bottom.errors = [] ∨ bytes = payload

omit [DecidableEq Digest] in
/-- An opened action has written and hashed nothing. -/
theorem PerformAction_spec (decodes : zlib.Decodes decompress) {plan : InstallPlan Digest}
    {replies : FileReplies} {success : Bool} {opened : DownloadAction Stream Digest}
    (performed : PerformAction zlib plan replies = some (success, opened)) :
    opened.hash_ = plan.download_hash ∧
      if plan.is_full_update then opened.GzipAfter zlib decompress [] else opened.DirectAfter [] := by
  rw [PerformAction] at performed
  obtain ⟨⟨rc, file_writer⟩, opening, performed⟩ := Option.bind_eq_some_iff.mp performed
  obtain ⟨-, rfl⟩ : _ = success ∧ _ = opened := by simpa using performed
  refine ⟨rfl, ?_⟩
  split
  · next full =>
    rw [if_pos full] at opening
    obtain ⟨-, rfl⟩ : _ = rc ∧ _ = file_writer := by
      simpa [FileWriter.Open, DirectFileWriter.Open] using opening
    refine ⟨_, rfl, fun _ => ⟨.init, rfl, fun all whole => ?_⟩⟩
    rw [decodes.empty] at whole
    exact absurd whole (by simp)
  · next delta =>
    rw [if_neg delta] at opening
    obtain ⟨-, rfl⟩ : _ = rc ∧ _ = file_writer := by
      simpa [FileWriter.Open, DirectFileWriter.Open] using opening
    exact ⟨_, rfl, .inl ⟨rfl, rfl⟩⟩

/-- A download that succeeds without losing anything has written every output byte in order. -/
theorem download_intact (decodes : zlib.Decodes decompress) {plan : InstallPlan Digest}
    {replies : FileReplies} {chunks : List Chunk} {successful : Bool} {payload : List UInt8}
    {last : DownloadAction Stream Digest} (expected : hash payload = plan.download_hash)
    (noCollision : hash last.omaha_hash_calculator_.data = hash payload →
      last.omaha_hash_calculator_.data = payload)
    (losesNothing : LosesNothing decompress plan payload (delivered chunks) last)
    (downloaded : download zlib hash turns plan replies chunks successful = some (true, last)) :
    Intact decompress plan (delivered chunks) last.file_writer.bottom.accepted := by
  obtain ⟨opened, received, performed, folded, completed⟩ := download_steps downloaded
  obtain ⟨accepted, errors, codes, data, success⟩ := TransferComplete_success completed
  obtain ⟨hashEq, start⟩ := PerformAction_spec decodes performed
  rw [LosesNothing, errors, codes] at losesNothing
  rw [Intact, accepted]
  split
  · next full =>
    rw [if_pos full] at start losesNothing
    obtain ⟨noErrors, noFatal, whole⟩ := losesNothing
    obtain ⟨writer, shape, state⟩ := received_invariant _ (.receive decodes) _ start folded
    rw [shape] at noErrors noFatal
    obtain ⟨all, decompressed⟩ := Option.isSome_iff_exists.mp whole
    rw [shape, decompressed, FileWriter.bottom, (state ⟨noFatal, noErrors⟩).complete all decompressed]
  · next delta =>
    rw [if_neg delta] at start losesNothing
    obtain ⟨writer, shape, state⟩ := received_invariant _ .receive _ start folded
    rw [List.nil_append] at state
    rw [shape] at losesNothing ⊢
    obtain ⟨written, -⟩ | ⟨failed, fewer⟩ := state
    · exact written
    · have sameHash := received_invariant (fun action _ => action.hash_ = plan.download_hash)
        (fun same step => (ReceivedBytes_cases step).choose_spec.2.1.trans same) []
        hashEq folded
      rw [data, success, sameHash, ← expected] at noCollision
      rcases losesNothing with noErrors | same
      · exact absurd noErrors failed
      · rw [noCollision rfl, same] at fewer
        exact absurd fewer (lt_irrefl _)

end Whole

section OneStream

/-- The letter A, compressed by `gzip`. -/
def gzipOfA : List UInt8 :=
  [0x1f, 0x8b, 0x08, 0x00, 0x00, 0x00, 0x00, 0x00, 0x02, 0x03, 0x73, 0x04, 0x00, 0x8b, 0x9e, 0xd9,
    0xd3, 0x01, 0x00, 0x00, 0x00]

/-- A zlib that knows only this stream; its state is what it has taken, or `none` at the end. -/
def oneStream : Zlib (Option (List UInt8)) where
  init := some []
  inflate stream input room :=
    match stream with
    | none => ⟨.Z_STREAM_END, 0, [], none⟩
    | some consumed =>
      let rest := gzipOfA.drop consumed.length
      if input = [] ∨ room = 0 then ⟨.Z_BUF_ERROR, 0, [], some consumed⟩
      else if rest.isPrefixOf input then ⟨.Z_STREAM_END, rest.length, [0x41], none⟩
      else if input.isPrefixOf rest then ⟨.Z_OK, input.length, [], some (consumed ++ input)⟩
      else ⟨.Z_DATA_ERROR, 0, [], some consumed⟩

def decompressOne (bytes : List UInt8) : Option (List UInt8) :=
  if bytes = gzipOfA then some [0x41] else none

/-- What has been taken and given, by the state. -/
theorem oneStream_fed {stream : Option (List UInt8)} {consumed output : List UInt8}
    (fed : oneStream.Fed stream consumed output) :
    (stream = some consumed ∧ output = [] ∧ ∃ rest, rest ≠ [] ∧ consumed ++ rest = gzipOfA) ∨
      (stream = none ∧ consumed = gzipOfA ∧ output = [0x41]) := by
  induction fed with
  | init => exact .inl ⟨rfl, rfl, gzipOfA, by decide, rfl⟩
  | inflate fed input room fine ih =>
    obtain ⟨rfl, rfl, rest, nonempty, whole⟩ | ⟨rfl, rfl, rfl⟩ := ih
    swap
    · exact .inr ⟨rfl, by simp [oneStream], by simp [oneStream]⟩
    rename_i consumed
    have remaining : gzipOfA.drop consumed.length = rest := by rw [← whole, List.drop_left]
    simp only [oneStream, remaining] at fine ⊢
    split at fine
    · next stuck =>
      simp only [stuck, if_true, List.take_zero, List.append_nil]
      exact .inl ⟨trivial, trivial, rest, nonempty, whole⟩
    · next moving =>
      simp only [moving, if_false]
      split at fine
      · next finishing =>
        obtain ⟨extra, rfl⟩ := List.isPrefixOf_iff_prefix.mp finishing
        simp only [finishing, if_true, List.take_left, List.nil_append]
        exact .inr ⟨trivial, whole, trivial⟩
      · next longer =>
        simp only [longer]
        split at fine
        · next inside =>
          obtain ⟨more, rfl⟩ := List.isPrefixOf_iff_prefix.mp inside
          simp only [inside, if_true, if_false, Bool.false_eq_true, List.take_length, List.append_nil]
          refine .inl ⟨trivial, trivial, more, ?_, by rw [List.append_assoc, whole]⟩
          rintro rfl
          rw [List.append_nil] at longer
          exact longer (List.isPrefixOf_iff_prefix.mpr List.prefix_rfl)
        · exact absurd fine (by simp [ZlibCode.isFatal])

theorem oneStream_decodes : oneStream.Decodes decompressOne where
  empty := by decide
  drained := by
    intro stream consumed output input room all fed positive fine silent taken whole
    rw [decompressOne] at whole
    split at whole
    swap
    · exact absurd whole (by simp)
    next complete =>
    obtain rfl := Option.some.inj whole
    obtain ⟨rfl, rfl, rest, nonempty, split⟩ | ⟨-, -, rfl⟩ := oneStream_fed fed
    swap
    · rfl
    rw [← split, List.append_cancel_left_eq] at complete
    subst complete
    have remaining : gzipOfA.drop consumed.length = input := by rw [← split, List.drop_left]
    simp only [oneStream, remaining] at silent
    rw [if_neg (by simp [nonempty, positive.ne']),
      if_pos (List.isPrefixOf_iff_prefix.mpr List.prefix_rfl)] at silent
    exact absurd silent (by simp)

def hashOfA (bytes : List UInt8) : String :=
  if bytes = gzipOfA then "iuILlJGnEBvYTPvROrrbHFeIyn0=" else ""

/-- A full update to one byte. -/
def planOfA : InstallPlan String where
  is_full_update := true
  download_url := "http://127.0.0.1:8080/A.gz"
  download_hash := "iuILlJGnEBvYTPvROrrbHFeIyn0="
  install_path := "/dev/sda3"

def chunkOfA : Chunk := ⟨gzipOfA, by decide⟩

/-- The action at the end of such a download. -/
def finishedA (accepted : List UInt8) (errors : List ℕ+) :
    DownloadAction (Option (List UInt8)) String where
  hash_ := planOfA.download_hash
  file_writer := .gzip
    { next_ := { fd_ := -2, accepted, errors, replies := [] }
      stream_ := none
      avail_in := []
      codes := [.Z_STREAM_END, .Z_STREAM_END] }
  writer_ := false
  omaha_hash_calculator_ := { data := gzipOfA, hash_ := some planOfA.download_hash }

theorem download_intact_A :
    Intact decompressOne planOfA (delivered [chunkOfA]) (finishedA [0x41] []).file_writer.bottom.accepted := by
  have downloaded : download oneStream hashOfA 2 planOfA ⟨3, 1, [.wrote 1], 0⟩ [chunkOfA] true =
      some (true, finishedA [0x41] []) := by rfl
  exact download_intact oneStream_decodes (show hashOfA gzipOfA = planOfA.download_hash from rfl) (fun _ => rfl)
    ⟨rfl, by decide, rfl⟩ downloaded

/-- A disk that is full does not keep the download from succeeding. -/
theorem download_loses_A : oneStream.Decodes decompressOne ∧
    download oneStream hashOfA 2 planOfA ⟨3, 1, [.failed 28], 0⟩ [chunkOfA] true =
      some (true, finishedA [] [28]) ∧
    hashOfA gzipOfA = planOfA.download_hash ∧
    (finishedA [] [28]).omaha_hash_calculator_.data = gzipOfA ∧
    ¬ Intact decompressOne planOfA (delivered [chunkOfA]) (finishedA [] [28]).file_writer.bottom.accepted := by
  refine ⟨oneStream_decodes, rfl, rfl, rfl, fun intact => ?_⟩
  have lost : some [(0x41 : UInt8)] = some [] := intact
  exact absurd lost (by simp)

end OneStream

end DownloadAction

end ChromiumOS.UpdateEngine
