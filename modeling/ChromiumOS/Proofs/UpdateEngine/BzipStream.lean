import ChromiumOS.Model.UpdateEngine.BzipExtentWriter
import ChromiumOS.ToMathlib.StreamDecoder

/-! # What a bzip2 writer accepts

Between two calls the stream has taken everything that was written and nothing is kept back, until the end of
the stream: what is kept then is what came behind it, and nothing more is accepted. The writer does not ask
whether the end was reached, so it accepts the start of a stream as well, and an error that hides behind more
output than the writer makes room for.
-/

namespace ChromiumOS.UpdateEngine

open StreamDecoder

variable {Stream Writer : Type}

def BzCode.outcome : BzCode → Outcome
  | BZ_OK => .more
  | BZ_STREAM_END => .finished
  | BZ_SEQUENCE_ERROR => .failed
  | BZ_PARAM_ERROR => .failed
  | BZ_MEM_ERROR => .failed
  | BZ_DATA_ERROR => .failed
  | BZ_DATA_ERROR_MAGIC => .failed

/-- `BZ2_bzDecompress` as a step of a decoder. -/
def Bzlib.step (bzlib : Bzlib Stream) (stream : Stream) (input : List UInt8) (room : ℕ) : Step Stream UInt8 where
  outcome := (bzlib.BZ2_bzDecompress stream input room).code.outcome
  consumed := (bzlib.BZ2_bzDecompress stream input room).consumed
  output := (bzlib.BZ2_bzDecompress stream input room).output
  stream := (bzlib.BZ2_bzDecompress stream input room).stream

/-- A library that decompresses a format as its manual says. -/
structure Bzlib.Follows (bzlib : Bzlib Stream) (format : Format UInt8 UInt8) where
  decoder : Decoder format bzlib.BZ2_bzDecompressInit.2 bzlib.step
  starts : bzlib.BZ2_bzDecompressInit.1 = .BZ_OK
  stops : ∀ {stream}, decoder.Ended stream → ∀ input room, (bzlib.step stream input room).outcome = .failed
  ends : ∀ stream, bzlib.BZ2_bzDecompressEnd stream = .BZ_OK

/-- A writer together with the bytes that were passed to it. -/
def ExtentWriter.recording (next : ExtentWriter Writer) : ExtentWriter (Writer × List UInt8) where
  Init writer fd extents block_size :=
    (next.Init writer.1 fd extents block_size).map fun result => (result.1, result.2, writer.2)
  Write writer bytes := (next.Write writer.1 bytes).map fun result => (result.1, result.2, writer.2 ++ bytes)
  End writer := (next.End writer.1).map fun result => (result.1, result.2, writer.2)

namespace BzipExtentWriter

variable {bzlib : Bzlib Stream} {format : Format UInt8 UInt8} (follows : bzlib.Follows format)
variable {next : ExtentWriter Writer}

/-- Data without an end that a writer can fail to refuse. -/
def Overlooked : Scan UInt8 → Prop
  | .incomplete _ => True
  | .complete _ _ => False
  | .corrupt output => kOutputBufferLength < output.length

theorem Overlooked.of_long {scan : Scan UInt8} (open_ended : ¬ scan.IsComplete)
    (long : kOutputBufferLength < scan.output.length) : Overlooked scan := by
  cases scan with
  | incomplete output => trivial
  | complete used output => exact open_ended trivial
  | corrupt output => exact long

/-- What a successful loop has come to on some input after what was taken before. -/
inductive Came (fed input : List UInt8) (after : BzipExtentWriter Stream (Writer × List UInt8)) : ℕ → Prop
  | on (taken : follows.decoder.Fed after.stream_ (fed ++ input) after.next_.2)
      (overlooked : Overlooked (format.scan (fed ++ input))) : Came fed input after 0
  | finished (used left : ℕ) (ended : follows.decoder.Ended after.stream_)
      (complete : format.scan (fed ++ input) = .complete used after.next_.2)
      (rest : fed.length + input.length = used + left) (inside : left ≤ input.length) :
      Came fed input after left

theorem Came.later {fed input : List UInt8} {count : ℕ} {left : ℕ}
    {after : BzipExtentWriter Stream (Writer × List UInt8)}
    (came : Came follows (fed ++ input.take count) (input.drop count) after left) :
    Came follows fed input after left := by
  have whole : fed ++ input.take count ++ input.drop count = fed ++ input := by
    rw [List.append_assoc, List.take_append_drop]
  cases came with
  | on taken overlooked =>
    rw [whole] at taken overlooked
    exact .on taken overlooked
  | finished used _ ended complete rest inside =>
    rw [whole] at complete
    rw [List.length_append, List.length_take, List.length_drop] at rest
    rw [List.length_drop] at inside
    exact .finished used left ended complete (by omega) (by omega)

theorem recording_Write {writer after : Writer × List UInt8} {bytes : List UInt8} {written : Bool}
    (wrote : next.recording.Write writer bytes = some (written, after)) : after.2 = writer.2 ++ bytes := by
  obtain ⟨result, -, same⟩ := Option.map_eq_some_iff.mp wrote
  cases same
  rfl

/-- What a turn that the loop succeeds after has done. -/
theorem writeLoop_succ {turns : ℕ} {writer after : BzipExtentWriter Stream (Writer × List UInt8)}
    {next_in : List UInt8} {left : ℕ} {step : Step Stream UInt8}
    (same : bzlib.step writer.stream_ next_in kOutputBufferLength = step)
    (run : writeLoop bzlib next.recording (turns + 1) writer next_in = some (true, after, left)) :
    step.outcome ≠ .failed ∧
      (step.output = [] ∧ after.stream_ = step.stream ∧ after.next_.2 = writer.next_.2 ∧
          left = (next_in.drop step.consumed).length ∨
        step.output ≠ [] ∧ (step.outcome = .finished → next_in.drop step.consumed = []) ∧
          ∃ next_, next_.2 = writer.next_.2 ++ step.output ∧
            (next_in.drop step.consumed = [] ∧ after.stream_ = step.stream ∧ after.next_ = next_ ∧ left = 0 ∨
              next_in.drop step.consumed ≠ [] ∧
                writeLoop bzlib next.recording turns
                  { next_ := next_, stream_ := step.stream, input_buffer_ := writer.input_buffer_ }
                  (next_in.drop step.consumed) = some (true, after, left))) := by
  subst same
  rw [writeLoop] at run
  dsimp only [Bzlib.step] at run ⊢
  generalize bzlib.BZ2_bzDecompress writer.stream_ next_in kOutputBufferLength = result at run ⊢
  split at run
  · simp at run
  next no_error =>
  have fine : result.code.outcome ≠ .failed := by
    intro failed
    apply no_error
    constructor
    · intro ok
      rw [ok] at failed
      cases failed
    · intro ended
      rw [ended] at failed
      cases failed
  refine ⟨fine, ?_⟩
  split at run
  · next nothing =>
    simp only [Option.some.injEq, Prod.mk.injEq] at run
    obtain ⟨-, rfl, rfl⟩ := run
    exact .inl ⟨nothing, rfl, rfl, rfl⟩
  next some_output =>
  simp only [Option.bind_eq_bind, Option.bind_eq_some_iff] at run
  obtain ⟨⟨written, next_⟩, wrote, run⟩ := run
  dsimp only at run
  split at run
  · simp at run
  split at run
  · simp at run
  next no_check =>
  have ended : result.code.outcome = .finished → next_in.drop result.consumed = [] := by
    intro finished
    by_contra rest
    apply no_check
    refine ⟨?_, rest⟩
    generalize result.code = code at finished
    cases code <;> first | rfl | cases finished
  refine .inr ⟨some_output, ended, next_, recording_Write wrote, ?_⟩
  split at run
  · next all =>
    simp only [Option.some.injEq, Prod.mk.injEq] at run
    obtain ⟨-, rfl, rfl⟩ := run
    exact .inl ⟨all, rfl, rfl, rfl⟩
  · next rest => exact .inr ⟨rest, run⟩

theorem writeLoop_true {turns : ℕ} (writer : BzipExtentWriter Stream (Writer × List UInt8))
    {after : BzipExtentWriter Stream (Writer × List UInt8)} {fed next_in : List UInt8} {left : ℕ}
    (taken : follows.decoder.Fed writer.stream_ fed writer.next_.2)
    (run : writeLoop bzlib next.recording turns writer next_in = some (true, after, left)) :
    Came follows fed next_in after left := by
  induction turns generalizing writer fed next_in with
  | zero => simp [writeLoop] at run
  | succ turns ih =>
    generalize same : bzlib.step writer.stream_ next_in kOutputBufferLength = step
    obtain ⟨fine, done⟩ := writeLoop_succ same run
    rcases Nat.lt_or_ge (writer.next_.2.length + kOutputBufferLength)
      (format.scan (fed ++ next_in)).output.length with narrow | roomy
    · obtain ⟨more, filled, consumed, open_ended, later⟩ := follows.decoder.narrow taken next_in _ narrow
      rw [same] at more filled consumed open_ended later
      have some_output : step.output ≠ [] := by
        intro nothing
        rw [nothing] at filled
        exact absurd filled (by decide)
      suffices came : Came follows (fed ++ next_in.take step.consumed) (next_in.drop step.consumed) after left from
        came.later
      obtain ⟨nothing, -⟩ | ⟨-, -, next_, passed, ⟨all, stream, writers, rfl⟩ | ⟨-, run⟩⟩ := done
      · exact absurd nothing some_output
      · have whole : next_in.take step.consumed = next_in := List.take_of_length_le (List.drop_eq_nil_iff.mp all)
        rw [whole] at open_ended later ⊢
        rw [all]
        apply Came.on
        · rw [List.append_nil, stream, writers, passed]
          exact later
        · rw [List.append_nil]
          exact .of_long open_ended (by omega)
      · apply ih _ _ run
        dsimp only
        rw [passed]
        exact later
    · obtain ⟨output, consumed, settled⟩ := follows.decoder.roomy taken next_in _ roomy
      rw [same] at output consumed settled
      have passed_all : after.next_.2 = (format.scan (fed ++ next_in)).output ∧ after.stream_ = step.stream ∧
          left = (next_in.drop step.consumed).length ∨
          step.outcome ≠ .finished ∧ next_in.drop step.consumed ≠ [] := by
        obtain ⟨nothing, stream, writers, rest⟩ | ⟨-, ended, next_, passed, ⟨all, stream, writers, rfl⟩ | ⟨rest, -⟩⟩ :=
          done
        · rw [nothing, List.append_nil] at output
          exact .inl ⟨writers.trans output, stream, rest⟩
        · rw [all]
          exact .inl ⟨by rw [writers, passed, output], stream, rfl⟩
        · exact .inr ⟨fun finished => rest (ended finished), rest⟩
      cases scanned : format.scan (fed ++ next_in) with
      | incomplete whole =>
        rw [scanned] at output settled passed_all
        obtain ⟨-, all, later⟩ := settled
        have nothing_left : next_in.drop step.consumed = [] := List.drop_of_length_le all.ge
        obtain ⟨writers, stream, rest⟩ | ⟨-, rest⟩ := passed_all
        · rw [nothing_left, List.length_nil] at rest
          subst rest
          apply Came.on
          · rw [writers, stream, ← output]
            exact later
          · rw [scanned]
            trivial
        · exact absurd nothing_left rest
      | complete used whole =>
        rw [scanned] at output settled passed_all
        obtain ⟨finished, used_eq, ended⟩ := settled
        obtain ⟨writers, stream, rest⟩ | ⟨unfinished, -⟩ := passed_all
        · rw [List.length_drop] at rest
          apply Came.finished used
          · rw [stream]
            exact ended
          · rw [scanned, writers]
            rfl
          · omega
          · omega
        · exact absurd finished unfinished
      | corrupt whole =>
        rw [scanned] at settled
        exact absurd settled fine

/-- Where the writer stands after some bytes were written. -/
inductive Position (given : List UInt8) (writer : BzipExtentWriter Stream (Writer × List UInt8)) : Prop
  | on (taken : follows.decoder.Fed writer.stream_ given writer.next_.2)
      (overlooked : Overlooked (format.scan given)) (buffer : writer.input_buffer_ = [])
  | finished (used : ℕ) (ended : follows.decoder.Ended writer.stream_)
      (complete : format.scan given = .complete used writer.next_.2)
      (buffer : writer.input_buffer_ = given.drop used)

theorem Write_true {turns : ℕ} {given bytes : List UInt8}
    {writer after : BzipExtentWriter Stream (Writer × List UInt8)} (position : Position follows given writer)
    (run : writer.Write bzlib next.recording turns bytes = some (true, after)) :
    Position follows (given ++ bytes) after := by
  simp only [Write, Option.bind_eq_bind, Option.bind_eq_some_iff] at run
  obtain ⟨⟨written, middle, left⟩, loop, run⟩ := run
  dsimp only at run
  split at run
  · next success =>
    simp only [Option.some.injEq, Prod.mk.injEq, true_and] at run
    rw [success] at loop
    subst run
    cases position with
    | on taken overlooked buffer =>
      have came := writeLoop_true follows ⟨writer.next_, writer.stream_, writer.input_buffer_ ++ bytes⟩ taken loop
      rw [buffer, List.nil_append] at came ⊢
      cases came with
      | on taken overlooked =>
        exact .on taken overlooked (by rw [Nat.sub_zero, List.drop_length])
      | finished used _ ended complete rest inside =>
        refine .finished used ended complete ?_
        have behind : used = given.length + (bytes.length - left) := by omega
        dsimp only
        rw [behind, List.drop_length_add_append]
    | finished used ended complete buffer =>
      cases turns with
      | zero => simp [writeLoop] at loop
      | succ turns =>
        obtain ⟨fine, -⟩ := writeLoop_succ rfl loop
        exact absurd (follows.stops ended _ _) fine
  · simp at run

theorem writeChunks_true {turns : ℕ} {chunks : List (List UInt8)} {given : List UInt8}
    {writer after : BzipExtentWriter Stream (Writer × List UInt8)} (position : Position follows given writer)
    (run : (functions bzlib next.recording turns).writeChunks writer chunks = some (true, after)) :
    Position follows (given ++ chunks.flatten) after := by
  induction chunks generalizing given writer with
  | nil =>
    simp only [ExtentWriter.writeChunks, Option.some.injEq, Prod.mk.injEq, true_and] at run
    subst run
    rw [List.flatten_nil, List.append_nil]
    exact position
  | cons chunk chunks ih =>
    simp only [ExtentWriter.writeChunks, Option.bind_eq_bind, Option.bind_eq_some_iff] at run
    obtain ⟨⟨written, middle⟩, wrote, run⟩ := run
    dsimp only at run
    split at run
    · next success =>
      rw [success] at wrote
      have later := ih (Write_true follows position wrote) run
      rw [List.append_assoc] at later
      exact later
    · simp at run

theorem Init_true {writer : Writer} {stream : Stream} {fd : Descriptor} {extents : List Extent}
    {block_size : UInt32} {after : BzipExtentWriter Stream (Writer × List UInt8)} {initialised : Bool}
    (run : (new (writer, []) stream).Init bzlib next.recording fd extents block_size = some (initialised, after)) :
    Position follows [] after := by
  simp only [Init, follows.starts, ne_eq, not_true_eq_false, if_false, Option.bind_eq_bind,
    Option.bind_eq_some_iff] at run
  obtain ⟨⟨result, next_⟩, init, run⟩ := run
  obtain ⟨_, -, same⟩ := Option.map_eq_some_iff.mp init
  cases same
  cases run
  refine .on follows.decoder.start ?_ rfl
  rw [format.empty.eq]
  trivial

theorem EndImpl_true {writer after : BzipExtentWriter Stream (Writer × List UInt8)}
    (run : writer.EndImpl bzlib next.recording = some (true, after)) :
    writer.input_buffer_ = [] ∧ after.next_.2 = writer.next_.2 := by
  rw [EndImpl] at run
  split at run
  · simp at run
  next empty =>
  split at run
  · simp at run
  simp only [Option.bind_eq_bind, Option.bind_eq_some_iff] at run
  obtain ⟨⟨result, next_⟩, ended, run⟩ := run
  obtain ⟨_, -, same⟩ := Option.map_eq_some_iff.mp ended
  simp only [Prod.mk.injEq] at same
  obtain ⟨-, rfl⟩ := same
  simp only [Option.some.injEq, Prod.mk.injEq] at run
  obtain ⟨-, rfl⟩ := run
  exact ⟨not_not.mp empty, rfl⟩

include follows in
/-- When all calls succeed the bytes were one whole stream, or their end was overlooked. -/
theorem run_true {turns : ℕ} {chunks : List (List UInt8)} {writer : Writer} {stream : Stream} {fd : Descriptor}
    {extents : List Extent} {block_size : UInt32}
    {after : BzipExtentWriter Stream (Writer × List UInt8)}
    (run : (functions bzlib next.recording turns).run (new (writer, []) stream) fd extents block_size chunks =
      some (true, after)) :
    format.scan chunks.flatten = .complete chunks.flatten.length after.next_.2 ∨
      Overlooked (format.scan chunks.flatten) := by
  simp only [ExtentWriter.run, Option.bind_eq_bind, Option.bind_eq_some_iff] at run
  obtain ⟨⟨initialised, started⟩, init, run⟩ := run
  dsimp only at run
  split at run
  · simp only [Option.bind_eq_some_iff] at run
    obtain ⟨⟨written, middle⟩, chunked, run⟩ := run
    dsimp only at run
    split at run
    · next all =>
      rw [all] at chunked
      have position := writeChunks_true follows (Init_true follows init) chunked
      obtain ⟨buffer, passed⟩ := EndImpl_true run
      rw [List.nil_append] at position
      cases position with
      | on taken overlooked _ => exact .inr overlooked
      | finished used ended complete rest =>
        have inside := format.used_le complete
        rw [buffer, eq_comm, List.drop_eq_nil_iff] at rest
        have whole : used = chunks.flatten.length := by omega
        rw [complete, passed, whole]
        exact .inl rfl
    · simp at run
  · simp at run

/-- A writer that takes everything. -/
def accepting : ExtentWriter Unit where
  Init writer _ _ _ := some (true, writer)
  Write writer _ := some (true, writer)
  End writer := some (true, writer)

def eagerCode (ended : Bool) : Outcome → BzCode
  | .more => .BZ_OK
  | .finished => .BZ_STREAM_END
  | .failed => if ended then .BZ_SEQUENCE_ERROR else .BZ_DATA_ERROR

/-- A library that takes all the input that it can. -/
def eagerBzlib (format : Format UInt8 UInt8) : Bzlib (Eager UInt8) where
  BZ2_bzDecompressInit := (.BZ_OK, Eager.init)
  BZ2_bzDecompress stream input room :=
    { code := eagerCode stream.ended (stream.step format input room).outcome
      consumed := (stream.step format input room).consumed
      output := (stream.step format input room).output
      stream := (stream.step format input room).stream }
  BZ2_bzDecompressEnd _ := .BZ_OK

theorem eagerBzlib_step (format : Format UInt8 UInt8) : (eagerBzlib format).step = Eager.step format := by
  funext stream input room
  have code : ∀ outcome, (eagerCode stream.ended outcome).outcome = outcome := by
    intro outcome
    cases outcome with
    | more => rfl
    | finished => rfl
    | failed => cases stream.ended <;> rfl
  rw [Bzlib.step]
  dsimp only [eagerBzlib]
  rw [code]

/-- It follows its format. -/
def eagerFollows (format : Format UInt8 UInt8) : (eagerBzlib format).Follows format where
  decoder :=
    { Fed := Eager.Fed format
      Ended := fun stream => stream.ended = true
      start := (Decoder.eager format).start
      roomy := eagerBzlib_step format ▸ (Decoder.eager format).roomy
      narrow := eagerBzlib_step format ▸ (Decoder.eager format).narrow }
  starts := rfl
  stops := by
    intro stream ended input room
    rw [eagerBzlib_step]
    exact Eager.step_ended format ended input room
  ends _ := rfl

/-- It takes the whole of such data at once. -/
theorem eager_overlooks {format : Format UInt8 UInt8} {data : List UInt8}
    (overlooked : Overlooked (format.scan data)) :
    (Eager.init.step format data kOutputBufferLength).outcome = .more ∧
      (Eager.init.step format data kOutputBufferLength).consumed = data.length := by
  simp only [Eager.step, Eager.init, List.nil_append, List.length_nil, zero_add, Nat.sub_zero, List.drop_zero,
    Bool.false_eq_true, if_false]
  cases scanned : format.scan data with
  | incomplete output => split <;> exact ⟨rfl, rfl⟩
  | complete used output =>
    rw [scanned] at overlooked
    exact overlooked.elim
  | corrupt output =>
    rw [scanned] at overlooked
    have long : ¬ (Scan.corrupt output).output.length ≤ kOutputBufferLength := not_le.mpr overlooked
    rw [if_neg long]
    exact ⟨rfl, rfl⟩

theorem eager_accepts {format : Format UInt8 UInt8} {data : List UInt8}
    (overlooked : Overlooked (format.scan data)) (fd : Descriptor) (extents : List Extent) (block_size : UInt32) :
    ∃ after, (functions (eagerBzlib format) accepting.recording 1).run (new ((), []) Eager.init) fd extents
      block_size [data] = some (true, after) := by
  obtain ⟨more, consumed⟩ := eager_overlooks overlooked
  have loop : ∃ after, writeLoop (eagerBzlib format) accepting.recording 1
      { next_ := ((), []), stream_ := Eager.init, input_buffer_ := data } data = some (true, after, 0) := by
    simp only [writeLoop, eagerBzlib, consumed, more, eagerCode, List.drop_length, ne_eq, not_true_eq_false,
      false_and, if_false]
    split
    · exact ⟨_, rfl⟩
    · exact ⟨_, rfl⟩
  obtain ⟨after, loop⟩ := loop
  refine ⟨{ after with input_buffer_ := [] }, ?_⟩
  have wrote : (functions (eagerBzlib format) accepting.recording 1).writeChunks (new ((), []) Eager.init) [data] =
      some (true, { after with input_buffer_ := [] }) := by
    simp only [ExtentWriter.writeChunks, functions, Write, new, List.nil_append, loop, Option.bind_eq_bind,
      Option.bind_some, if_true, Nat.sub_zero, List.drop_length]
  rw [ExtentWriter.run]
  change Option.bind (some (true, new ((), []) Eager.init)) _ = _
  simp only [Option.bind_some, if_true, wrote]
  rfl

/-- All bytes but the last of what `echo test | bzip2` writes. -/
def testBody : List UInt8 :=
  [0x42, 0x5a, 0x68, 0x39, 0x31, 0x41, 0x59, 0x26, 0x53, 0x59, 0xcc, 0xc3,
    0x71, 0xd4, 0x00, 0x00, 0x02, 0x41, 0x80, 0x00, 0x10, 0x02, 0x00, 0x0c,
    0x00, 0x20, 0x00, 0x21, 0x9a, 0x68, 0x33, 0x4d, 0x19, 0x97, 0x8b, 0xb9,
    0x22, 0x9c, 0x28, 0x48, 0x66, 0x61, 0xb8, 0xea]

/-- The format with this stream alone; it decompresses to the line. -/
def testFormat : Format UInt8 UInt8 := .single testBody 0x00 [0x74, 0x65, 0x73, 0x74, 0x0a]

end BzipExtentWriter

end ChromiumOS.UpdateEngine
