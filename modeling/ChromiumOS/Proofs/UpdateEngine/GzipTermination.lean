import ChromiumOS.Model.UpdateEngine.Gzip
import ChromiumOS.ToMathlib.StreamDecoder

/-! # When decompressing in memory ends

A turn of the loop fills the buffer or decides what the data is. Data that goes on to be the start of a stream
is never decided, so the buffer is doubled until its size wraps around; and so it is when what comes out does
not fit into the largest size that can be doubled to.
-/

namespace ChromiumOS.UpdateEngine

open StreamDecoder

variable {Stream : Type}

def ZlibCode.outcome : ZlibCode → Outcome
  | Z_OK => .more
  | Z_BUF_ERROR => .more
  | Z_STREAM_END => .finished
  | Z_NEED_DICT => .failed
  | Z_STREAM_ERROR => .failed
  | Z_DATA_ERROR => .failed
  | Z_MEM_ERROR => .failed

/-- `inflate` as a step of a decoder. -/
def Inflater.step (zlib : Inflater Stream) (stream : Stream) (input : List UInt8) (room : ℕ) :
    Step Stream UInt8 where
  outcome := (zlib.inflate stream input room).code.outcome
  consumed := (zlib.inflate stream input room).consumed
  output := (zlib.inflate stream input room).output
  stream := (zlib.inflate stream input room).stream

/-- A library that decompresses a format as its manual says. -/
structure Inflater.Follows (zlib : Inflater Stream) (format : Format UInt8 UInt8) where
  decoder : Decoder format zlib.inflateInit2.2 zlib.step
  starts : zlib.inflateInit2.1 = .Z_OK
  ends : ∀ stream, zlib.inflateEnd stream = .Z_OK

/-- A whole stream starts the data, or there is no data. -/
def Decompresses (format : Format UInt8 UInt8) (data out : List UInt8) : Prop :=
  data = [] ∧ out = [] ∨ ∃ used, format.scan data = .complete used out

/-- Every size is the double of the one before, the first that of the data. -/
def NoWrap (count : ℕ) (sizes : List ℕ) : Prop :=
  ∀ index size, sizes[index]? = some size → size = count * 2 ^ (index + 1)

/-- A run without a size that wrapped around. What it gives out when it succeeds is what the data decompresses
to, and it succeeds on every stream that there is memory for. -/
structure Decompressed.Right (format : Format UInt8 UInt8) (allocates : ℕ → Bool) (data : List UInt8)
    (run : Decompressed) : Prop where
  sizes : NoWrap data.length run.sizes
  sound : run.result = true → Decompresses format data run.out ∧ run.out_size = run.out.length
  succeeds : (∀ size, 0 < size → allocates size = true) →
    ∀ out, Decompresses format data out → run.result = true

/-- Decompression ends as it should, whatever there is memory for. -/
def EndsWell (zlib : Inflater Stream) (format : Format UInt8 UInt8) (data : List UInt8) : Prop :=
  ∀ allocates : ℕ → Bool, ∃ turns run,
    GzipDecompressData zlib allocates turns data = some run ∧ run.Right format allocates data

/-- A size that the buffer is doubled to, and that holds what comes out. -/
def Fits (format : Format UInt8 UInt8) (data : List UInt8) : Prop :=
  ∃ doublings, data.length * 2 ^ (doublings + 1) < 2 ^ 32 ∧
    (format.scan data).output.length ≤ data.length * 2 ^ (doublings + 1)

theorem NoWrap.append {count last : ℕ} {sizes : List ℕ} (kept : NoWrap count sizes)
    (right : last = count * 2 ^ (sizes.length + 1)) : NoWrap count (sizes ++ [last]) := by
  intro index size found
  rcases Nat.lt_or_ge index sizes.length with before | behind
  · rw [List.getElem?_append_left before] at found
    exact kept index size found
  · rw [List.getElem?_append_right behind, List.getElem?_singleton] at found
    split at found
    · next first =>
      cases found
      have here : index = sizes.length := by omega
      rw [here]
      exact right
    · cases found

/-- A wrong size stays in the sizes. -/
theorem NoWrap.last {count last : ℕ} {sizes all : List ℕ} (kept : NoWrap count all)
    (before : sizes ++ [last] <+: all) : last = count * 2 ^ (sizes.length + 1) := by
  apply kept sizes.length last
  obtain ⟨rest, rfl⟩ := before
  rw [List.append_assoc, List.getElem?_append_right le_rfl, Nat.sub_self]
  rfl

section Loop

variable {zlib : Inflater Stream} {allocates : ℕ → Bool} {stream : Stream} {next_in out : List UInt8}
variable {avail_out out_size : ℕ} {sizes : List ℕ}

theorem inflateTurns_finished (turns : ℕ) (finished : (zlib.step stream next_in avail_out).outcome = .finished) :
    inflateTurns zlib allocates (turns + 1) stream next_in out avail_out out_size sizes =
      some ⟨decide (zlib.inflateEnd (zlib.step stream next_in avail_out).stream = .Z_OK),
        out ++ (zlib.step stream next_in avail_out).output,
        (out ++ (zlib.step stream next_in avail_out).output).length, sizes⟩ := by
  rw [inflateTurns]
  dsimp only [Inflater.step] at finished ⊢
  cases code : (zlib.inflate stream next_in avail_out).code with
  | Z_STREAM_END => rfl
  | _ =>
    rw [code] at finished
    cases finished

theorem inflateTurns_failed (turns : ℕ) (failed : (zlib.step stream next_in avail_out).outcome = .failed) :
    inflateTurns zlib allocates (turns + 1) stream next_in out avail_out out_size sizes =
      some ⟨false, [], out_size, sizes⟩ := by
  rw [inflateTurns]
  dsimp only [Inflater.step] at failed ⊢
  cases code : (zlib.inflate stream next_in avail_out).code with
  | Z_OK =>
    rw [code] at failed
    cases failed
  | Z_BUF_ERROR =>
    rw [code] at failed
    cases failed
  | Z_STREAM_END =>
    rw [code] at failed
    cases failed
  | _ => rfl

theorem inflateTurns_more (turns : ℕ) (more : (zlib.step stream next_in avail_out).outcome = .more) :
    inflateTurns zlib allocates (turns + 1) stream next_in out avail_out out_size sizes =
      if allocates (doubled out_size) then
        inflateTurns zlib allocates turns (zlib.step stream next_in avail_out).stream
          (next_in.drop (zlib.step stream next_in avail_out).consumed)
          (out ++ (zlib.step stream next_in avail_out).output)
          ((doubled out_size + 2 ^ 32 - (out ++ (zlib.step stream next_in avail_out).output).length) % 2 ^ 32)
          (doubled out_size) (sizes ++ [doubled out_size])
      else some ⟨false, [], doubled out_size, sizes ++ [doubled out_size]⟩ := by
  rw [inflateTurns]
  dsimp only [Inflater.step] at more ⊢
  cases code : (zlib.inflate stream next_in avail_out).code with
  | Z_OK => rfl
  | Z_BUF_ERROR => rfl
  | _ =>
    rw [code] at more
    cases more

theorem inflateTurns_sizes {turns : ℕ} {run : Decompressed}
    (returned : inflateTurns zlib allocates turns stream next_in out avail_out out_size sizes = some run) :
    sizes <+: run.sizes := by
  induction turns generalizing stream next_in out avail_out out_size sizes with
  | zero => cases returned
  | succ turns ih =>
    cases outcome : (zlib.step stream next_in avail_out).outcome with
    | finished =>
      rw [inflateTurns_finished turns outcome] at returned
      cases returned
      exact List.prefix_rfl
    | failed =>
      rw [inflateTurns_failed turns outcome] at returned
      cases returned
      exact List.prefix_rfl
    | more =>
      rw [inflateTurns_more turns outcome] at returned
      split at returned
      · exact (List.prefix_append _ _).trans (ih returned)
      · cases returned
        exact List.prefix_append _ _

variable {format : Format UInt8 UInt8} (follows : zlib.Follows format) (data : List UInt8)

/-- Where the loop stands before a turn: the buffer was doubled some times, and what is put out is in it. -/
structure Stands (stream : Stream) (next_in out : List UInt8) (avail_out out_size doublings : ℕ) : Prop where
  taken : ∃ fed, fed ++ next_in = data ∧ follows.decoder.Fed stream fed out
  room : out.length + avail_out = out_size
  size : out_size = data.length * 2 ^ (doublings + 1)
  small : out_size < 2 ^ 32

variable {follows data} {doublings : ℕ}

/-- A turn that fills the buffer or takes all of the start of a stream. -/
theorem Stands.more (stands : Stands follows data stream next_in out avail_out out_size doublings)
    (open_ended : out_size < (format.scan data).output.length ∨ (format.scan data).IsIncomplete) :
    (zlib.step stream next_in avail_out).outcome = .more ∧
      (out ++ (zlib.step stream next_in avail_out).output).length ≤ out_size ∧
      ∃ fed, fed ++ next_in.drop (zlib.step stream next_in avail_out).consumed = data ∧
        follows.decoder.Fed (zlib.step stream next_in avail_out).stream fed
          (out ++ (zlib.step stream next_in avail_out).output) := by
  obtain ⟨fed, whole, taken⟩ := stands.taken
  have room := stands.room
  rw [List.length_append]
  rcases Nat.lt_or_ge (out.length + avail_out) (format.scan (fed ++ next_in)).output.length with narrow | roomy
  · obtain ⟨more, filled, -, -, later⟩ := follows.decoder.narrow taken next_in avail_out narrow
    refine ⟨more, by omega, _, ?_, later⟩
    rw [List.append_assoc, List.take_append_drop]
    exact whole
  · obtain ⟨output, -, settled⟩ := follows.decoder.roomy taken next_in avail_out roomy
    have lengths := congrArg List.length output
    rw [List.length_append] at lengths
    rw [whole] at roomy settled lengths
    have incomplete : (format.scan data).IsIncomplete := open_ended.resolve_left (by omega)
    rw [incomplete.eq] at settled
    obtain ⟨more, all, later⟩ := settled
    refine ⟨more, by omega, _, ?_, later⟩
    rw [all, List.drop_length, List.append_nil]
    exact whole

/-- The next size, when it does not wrap around. -/
theorem Stands.next (stands : Stands follows data stream next_in out avail_out out_size doublings)
    (open_ended : out_size < (format.scan data).output.length ∨ (format.scan data).IsIncomplete)
    (fits : data.length * 2 ^ (doublings + 2) < 2 ^ 32) :
    Stands follows data (zlib.step stream next_in avail_out).stream
      (next_in.drop (zlib.step stream next_in avail_out).consumed)
      (out ++ (zlib.step stream next_in avail_out).output)
      ((doubled out_size + 2 ^ 32 - (out ++ (zlib.step stream next_in avail_out).output).length) % 2 ^ 32)
      (doubled out_size) (doublings + 1) := by
  obtain ⟨-, inside, taken⟩ := stands.more open_ended
  have twice : out_size * 2 = data.length * 2 ^ (doublings + 2) := by
    rw [stands.size]
    ring
  have size : doubled out_size = data.length * 2 ^ (doublings + 2) := by
    rw [doubled, twice]
    exact Nat.mod_eq_of_lt fits
  refine ⟨taken, ?_, size, size ▸ fits⟩
  generalize (out ++ (zlib.step stream next_in avail_out).output).length = length at inside ⊢
  rw [← size] at twice fits
  omega

/-- A turn with room for all that comes out decides. -/
theorem inflateTurns_decided (turns : ℕ)
    (stands : Stands follows data stream next_in out avail_out out_size doublings)
    (decided : ¬ (format.scan data).IsIncomplete) (roomy : (format.scan data).output.length ≤ out_size)
    (kept : NoWrap data.length sizes) (some_data : data ≠ []) :
    ∃ run, inflateTurns zlib allocates (turns + 1) stream next_in out avail_out out_size sizes = some run ∧
      run.Right format allocates data := by
  obtain ⟨fed, whole, taken⟩ := stands.taken
  have room := stands.room
  obtain ⟨output, -, settled⟩ := follows.decoder.roomy taken next_in avail_out (by rw [whole]; omega)
  rw [whole] at output settled
  cases scanned : format.scan data with
  | incomplete other =>
    rw [scanned] at decided
    exact absurd trivial decided
  | complete used other =>
    rw [scanned] at output settled
    refine ⟨_, inflateTurns_finished turns settled.1, kept, ?_, ?_⟩
    · intro _
      refine ⟨.inr ⟨used, ?_⟩, rfl⟩
      rw [scanned, output]
      rfl
    · intro _ _ _
      exact decide_eq_true (follows.ends _)
  | corrupt other =>
    rw [scanned] at settled
    refine ⟨_, inflateTurns_failed turns settled, kept, ?_, ?_⟩
    · intro success
      cases success
    · rintro - out (⟨nothing, -⟩ | ⟨used, complete⟩)
      · exact absurd nothing some_data
      · rw [scanned] at complete
        cases complete

/-- What data that is decided comes to, with doublings to come that make room for what comes out. -/
theorem inflateTurns_right {left : ℕ}
    (stands : Stands follows data stream next_in out avail_out out_size doublings)
    (decided : ¬ (format.scan data).IsIncomplete) (length : sizes.length = doublings + 1)
    (kept : NoWrap data.length sizes) (small : data.length * 2 ^ (doublings + left + 1) < 2 ^ 32)
    (enough : (format.scan data).output.length ≤ data.length * 2 ^ (doublings + left + 1))
    (some_data : data ≠ []) :
    ∃ run, inflateTurns zlib allocates (left + 1) stream next_in out avail_out out_size sizes = some run ∧
      run.Right format allocates data := by
  induction left generalizing stream next_in out avail_out out_size sizes doublings with
  | zero =>
    rw [Nat.add_zero, ← stands.size] at enough
    exact inflateTurns_decided 0 stands decided enough kept some_data
  | succ left ih =>
    rcases Nat.lt_or_ge out_size (format.scan data).output.length with narrow | roomy
    · have fits : data.length * 2 ^ (doublings + 2) < 2 ^ 32 := by
        apply lt_of_le_of_lt _ small
        exact Nat.mul_le_mul_left _ (Nat.pow_le_pow_right (by decide) (by omega))
      have next := stands.next (.inl narrow) fits
      have longer := kept.append (next.size.trans (by rw [length]))
      rw [inflateTurns_more (left + 1) (stands.more (.inl narrow)).1]
      split
      · apply ih next
        · rw [List.length_append, length]
          rfl
        · exact longer
        · rw [add_right_comm doublings 1 left]
          exact small
        · rw [add_right_comm doublings 1 left]
          exact enough
      · next refused =>
        refine ⟨_, rfl, longer, ?_, ?_⟩
        · intro success
          cases success
        · intro memory
          refine absurd (memory _ ?_) refused
          rw [next.size]
          exact Nat.mul_pos (List.length_pos_of_ne_nil some_data) (Nat.pow_pos (by decide))
    · exact inflateTurns_decided (left + 1) stands decided roomy kept some_data

/-- Without a size that is large enough every run that returns has wrapped around. -/
theorem inflateTurns_wraps {turns : ℕ} {run : Decompressed}
    (stands : Stands follows data stream next_in out avail_out out_size doublings)
    (endless : (format.scan data).IsIncomplete ∨ ¬ Fits format data) (length : sizes.length = doublings + 1)
    (some_data : data ≠ [])
    (returned : inflateTurns zlib (fun size => decide (0 < size)) turns stream next_in out avail_out out_size
      sizes = some run) :
    ¬ NoWrap data.length run.sizes := by
  induction turns generalizing stream next_in out avail_out out_size sizes doublings with
  | zero => cases returned
  | succ turns ih =>
    have open_ended : out_size < (format.scan data).output.length ∨ (format.scan data).IsIncomplete := by
      rcases endless with incomplete | large
      · exact .inr incomplete
      · left
        by_contra roomy
        apply large
        refine ⟨doublings, ?_, ?_⟩
        · rw [← stands.size]
          exact stands.small
        · rw [← stands.size]
          exact not_lt.mp roomy
    have positive : 0 < data.length * 2 ^ (doublings + 2) :=
      Nat.mul_pos (List.length_pos_of_ne_nil some_data) (Nat.pow_pos (by decide))
    rw [inflateTurns_more turns (stands.more open_ended).1] at returned
    rcases Nat.lt_or_ge (data.length * 2 ^ (doublings + 2)) (2 ^ 32) with fits | wraps
    · have next := stands.next open_ended fits
      have memory : decide (0 < doubled out_size) = true := by
        rw [decide_eq_true_eq, next.size]
        exact positive
      rw [if_pos memory] at returned
      apply ih next _ returned
      rw [List.length_append, length]
      rfl
    · intro kept
      have before : sizes ++ [doubled out_size] <+: run.sizes := by
        split at returned
        · exact inflateTurns_sizes returned
        · cases returned
          exact List.prefix_rfl
      have right : doubled out_size = data.length * 2 ^ (doublings + 2) := by
        rw [kept.last before, length]
      have wrapped : doubled out_size < 2 ^ 32 := Nat.mod_lt _ (by decide)
      omega

end Loop

/-- Where the loop starts, when the first size does not wrap around. -/
theorem Inflater.Follows.stands {zlib : Inflater Stream} {format : Format UInt8 UInt8}
    (follows : zlib.Follows format) {data : List UInt8} (fits : data.length * 2 < 2 ^ 32) :
    Stands follows data zlib.inflateInit2.2 data [] (doubled data.length) (doubled data.length) 0 where
  taken := ⟨[], rfl, follows.decoder.start⟩
  room := Nat.zero_add _
  size := Nat.mod_eq_of_lt fits
  small := Nat.mod_lt _ (by decide)

/-- What the function does with some data. -/
theorem GzipDecompressData_some {zlib : Inflater Stream} {format : Format UInt8 UInt8}
    (follows : zlib.Follows format) (allocates : ℕ → Bool) (turns : ℕ) {data : List UInt8}
    (some_data : data ≠ []) :
    GzipDecompressData zlib allocates turns data =
      if allocates (doubled data.length) then
        inflateTurns zlib allocates turns zlib.inflateInit2.2 data [] (doubled data.length) (doubled data.length)
          [doubled data.length]
      else some ⟨false, [], doubled data.length, [doubled data.length]⟩ := by
  rw [GzipDecompressData, if_neg (List.length_pos_of_ne_nil some_data).ne', if_neg (not_not.mpr follows.starts)]

/-- Decompression in memory ends as it should when the data is no start of a stream only, and a size that the
buffer is doubled to holds what comes out. -/
theorem gzip_ends_iff {zlib : Inflater Stream} {format : Format UInt8 UInt8} (follows : zlib.Follows format)
    (data : List UInt8) :
    EndsWell zlib format data ↔ data = [] ∨ ¬ (format.scan data).IsIncomplete ∧ Fits format data := by
  rcases eq_or_ne data [] with rfl | some_data
  · refine iff_of_true ?_ (.inl rfl)
    intro allocates
    refine ⟨0, _, rfl, ?_, ?_, ?_⟩
    · intro index size found
      cases found
    · exact fun _ => ⟨.inl ⟨rfl, rfl⟩, rfl⟩
    · exact fun _ _ _ => rfl
  rw [or_iff_right some_data]
  constructor
  · intro ends
    by_contra endless
    rw [not_and_or, not_not] at endless
    obtain ⟨turns, run, returned, right⟩ := ends fun size => decide (0 < size)
    rw [GzipDecompressData_some follows _ _ some_data] at returned
    have positive := List.length_pos_of_ne_nil some_data
    rcases Nat.lt_or_ge (data.length * 2) (2 ^ 32) with fits | wraps
    · have stands := follows.stands fits
      have memory : decide (0 < doubled data.length) = true := by
        rw [decide_eq_true_eq, stands.size]
        omega
      rw [if_pos memory] at returned
      exact inflateTurns_wraps stands endless rfl some_data returned right.sizes
    · have before : [] ++ [doubled data.length] <+: run.sizes := by
        split at returned
        · exact inflateTurns_sizes returned
        · cases returned
          exact List.prefix_rfl
      have first := right.sizes.last before
      have wrapped : doubled data.length < 2 ^ 32 := Nat.mod_lt _ (by decide)
      rw [List.length_nil, zero_add, pow_one] at first
      omega
  · rintro ⟨decided, doublings, small, enough⟩ allocates
    have fits : data.length * 2 < 2 ^ 32 := by
      apply lt_of_le_of_lt _ small
      exact Nat.mul_le_mul_left _ (Nat.le_self_pow (by omega) 2)
    have stands := follows.stands fits
    have kept : NoWrap data.length [doubled data.length] := by
      have nothing : NoWrap data.length [] := by
        intro index size found
        cases found
      exact nothing.append stands.size
    refine ⟨doublings + 1, ?_⟩
    rw [GzipDecompressData_some follows _ _ some_data]
    split
    · apply inflateTurns_right stands decided rfl kept
      · rw [zero_add]
        exact small
      · rw [zero_add]
        exact enough
      · exact some_data
    · next refused =>
      refine ⟨_, rfl, kept, ?_, ?_⟩
      · intro success
        cases success
      · intro memory
        refine absurd (memory _ ?_) refused
        rw [stands.size]
        exact Nat.mul_pos (List.length_pos_of_ne_nil some_data) (by decide)

/-- All bytes but the last of what `echo test | gzip -n9` writes. -/
def testGzipBody : List UInt8 :=
  [0x1f, 0x8b, 0x08, 0x00, 0x00, 0x00, 0x00, 0x00, 0x02, 0x03, 0x2b, 0x49,
    0x2d, 0x2e, 0xe1, 0x02, 0x00, 0xc6, 0x35, 0xb9, 0x3b, 0x05, 0x00, 0x00]

/-- The format with this stream alone; it decompresses to the line. -/
def testGzipFormat : Format UInt8 UInt8 := .single testGzipBody 0x00 [0x74, 0x65, 0x73, 0x74, 0x0a]

def eagerZlibCode : Outcome → ZlibCode
  | .more => .Z_BUF_ERROR
  | .finished => .Z_STREAM_END
  | .failed => .Z_DATA_ERROR

/-- A library that knows this stream. -/
def testInflater : Inflater (Eager UInt8) where
  inflateInit2 := (.Z_OK, Eager.init)
  inflate stream input room :=
    { code := eagerZlibCode (stream.step testGzipFormat input room).outcome
      consumed := (stream.step testGzipFormat input room).consumed
      output := (stream.step testGzipFormat input room).output
      stream := (stream.step testGzipFormat input room).stream }
  inflateEnd _ := .Z_OK

theorem testInflater_step : testInflater.step = Eager.step testGzipFormat := by
  funext stream input room
  have code : ∀ outcome, (eagerZlibCode outcome).outcome = outcome := by
    intro outcome
    cases outcome <;> rfl
  rw [Inflater.step]
  dsimp only [testInflater]
  rw [code]

/-- It follows the format. -/
def testInflaterFollows : testInflater.Follows testGzipFormat where
  decoder := testInflater_step ▸ Decoder.eager testGzipFormat
  starts := rfl
  ends _ := rfl

/-- The stream of the line fits into a buffer of twice its size. -/
theorem gzip_ends_iff_test : EndsWell testInflater testGzipFormat (testGzipBody ++ [0x00]) :=
  (gzip_ends_iff testInflaterFollows (testGzipBody ++ [0x00])).mpr
    (.inr ⟨by decide, 0, by decide, by decide⟩)

/-- The first byte of a stream has the buffer doubled until its size is zero. -/
theorem truncated_gzip_wraps :
    (GzipDecompressData testInflater (fun size => decide (0 < size)) 31 [0x1f]).map Decompressed.out_size =
        some 0 ∧
      ¬ EndsWell testInflater testGzipFormat [0x1f] := by
  refine ⟨by decide, fun ends => ?_⟩
  obtain ⟨turns, run, returned, right⟩ := ends fun size => decide (0 < size)
  have stands : Stands testInflaterFollows [0x1f] Eager.init [0x1f] [] 2 2 0 :=
    testInflaterFollows.stands (by decide)
  exact inflateTurns_wraps stands (.inl (by decide)) rfl (by simp) returned right.sizes

end ChromiumOS.UpdateEngine
