import Mathlib

/-! # Decoders that are fed piece by piece

A format says of every string whether it can still become a stream, starts with a whole one, or cannot, and
what it decodes to so far. A decoder is a state machine that takes some of its input and puts out some of
what the format gives: as much as there is room for. It gives up its last input only with its last output,
unless there is an error behind it.
-/

namespace ChromiumOS.StreamDecoder

variable {α β : Type}

/-- What a string is in a format, with what it decodes to; a whole stream may be followed by other input. -/
inductive Scan (β : Type) where
  | incomplete (output : List β)
  | complete (used : ℕ) (output : List β)
  | corrupt (output : List β)
deriving DecidableEq, Repr

namespace Scan

def output : Scan β → List β
  | incomplete output => output
  | complete _ output => output
  | corrupt output => output

def IsIncomplete : Scan β → Prop
  | incomplete _ => True
  | complete _ _ => False
  | corrupt _ => False

def IsComplete : Scan β → Prop
  | incomplete _ => False
  | complete _ _ => True
  | corrupt _ => False

theorem IsIncomplete.eq {scan : Scan β} (incomplete : scan.IsIncomplete) : scan = .incomplete scan.output := by
  cases scan with
  | incomplete output => rfl
  | complete used output => exact incomplete.elim
  | corrupt output => exact incomplete.elim

instance (scan : Scan β) : Decidable scan.IsIncomplete :=
  match scan with
  | incomplete _ => isTrue trivial
  | complete _ _ => isFalse id
  | corrupt _ => isFalse id

end Scan

/-- A format of streams. What a string starts with does not change when it grows, and the last symbol of a
stream comes behind all that it decodes to. -/
structure Format (α β : Type) where
  scan : List α → Scan β
  empty : (scan []).IsIncomplete
  used_le : ∀ {string used output}, scan string = .complete used output → used ≤ string.length
  settled : ∀ {string used output}, scan string = .complete used output →
    scan (string.take used) = .complete used output
  early : ∀ {string used output}, scan string = .complete used output →
    scan (string.take (used - 1)) = .incomplete output
  append : ∀ {string} rest, ¬ (scan string).IsIncomplete → scan (string ++ rest) = scan string
  grows : ∀ string rest, (scan string).output <+: (scan (string ++ rest)).output

namespace Format

variable (format : Format α β) {string rest : List α} {used : ℕ} {output : List β}

/-- A string that does not start with a stream is shorter than the stream that it grows to. -/
theorem length_lt (complete : format.scan (string ++ rest) = .complete used output)
    (open_ended : ¬ (format.scan string).IsComplete) : string.length < used := by
  by_contra longer
  have settled := format.settled complete
  rw [List.take_append_of_le_length (not_lt.mp longer)] at settled
  have decided : ¬ (format.scan (string.take used)).IsIncomplete := by
    rw [settled]
    exact id
  have whole := format.append (string.drop used) decided
  rw [List.take_append_drop, settled] at whole
  rw [whole] at open_ended
  exact open_ended trivial

end Format

inductive Outcome where
  | more
  | finished
  | failed
deriving DecidableEq, Repr

/-- What one call did: the input taken, the output and the next state. -/
structure Step (Stream β : Type) where
  outcome : Outcome
  consumed : ℕ
  output : List β
  stream : Stream

/-- What a call with room for all the output does, by what the input up to its end is. -/
def Settles {Stream : Type} (Fed : Stream → List α → List β → Prop) (Ended : Stream → Prop)
    (fed input : List α) (output : List β) (result : Step Stream β) : Scan β → Prop
  | .incomplete _ => result.outcome = .more ∧ result.consumed = input.length ∧
      Fed result.stream (fed ++ input) (output ++ result.output)
  | .complete used _ => result.outcome = .finished ∧ fed.length + result.consumed = used ∧ Ended result.stream
  | .corrupt _ => result.outcome = .failed

/-- A decoder for a format. `Fed` are the states that have taken some input and put out some output, and
`Ended` those at the end of a stream; `roomy` is a call with room for all that is left, `narrow` one that is
filled. -/
structure Decoder {Stream : Type} (format : Format α β) (init : Stream)
    (step : Stream → List α → ℕ → Step Stream β) where
  Fed : Stream → List α → List β → Prop
  Ended : Stream → Prop
  start : Fed init [] []
  roomy : ∀ {stream fed output}, Fed stream fed output → ∀ input room,
    (format.scan (fed ++ input)).output.length ≤ output.length + room →
    output ++ (step stream input room).output = (format.scan (fed ++ input)).output ∧
      (step stream input room).consumed ≤ input.length ∧
      Settles Fed Ended fed input output (step stream input room) (format.scan (fed ++ input))
  narrow : ∀ {stream fed output}, Fed stream fed output → ∀ input room,
    output.length + room < (format.scan (fed ++ input)).output.length →
    (step stream input room).outcome = .more ∧ (step stream input room).output.length = room ∧
      (step stream input room).consumed ≤ input.length ∧
      ¬ (format.scan (fed ++ input.take (step stream input room).consumed)).IsComplete ∧
      Fed (step stream input room).stream (fed ++ input.take (step stream input room).consumed)
        (output ++ (step stream input room).output)

/-! ### The decoder that takes all that it can -/

/-- The input that was taken, how much of the output was put out, and whether the end was reached. -/
structure Eager (α : Type) where
  fed : List α
  sent : ℕ
  ended : Bool
deriving DecidableEq, Repr

section Eager

variable (format : Format α β)

def Eager.init : Eager α := ⟨[], 0, false⟩

/-- All input is taken but the last symbol of a stream, which waits for the output. -/
def Eager.step (stream : Eager α) (input : List α) (room : ℕ) : Step (Eager α) β :=
  let scan := format.scan (stream.fed ++ input)
  let rest := scan.output.drop stream.sent
  if stream.ended then ⟨.failed, 0, [], stream⟩
  else if scan.output.length ≤ stream.sent + room then
    match scan with
    | .incomplete output => ⟨.more, input.length, rest, ⟨stream.fed ++ input, output.length, false⟩⟩
    | .complete used _ => ⟨.finished, used - stream.fed.length, rest, ⟨stream.fed, stream.sent, true⟩⟩
    | .corrupt _ => ⟨.failed, 0, rest, stream⟩
  else
    let consumed :=
      match scan with
      | .incomplete _ => input.length
      | .complete used _ => used - 1 - stream.fed.length
      | .corrupt _ => input.length
    ⟨.more, consumed, rest.take room, ⟨stream.fed ++ input.take consumed, stream.sent + room, false⟩⟩

/-- Its states before the end. -/
structure Eager.Fed (stream : Eager α) (fed : List α) (sent : List β) : Prop where
  open_ended : ¬ (format.scan fed).IsComplete
  out : sent <+: (format.scan fed).output
  taken : stream.fed = fed
  running : stream.ended = false
  length : stream.sent = sent.length

namespace Eager.Fed

variable {format} {stream : Eager α} {fed input : List α} {sent : List β} {room : ℕ}

theorem roomy (taken : Eager.Fed format stream fed sent)
    (enough : (format.scan (fed ++ input)).output.length ≤ sent.length + room) :
    sent ++ (stream.step format input room).output = (format.scan (fed ++ input)).output ∧
      (stream.step format input room).consumed ≤ input.length ∧
      Settles (Eager.Fed format) (fun stream => stream.ended = true) fed input sent
        (stream.step format input room) (format.scan (fed ++ input)) := by
  have before : sent <+: (format.scan (fed ++ input)).output := taken.out.trans (format.grows fed input)
  have joined : sent ++ (format.scan (fed ++ input)).output.drop sent.length =
      (format.scan (fed ++ input)).output := (List.prefix_append_drop before).symm
  rw [Eager.step, taken.taken, taken.running, taken.length]
  simp only [Bool.false_eq_true, if_false, if_pos enough]
  cases scanned : format.scan (fed ++ input) with
  | incomplete whole =>
    rw [scanned] at joined
    refine ⟨joined, le_rfl, rfl, rfl, ?_, ?_, rfl, rfl, ?_⟩
    · rw [scanned]
      exact id
    · dsimp only
      rw [joined, scanned]
    · dsimp only
      rw [joined]
      rfl
  | complete used whole =>
    rw [scanned] at joined
    have used_le := format.used_le scanned
    have longer := format.length_lt scanned taken.open_ended
    rw [List.length_append] at used_le
    refine ⟨joined, ?_, rfl, ?_, rfl⟩
    · dsimp only
      omega
    · dsimp only
      omega
  | corrupt whole =>
    rw [scanned] at joined
    exact ⟨joined, Nat.zero_le _, rfl⟩

/-- What a call takes when its room is filled is no whole stream, and decodes to the same. -/
theorem kept (taken : Eager.Fed format stream fed sent)
    (less : sent.length + room < (format.scan (fed ++ input)).output.length) :
    (stream.step format input room).consumed ≤ input.length ∧
      ¬ (format.scan (fed ++ input.take (stream.step format input room).consumed)).IsComplete ∧
      (format.scan (fed ++ input.take (stream.step format input room).consumed)).output =
        (format.scan (fed ++ input)).output := by
  rw [Eager.step, taken.taken, taken.running, taken.length]
  simp only [Bool.false_eq_true, if_false, if_neg (not_le.mpr less)]
  cases scanned : format.scan (fed ++ input) with
  | incomplete whole =>
    dsimp only
    rw [List.take_length, scanned]
    exact ⟨le_rfl, id, rfl⟩
  | complete used whole =>
    have used_le := format.used_le scanned
    have longer := format.length_lt scanned taken.open_ended
    have early := format.early scanned
    rw [List.length_append] at used_le
    rw [List.take_append, List.take_of_length_le (by omega)] at early
    dsimp only
    rw [early]
    exact ⟨by omega, id, rfl⟩
  | corrupt whole =>
    dsimp only
    rw [List.take_length, scanned]
    exact ⟨le_rfl, id, rfl⟩

theorem narrow (taken : Eager.Fed format stream fed sent)
    (less : sent.length + room < (format.scan (fed ++ input)).output.length) :
    (stream.step format input room).outcome = .more ∧ (stream.step format input room).output.length = room ∧
      (stream.step format input room).consumed ≤ input.length ∧
      ¬ (format.scan (fed ++ input.take (stream.step format input room).consumed)).IsComplete ∧
      Eager.Fed format (stream.step format input room).stream
        (fed ++ input.take (stream.step format input room).consumed)
        (sent ++ (stream.step format input room).output) := by
  obtain ⟨inside, open_ended, same⟩ := taken.kept less
  have before : sent <+: (format.scan (fed ++ input)).output := taken.out.trans (format.grows fed input)
  have result : (stream.step format input room).outcome = .more ∧
      (stream.step format input room).output = ((format.scan (fed ++ input)).output.drop sent.length).take room ∧
      (stream.step format input room).stream =
        ⟨fed ++ input.take (stream.step format input room).consumed, sent.length + room, false⟩ := by
    rw [Eager.step, taken.taken, taken.running, taken.length]
    simp only [Bool.false_eq_true, if_false, if_neg (not_le.mpr less)]
    exact ⟨trivial, trivial, trivial⟩
  obtain ⟨more, output, next⟩ := result
  have length : (stream.step format input room).output.length = room := by
    rw [output, List.length_take, List.length_drop]
    omega
  refine ⟨more, length, inside, open_ended, open_ended, ?_, ?_, ?_, ?_⟩
  · rw [same, output]
    have joined := List.prefix_append_drop before
    nth_rewrite 2 [joined]
    exact (List.prefix_append_right_inj sent).mpr (List.take_prefix _ _)
  · rw [next]
  · rw [next]
  · rw [next, List.length_append, length]

end Eager.Fed

/-- Every format has a decoder. -/
def Decoder.eager : Decoder format Eager.init (Eager.step format) where
  Fed := Eager.Fed format
  Ended stream := stream.ended = true
  start := by
    refine ⟨?_, List.nil_prefix, rfl, rfl, rfl⟩
    rw [format.empty.eq]
    exact id
  roomy taken _ _ enough := taken.roomy enough
  narrow taken _ _ less := taken.narrow less

theorem Eager.step_ended {stream : Eager α} (ended : stream.ended = true) (input : List α) (room : ℕ) :
    (stream.step format input room).outcome = .failed := by
  simp [Eager.step, ended]

end Eager

/-! ### The format of one stream -/

section Single

variable [DecidableEq α] (body : List α) (last : α) (output : List β)

/-- The strings of a format with one stream, whose output comes before its last symbol. -/
def scanSingle (string : List α) : Scan β :=
  if string <+: body then .incomplete (if string = body then output else [])
  else if body ++ [last] <+: string then .complete (body.length + 1) output
  else .corrupt (if body <+: string then output else [])

theorem scanSingle_output (string : List α) :
    (scanSingle body last output string).output = if body <+: string then output else [] := by
  rw [scanSingle]
  split
  · next before =>
    rw [Scan.output]
    refine if_congr ⟨?_, ?_⟩ rfl rfl
    · rintro rfl
      exact List.prefix_rfl
    · exact fun after => before.eq_of_length (le_antisymm before.length_le after.length_le)
  · split
    · next whole =>
      rw [Scan.output, if_pos ((List.prefix_append body [last]).trans whole)]
    · rfl

theorem scanSingle_incomplete {string : List α} :
    (scanSingle body last output string).IsIncomplete ↔ string <+: body := by
  rw [scanSingle]
  split
  · next before => exact iff_of_true trivial before
  · next beyond =>
    split
    · exact iff_of_false id beyond
    · exact iff_of_false id beyond

theorem scanSingle_complete {string : List α} {used : ℕ} {whole : List β} :
    scanSingle body last output string = .complete used whole ↔
      body ++ [last] <+: string ∧ used = body.length + 1 ∧ whole = output := by
  rw [scanSingle]
  split
  · next before =>
    refine iff_of_false (by simp) ?_
    rintro ⟨inside, -⟩
    have longer := (inside.trans before).length_le
    rw [List.length_append, List.length_singleton] at longer
    omega
  · split
    · next inside =>
      constructor
      · intro same
        cases same
        exact ⟨inside, rfl, rfl⟩
      · rintro ⟨-, rfl, rfl⟩
        rfl
    · next other => exact iff_of_false (by simp) fun whole => other whole.1

/-- The format of one stream. -/
def Format.single : Format α β where
  scan := scanSingle body last output
  empty := (scanSingle_incomplete body last output).mpr List.nil_prefix
  used_le := by
    intro string used whole complete
    obtain ⟨inside, rfl, -⟩ := (scanSingle_complete body last output).mp complete
    have length := inside.length_le
    rw [List.length_append, List.length_singleton] at length
    exact length
  settled := by
    intro string used whole complete
    obtain ⟨inside, rfl, rfl⟩ := (scanSingle_complete body last output).mp complete
    apply (scanSingle_complete body last _).mpr
    refine ⟨?_, rfl, rfl⟩
    have start := List.prefix_iff_eq_take.mp inside
    rw [List.length_append, List.length_singleton] at start
    rw [← start]
  early := by
    intro string used whole complete
    obtain ⟨inside, rfl, rfl⟩ := (scanSingle_complete body last output).mp complete
    have start := List.prefix_iff_eq_take.mp ((List.prefix_append body [last]).trans inside)
    rw [Nat.add_sub_cancel, ← start, scanSingle, if_pos List.prefix_rfl, if_pos rfl]
  append := by
    intro string rest decided
    rw [scanSingle_incomplete] at decided
    have beyond : ¬ string ++ rest <+: body := fun before => decided ((List.prefix_append _ _).trans before)
    have keeps {stream : List α} (short : ¬ (string <+: stream ∧ string ≠ stream)) :
        stream <+: string ++ rest ↔ stream <+: string := by
      constructor
      · intro inside
        rcases List.prefix_or_prefix_of_prefix inside (List.prefix_append string rest) with before | after
        · exact before
        · by_contra other
          apply short
          refine ⟨after, ?_⟩
          rintro rfl
          exact other List.prefix_rfl
      · exact fun inside => inside.trans (List.prefix_append _ _)
    have bodies : body <+: string ++ rest ↔ body <+: string := keeps fun short => decided short.1
    have streams : body ++ [last] <+: string ++ rest ↔ body ++ [last] <+: string := by
      apply keeps
      intro short
      apply decided
      have fewer : string.length < (body ++ [last]).length :=
        lt_of_le_of_ne short.1.length_le fun same => short.2 (short.1.eq_of_length same)
      rw [List.length_append, List.length_singleton] at fewer
      exact List.prefix_of_prefix_length_le short.1 (List.prefix_append _ _) (by omega)
    rw [scanSingle, scanSingle, if_neg beyond, if_neg decided]
    simp only [streams, bodies]
  grows := by
    intro string rest
    rw [scanSingle_output, scanSingle_output]
    split
    · next inside => rw [if_pos (inside.trans (List.prefix_append _ _))]
    · exact List.nil_prefix

end Single

end ChromiumOS.StreamDecoder
