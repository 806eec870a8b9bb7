import Mathlib

/-! # Streaming a list into a state block by block

An incremental digest folds the complete blocks of its input into a chaining state and keeps the
rest for later. Cutting the input differently changes neither: the state and the pending elements
are functions of the concatenated input.
-/

namespace ChromiumOS.BlockStream

variable {α σ : Type*} (size : ℕ) (f : σ → List α → σ)

/-- The block of `size` elements with number `index`. -/
def blockOf (message : List α) (index : ℕ) : List α := (message.drop (index * size)).take size

/-- Fold the first `count` blocks into the state. -/
def absorbBlocks (state : σ) (message : List α) (count : ℕ) : σ :=
  (List.range count).foldl (fun state index => f state (blockOf size message index)) state

/-- Fold every complete block into the state. -/
def absorb (state : σ) (message : List α) : σ :=
  absorbBlocks size f state message (message.length / size)

theorem absorbBlocks_succ (state : σ) (message : List α) (count : ℕ) :
    absorbBlocks size f state message (count + 1) =
      f (absorbBlocks size f state message count) (blockOf size message count) := by
  simp [absorbBlocks, List.range_succ]

theorem blockOf_append_left {message : List α} {index : ℕ} (rest : List α)
    (inside : (index + 1) * size ≤ message.length) :
    blockOf size (message ++ rest) index = blockOf size message index := by
  have start : index * size + size ≤ message.length := by rwa [Nat.succ_mul] at inside
  rw [blockOf, blockOf, List.drop_append_of_le_length (by omega),
    List.take_append_of_le_length (by rw [List.length_drop]; omega)]

/-- Later elements do not reach the blocks already absorbed. -/
theorem absorbBlocks_append_left (state : σ) {message : List α} {count : ℕ} (rest : List α)
    (inside : count * size ≤ message.length) :
    absorbBlocks size f state (message ++ rest) count =
      absorbBlocks size f state message count := by
  induction count with
  | zero => rfl
  | succ count ih =>
    have smaller : count * size ≤ message.length :=
      le_trans (Nat.mul_le_mul_right size count.le_succ) inside
    rw [absorbBlocks_succ, absorbBlocks_succ, ih smaller, blockOf_append_left size rest inside]

theorem blockOf_append_right {message : List α} {count : ℕ} (rest : List α) (index : ℕ)
    (length : message.length = count * size) :
    blockOf size (message ++ rest) (count + index) = blockOf size rest index := by
  rw [blockOf, blockOf, add_mul, ← length, List.drop_length_add_append]

/-- Absorbing after a whole number of blocks continues from the state they left. -/
theorem absorbBlocks_append (state : σ) {message : List α} {count : ℕ} (rest : List α)
    (length : message.length = count * size) (more : ℕ) :
    absorbBlocks size f state (message ++ rest) (count + more) =
      absorbBlocks size f (absorbBlocks size f state message count) rest more := by
  induction more with
  | zero => exact absorbBlocks_append_left size f state rest length.ge
  | succ more ih =>
    rw [← add_assoc, absorbBlocks_succ, absorbBlocks_succ, ih,
      blockOf_append_right size rest more length]

theorem absorbBlocks_one (state : σ) (message : List α) :
    absorbBlocks size f state message 1 = f state (message.take size) := by
  rw [absorbBlocks_succ, blockOf, Nat.zero_mul, List.drop_zero]
  rfl

theorem absorbBlocks_take (state : σ) {message : List α} {count : ℕ}
    (inside : count * size ≤ message.length) :
    absorbBlocks size f state (message.take (count * size)) count =
      absorbBlocks size f state message count := by
  have length : (message.take (count * size)).length = count * size :=
    List.length_take_of_le inside
  have prefixed := absorbBlocks_append_left size f state (message.drop (count * size)) length.ge
  rw [List.take_append_drop] at prefixed
  exact prefixed.symm

theorem absorb_of_length {state : σ} {message : List α} {count : ℕ} (positive : 0 < size)
    (length : message.length = count * size) :
    absorb size f state message = absorbBlocks size f state message count := by
  rw [absorb, length, Nat.mul_div_cancel _ positive]

/-- A streaming run that has read `message`: `count` blocks are in `state`, `rest` is pending. -/
structure Buffered (initial : σ) (message : List α) (state : σ) (count : ℕ) (rest : List α) :
    Prop where
  inside : count * size ≤ message.length
  state_eq : state = absorbBlocks size f initial message count
  rest_eq : rest = message.drop (count * size)
  short : rest.length < size

namespace Buffered

variable {size f} {initial state : σ} {message rest : List α} {count : ℕ}

theorem nil (positive : 0 < size) : Buffered size f initial [] initial 0 [] :=
  ⟨by simp, rfl, by simp, positive⟩

section

variable (buffered : Buffered size f initial message state count rest)
include buffered

theorem length_eq : message.length = count * size + rest.length := by
  rw [buffered.rest_eq, List.length_drop]
  have := buffered.inside
  omega

theorem rest_length : rest.length = message.length % size := by
  rw [buffered.length_eq, Nat.mul_add_mod_of_lt buffered.short]

/-- The absorbed blocks, as a list. -/
theorem exists_blocks : ∃ blocks : List α, blocks.length = count * size ∧ message = blocks ++ rest ∧
    state = absorbBlocks size f initial blocks count := by
  have split : message.take (count * size) ++ rest = message := by
    rw [buffered.rest_eq, List.take_append_drop]
  refine ⟨message.take (count * size), List.length_take_of_le buffered.inside, split.symm, ?_⟩
  rw [buffered.state_eq, absorbBlocks_take size f initial buffered.inside]

/-- More elements that do not complete a block are pending too. -/
theorem extend {more : List α} (short : (rest ++ more).length < size) :
    Buffered size f initial (message ++ more) state count (rest ++ more) where
  inside := by
    have := buffered.inside
    rw [List.length_append]
    omega
  state_eq := by
    rw [absorbBlocks_append_left size f initial more buffered.inside]
    exact buffered.state_eq
  rest_eq := by rw [List.drop_append_of_le_length buffered.inside, buffered.rest_eq]
  short := short

/-- Absorbing a whole number of blocks that starts with the pending elements. -/
theorem advance (more last : List α) (blocks : ℕ) (length : (rest ++ more).length = blocks * size)
    (short : last.length < size) :
    Buffered size f initial (message ++ (more ++ last))
      (absorbBlocks size f state (rest ++ more) blocks) (count + blocks) last := by
  obtain ⟨before, beforeLength, rfl, rfl⟩ := buffered.exists_blocks
  have total : (before ++ (rest ++ more)).length = (count + blocks) * size := by
    rw [List.length_append, beforeLength, length, add_mul]
  have regroup : before ++ rest ++ (more ++ last) = before ++ (rest ++ more) ++ last := by
    simp only [List.append_assoc]
  refine ⟨?_, ?_, ?_, short⟩
  · rw [regroup, List.length_append, total]
    exact Nat.le_add_right _ _
  · rw [regroup, absorbBlocks_append_left size f initial last total.ge,
      absorbBlocks_append size f initial _ beforeLength]
  · rw [regroup, ← total, List.drop_left]

/-- Closing the stream with a tail that completes the last block. -/
theorem finish (positive : 0 < size) {tail : List α} {blocks : ℕ}
    (length : (rest ++ tail).length = blocks * size) :
    absorbBlocks size f state (rest ++ tail) blocks = absorb size f initial (message ++ tail) := by
  obtain ⟨before, beforeLength, rfl, rfl⟩ := buffered.exists_blocks
  have total : (before ++ (rest ++ tail)).length = (count + blocks) * size := by
    rw [List.length_append, beforeLength, length, add_mul]
  rw [List.append_assoc, absorb_of_length size f positive total,
    absorbBlocks_append size f initial _ beforeLength]

end

end Buffered

end ChromiumOS.BlockStream
