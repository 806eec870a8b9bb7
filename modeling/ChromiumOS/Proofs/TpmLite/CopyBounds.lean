import ChromiumOS.Model.TpmLite.Copies
import ChromiumOS.Proofs.TpmLite.NvDatagrams

/-! # The bounds of the copies

The assertion of `TlclWrite` compares a sum that is computed without a sign with the size of the buffer, as a
number with one: a length from 2^31 less the size of the header on passes it. `TlclRead` takes the number of
bytes that it copies from the response and compares it with nothing.
-/

namespace ChromiumOS.TpmLite

open Radix PartialRun

theorem toInt_le_iff (total : UInt32) :
    total.toBitVec.toInt ≤ TPM_LARGE_ENOUGH_COMMAND_SIZE ↔ total.toNat ≤ 256 ∨ 2 ^ 31 ≤ total.toNat := by
  have bound := total.toNat_lt
  rw [BitVec.toInt_eq_toNat_cond, UInt32.toNat_toBitVec, TPM_LARGE_ENOUGH_COMMAND_SIZE]
  split <;> omega

/-- The assertion lets lengths pass that fit, and those that make the sum negative or small again. -/
theorem assertion_iff (length : UInt32) :
    (UInt32.ofNat (kTpmRequestHeaderLength + kWriteInfoLength) + length).toBitVec.toInt ≤
      TPM_LARGE_ENOUGH_COMMAND_SIZE ↔ length.toNat ≤ 234 ∨ 2 ^ 31 - 22 ≤ length.toNat := by
  have bound := length.toNat_lt
  have header : (UInt32.ofNat (kTpmRequestHeaderLength + kWriteInfoLength)).toNat = 22 := rfl
  rw [toInt_le_iff, UInt32.toNat_add, header]
  omega

namespace Structures

variable {structures next : Structures} {index length : UInt32} {data : List UInt8} {exchange : Exchange}

/-- Every copy of `TlclWrite` stays in the part of the buffer behind the header. -/
def WriteBounded (structures : Structures) (length : UInt32) : Prop :=
  ∀ copy, structures.writeMemcpy length = some copy →
    copy.Inside (kTpmRequestHeaderLength + kWriteInfoLength) structures.tpm_nv_write_cmd.buffer.length length.toNat

/-- Every copy of `TlclRead` stores at most as much as was asked for, from inside of the response. -/
def ReadBounded (structures : Structures) (index length : UInt32) (exchange : Exchange) : Prop :=
  ∀ response copy, structures.readReceive index length exchange = some response →
    readMemcpy length response = some (some copy) → copy.Inside 0 length.toNat exchange.reply.length

/-- The number that is taken for the length of the data, in a response that is taken for one with data. -/
def ReadLengthSmall (structures : Structures) (index length : UInt32) (exchange : Exchange) : Prop :=
  ∀ response, structures.readReceive index length exchange = some response →
    TpmReturnCode response = some TPM_SUCCESS → 0 < length → beNat ((response.drop 14).take 4) ≠ 0 →
      beNat ((response.drop 14).take 4) ≤ length.toNat ∧
        18 + beNat ((response.drop 14).take 4) ≤ exchange.reply.length

theorem WriteReady.buffer_length {cmd : CommandStructure} (ready : WriteReady cmd) : cmd.buffer.length = 256 := by
  obtain ⟨size, index, length, data, four, fourth, quad, long, buffer⟩ := ready.buffer
  rw [buffer]
  simp only [writeBuffer, List.length_append, List.length_cons, List.length_nil, four, fourth, quad, long]

theorem writeMemcpy_eq (ready : WriteReady structures.tpm_nv_write_cmd) (length : UInt32) :
    structures.writeMemcpy length =
      if length.toNat ≤ 234 ∨ 2 ^ 31 - 22 ≤ length.toNat then some ⟨22, 0, length.toNat⟩ else none := by
  have found : structures.tpm_nv_write_cmd.pointers.lookup "data" = some 22 := by
    rw [ready.pointers]
    rfl
  rw [writeMemcpy, found]
  split
  · next passes => simp only [(assertion_iff length).mpr passes, guard_true, Option.bind_eq_bind, Option.bind_some]; rfl
  · next fails =>
    have failed := mt (assertion_iff length).mp fails
    simp only [failed, guard_false, Option.bind_eq_bind]
    rfl

theorem writeBounded_iff (ready : WriteReady structures.tpm_nv_write_cmd) (length : UInt32) :
    structures.WriteBounded length ↔ length.toNat < 2 ^ 31 - 22 := by
  rw [WriteBounded, writeMemcpy_eq ready, WriteReady.buffer_length ready]
  constructor
  · intro bounded
    by_contra large
    have inside := bounded _ (if_pos (.inr (not_lt.mp large)))
    rcases inside with none | ⟨-, last, -⟩
    · simp only at none
      omega
    · simp only at last
      omega
  · intro small copy copied
    split at copied
    · next passes =>
      cases copied
      refine .inr ⟨le_refl 22, ?_, (Nat.zero_add _).le⟩
      simp only
      omega
    · cases copied

/-- `TlclWrite` goes on exactly if its copy is one inside of the buffers, of the data that there are. -/
theorem prepareWrite_copies {cmd : CommandStructure} (ready : WriteReady structures.tpm_nv_write_cmd)
    (prepared : structures.prepareWrite index data length = some cmd) :
    ∃ copy before, structures.writeMemcpy length = some copy ∧ WriteReady before ∧
      copy.Inside 22 before.buffer.length data.length ∧ cmd.buffer = copy.perform before.buffer data := by
  simp only [prepareWrite, Option.bind_eq_bind, Option.bind_eq_some_iff] at prepared
  obtain ⟨_, passes, sized, setSize, indexed, setIndex, counted, setLength, _, available, setData⟩ := prepared
  have before := setLength_ready (setIndex_ready (setSize_ready ready setSize) setIndex) setLength
  have enough := (Option.guard_eq_some' _).mp available
  have passed := (assertion_iff length).mp ((Option.guard_eq_some' _).mp passes)
  refine ⟨⟨22, 0, length.toNat⟩, counted, ?_, before, ?_⟩
  · rw [writeMemcpy_eq ready, if_pos passed]
  · have found : counted.pointers.lookup "data" = some 22 := by
      rw [before.pointers]
      rfl
    rw [CommandStructure.set, found, Option.bind_eq_bind, Option.bind_some, store] at setData
    have taken : (data.take length.toNat).length = length.toNat := List.length_take_of_le enough
    rw [taken] at setData
    split at setData
    · next fits =>
      cases setData
      exact ⟨.inr ⟨le_rfl, fits, (Nat.zero_add _).trans_le enough⟩, rfl⟩
    · cases setData

/-- A response that arrives has the length that it says, in an array of the full size. -/
theorem readReceive_length {response : List UInt8} (received : structures.readReceive index length exchange =
    some response) : exchange.reply.length ≤ 256 ∧ response.length = 256 := by
  simp only [readReceive, SendReceive, Option.bind_eq_bind, Option.bind_eq_some_iff] at received
  obtain ⟨-, -, cmd, -, -, -, _, short, -, -, -, -, -, -, -, -, -, -, returned⟩ := received
  have small := (Option.guard_eq_some' _).mp short
  rw [TPM_LARGE_ENOUGH_COMMAND_SIZE] at small
  cases returned
  refine ⟨small, ?_⟩
  rw [List.length_append, List.length_drop, exchange.sized, TPM_LARGE_ENOUGH_COMMAND_SIZE]
  omega

/-- The copy of a response of the full size. -/
theorem readMemcpy_eq {response : List UInt8} (full : response.length = 256) :
    readMemcpy length response =
      if TpmReturnCode response = some TPM_SUCCESS ∧ 0 < length then
        some (some ⟨0, 18, beNat ((response.drop 14).take 4)⟩)
      else some none := by
  have four (offset : ℕ) (inside : offset + 4 ≤ 256) : FromTpmUint32 (response.drop offset) =
      some (UInt32.ofNat (beNat ((response.drop offset).take 4))) := by
    have length : ((response.drop offset).take 4).length = 4 := by
      rw [List.length_take, List.length_drop]
      omega
    have read := FromTpmUint32_eq ((response.drop offset).drop 4) length
    rw [List.take_append_drop] at read
    exact read
  have code : ∃ result, TpmReturnCode response = some result := ⟨_, four 6 (by omega)⟩
  obtain ⟨result, code⟩ := code
  have bound : beNat ((response.drop 14).take 4) < 2 ^ 32 := by
    have less := beNat_lt ((response.drop 14).take 4)
    rw [List.length_take, List.length_drop, full] at less
    exact less
  by_cases asked : result = TPM_SUCCESS ∧ 0 < length
  · rw [readMemcpy, code, Option.bind_eq_bind, Option.bind_some, if_pos asked, kTpmResponseHeaderLength,
      four 14 (by omega), Option.bind_some, UInt32.toNat_ofNat_of_lt' bound, if_pos ⟨congrArg some asked.1, asked.2⟩]
    rfl
  · rw [readMemcpy, code, Option.bind_eq_bind, Option.bind_some, if_neg asked,
      if_neg fun both => asked ⟨Option.some.inj both.1, both.2⟩]
    rfl

theorem readBounded_iff (index length : UInt32) (exchange : Exchange) :
    structures.ReadBounded index length exchange ↔ structures.ReadLengthSmall index length exchange := by
  constructor
  · intro bounded response received success positive some
    have copied := @readMemcpy_eq length _ (readReceive_length received).2
    rw [if_pos ⟨success, positive⟩] at copied
    rcases bounded response _ received copied with none | ⟨-, stored, read⟩
    · exact absurd none some
    · exact ⟨(Nat.zero_add _).symm.trans_le stored, read⟩
  · intro small response copy received copied
    rw [readMemcpy_eq (readReceive_length received).2] at copied
    split at copied
    · next asked =>
      cases copied
      by_cases none : beNat ((response.drop 14).take 4) = 0
      · exact .inl none
      · obtain ⟨stored, read⟩ := small response received asked.1 asked.2 none
        exact .inr ⟨Nat.zero_le _, (Nat.zero_add _).trans_le stored, read⟩
    · cases copied

/-- `TlclRead` leaves in the buffer of the caller what its copy makes of it. -/
theorem TlclRead_copies {buffer stored : List UInt8} {result : UInt32}
    (read : structures.TlclRead index buffer length exchange = some (result, stored, next)) :
    ∃ response, structures.readReceive index length exchange = some response ∧
      ((readMemcpy length response = some none ∧ stored = buffer) ∨
        ∃ copy, readMemcpy length response = some (some copy) ∧
          copy.Inside 0 buffer.length response.length ∧ stored = copy.perform buffer response) := by
  simp only [TlclRead, Option.bind_eq_bind, Option.bind_eq_some_iff] at read
  obtain ⟨middle, setIndex, cmd, setLength, response, received, code, coded, returned⟩ := read
  have arrived : structures.readReceive index length exchange = some response := by
    rw [readReceive, setIndex, Option.bind_eq_bind, Option.bind_some, setLength, Option.bind_some, received]
  have full := (readReceive_length arrived).2
  refine ⟨response, arrived, ?_⟩
  split at returned
  · next asked =>
    simp only [Option.bind_eq_some_iff] at returned
    obtain ⟨count, counted, _, available, bytes, kept, returned⟩ := returned
    cases returned
    refine .inr ⟨⟨0, 18, count.toNat⟩, ?_, ?_⟩
    · rw [readMemcpy, coded, Option.bind_eq_bind, Option.bind_some, if_pos asked, counted]
      rfl
    · have enough := (Option.guard_eq_some' _).mp available
      rw [List.drop_drop, kTpmResponseHeaderLength] at kept enough
      rw [List.length_drop] at enough
      have taken : ((response.drop (14 + 4)).take count.toNat).length = count.toNat := by
        rw [List.length_take, List.length_drop]
        omega
      rw [store, taken] at kept
      split at kept
      · next fits =>
        cases kept
        exact ⟨.inr ⟨Nat.zero_le _, fits, by simp only; omega⟩, rfl⟩
      · cases kept
  · next other =>
    cases returned
    refine .inl ⟨?_, rfl⟩
    rw [readMemcpy, coded, Option.bind_eq_bind, Option.bind_some, if_neg other]
    rfl

/-- After any calls, the copies of `TlclWrite` stay in the buffer exactly for lengths below 2^31 less the size of
the header, and those of `TlclRead` exactly if the number behind the header of the response is small enough. -/
theorem copies_bounded (pointerSize : ℕ) :
    ∃ structures, generate pointerSize = some structures ∧
      ∀ calls state, run step structures calls = some state →
        (∀ length, state.WriteBounded length ↔ length.toNat < 2 ^ 31 - 22) ∧
          ∀ index length exchange,
            state.ReadBounded index length exchange ↔ state.ReadLengthSmall index length exchange := by
  obtain ⟨structures, generated, ready⟩ := generate_ready pointerSize
  refine ⟨structures, generated, fun calls state reached => ?_⟩
  have stateReady : state.Ready := always_of_preserved ready
    (fun structures call next ready stepped => step_ready call ready stepped) calls calls
    List.prefix_rfl state reached
  exact ⟨writeBounded_iff stateReady.write, readBounded_iff⟩

/-- A length of 2^31 passes the assertion, and a response whose first byte of data is not zero makes `TlclRead`
copy more than the response has. -/
theorem copies_out_of_bounds :
    ∃ structures, generate 4 = some structures ∧ ¬ structures.WriteBounded 0x80000000 ∧
      ∃ exchange, structures.readReceive 0x1004 4 exchange ≠ none ∧
        ¬ structures.ReadBounded 0x1004 4 exchange := by
  obtain ⟨structures, generated, ready⟩ := generate_ready 4
  refine ⟨structures, generated, fun bounded => ?_,
    ⟨List.replicate 256 0, readResponse [1, 0, 0, 0], List.length_replicate⟩, ?_⟩
  · exact absurd ((writeBounded_iff ready.write _).mp bounded) (by decide)
  obtain ⟨middle, setIndex, middleReady⟩ := setReadIndex_ready 0x1004 ready.read
  obtain ⟨cmd, setLength, cmdReady⟩ := setReadLength_ready 4 middleReady
  have received : structures.readReceive 0x1004 4
      ⟨List.replicate 256 0, readResponse [1, 0, 0, 0], List.length_replicate⟩ =
        some (readResponse [1, 0, 0, 0] ++ (List.replicate 256 0).drop 18) := by
    rw [readReceive, setIndex, Option.bind_eq_bind, Option.bind_some, setLength, Option.bind_some]
    exact SendReceive_readResponse cmdReady (by decide) rfl
  refine ⟨Option.ne_none_iff_exists'.mpr ⟨_, received⟩, fun bounded => ?_⟩
  have small := (readBounded_iff _ _ _).mp bounded _ received (TpmReturnCode_readResponse _ _) (by decide)
  rw [readResponse_drop] at small
  exact absurd (small (by decide)).1 (by decide)

end Structures

end ChromiumOS.TpmLite
