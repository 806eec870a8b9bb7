import ChromiumOS.Model.UpdateEngine.SetBootableFlagAction

/-! # Switching the bootable partition

The table is rewritten in place from its start, so whenever the writing stops, the flags before that point are
the new ones and those behind it the old ones. With one partition bootable before, there is one afterwards
unless the writing stopped between its flag and the flag of the named partition.
-/

namespace ChromiumOS.UpdateEngine.SetBootableFlagAction

open Overwrite

section Name

/-- A name that ends in a character that is no digit and the number of a partition. -/
def NamesPartition (device : List Char) (partition_number : ℕ) : Prop :=
  ∃ stem second_to_last_char last_char, device = stem ++ [second_to_last_char, last_char] ∧
    second_to_last_char.isDigit = false ∧ last_char.toNat = '0'.toNat + partition_number ∧
    1 ≤ partition_number ∧ partition_number ≤ 4

theorem partitionNumber_spec {device : List Char} {partition_number : ℕ}
    (valid : partitionNumber device = some partition_number) : NamesPartition device partition_number := by
  rcases List.eq_nil_or_concat' device with rfl | ⟨front, last_char, rfl⟩
  · cases valid
  rcases List.eq_nil_or_concat' front with rfl | ⟨stem, second_to_last_char, rfl⟩
  · cases valid
  rw [partitionNumber, if_neg (by simp)] at valid
  have last : (stem ++ [second_to_last_char] ++ [last_char]).getD
      ((stem ++ [second_to_last_char] ++ [last_char]).length - 1) ' ' = last_char := by simp
  have second : (stem ++ [second_to_last_char] ++ [last_char]).getD
      ((stem ++ [second_to_last_char] ++ [last_char]).length - 2) ' ' = second_to_last_char := by simp
  dsimp only at valid
  rw [last, second] at valid
  split at valid
  · cases valid
  next inRange =>
  split at valid
  · cases valid
  next noDigit =>
  push Not at inRange
  obtain ⟨above, below⟩ := inRange
  have above : '0'.toNat + 1 ≤ last_char.toNat := above
  have below : last_char.toNat ≤ '0'.toNat + 4 := below
  cases valid
  refine ⟨stem, second_to_last_char, last_char, by simp, ?_, ?_, ?_, ?_⟩
  · rw [Bool.eq_false_iff]
    intro digit
    rw [Char.isDigit, Bool.and_eq_true, decide_eq_true_eq, decide_eq_true_eq] at digit
    exact noDigit ⟨digit.1, digit.2⟩
  · omega
  · omega
  · omega

end Name

section Table

variable {mbr : List UInt8} (whole : 512 ≤ mbr.length) (partition_number : ℕ)

include whole in
theorem markBootable_flag {i : ℕ} (below : i < 4) :
    (markBootable mbr partition_number).getD (flagOffset i) 0 = if i + 1 = partition_number then 0x80 else 0 := by
  have inside : flagOffset i < mbr.length := by
    rw [flagOffset]
    omega
  have apart (j : ℕ) : flagOffset j = flagOffset i ↔ j = i := by
    simp only [flagOffset]
    omega
  simp only [markBootable, List.range_succ, List.range_zero, List.nil_append, List.cons_append, List.foldl_cons,
    List.foldl_nil, List.getD_eq_getElem?_getD, List.getElem?_set, List.length_set, apart]
  interval_cases i <;> simp [inside]

theorem markBootable_other {index : ℕ} (other : ∀ i < 4, index ≠ flagOffset i) :
    (markBootable mbr partition_number).getD index 0 = mbr.getD index 0 := by
  have apart (i : ℕ) (below : i < 4) : flagOffset i ≠ index := fun same => other i below same.symm
  simp only [markBootable, List.range_succ, List.range_zero, List.nil_append, List.cons_append, List.foldl_cons,
    List.foldl_nil, List.getD_eq_getElem?_getD]
  rw [List.getElem?_set_ne (apart 3 (by decide)), List.getElem?_set_ne (apart 2 (by decide)),
    List.getElem?_set_ne (apart 1 (by decide)), List.getElem?_set_ne (apart 0 (by decide))]

@[simp] theorem markBootable_length : (markBootable mbr partition_number).length = mbr.length := by
  simp [markBootable, List.range_succ]

end Table

section Loop

variable {replies : Replies} (progress : ∀ call count, replies.write call = some count → 0 < count)

include progress in
/-- The loop ends, with the start of the table written over that of the device. -/
theorem writeLoop_ends {buffer : List UInt8} (contents : List UInt8)
    (remaining call written : ℕ) (left : written + remaining = buffer.length) :
    ∃ success final, final ≤ buffer.length ∧ (success = true ↔ final = buffer.length) ∧
      ∀ turns, remaining < turns →
        writeLoop replies buffer turns call written (overwrite 0 contents 0 (buffer.take written)) =
          some (success, overwrite 0 contents 0 (buffer.take final), final) := by
  induction remaining using Nat.strongRec generalizing call written with
  | ind remaining ih =>
    have length : (buffer.take written).length = written := by
      rw [List.length_take]
      omega
    rcases Nat.eq_zero_or_pos remaining with rfl | more
    · refine ⟨true, written, by omega, iff_of_true rfl left, fun turns enough => ?_⟩
      rw [Nat.add_zero] at left
      obtain ⟨turns, rfl⟩ := Nat.exists_eq_succ_of_ne_zero (Nat.ne_of_gt enough)
      rw [writeLoop, if_neg (by omega), beq_iff_eq.mpr left]
    · cases reply : replies.write call with
      | none =>
        refine ⟨false, written, by omega, iff_of_false Bool.false_ne_true (by omega), fun turns enough => ?_⟩
        obtain ⟨turns, rfl⟩ := Nat.exists_eq_succ_of_ne_zero (Nat.ne_of_gt (Nat.zero_lt_of_lt enough))
        rw [writeLoop, if_pos (by omega), reply]
      | some count =>
        have positive := progress call count reply
        have taken : buffer.length - written = remaining := by omega
        obtain ⟨success, final, inside, iff, ends⟩ := ih (remaining - min count remaining) (by omega) (call + 1)
          (written + min count remaining) (by omega)
        refine ⟨success, final, inside, iff, fun turns enough => ?_⟩
        obtain ⟨turns, rfl⟩ := Nat.exists_eq_succ_of_ne_zero (Nat.ne_of_gt (Nat.zero_lt_of_lt enough))
        have appended := overwrite_append 0 contents 0 (buffer.take written)
          ((buffer.drop written).take (min count remaining))
        rw [← List.take_add, length, zero_add] at appended
        rw [writeLoop, if_pos (by omega), reply]
        dsimp only
        rw [taken, ← appended]
        exact ends turns (by omega)

end Loop

section Flags

/-- The partition, counted from zero, is marked bootable. -/
def Bootable (contents : List UInt8) (i : ℕ) : Prop := contents.getD (flagOffset i) 0 = 0x80

instance (contents : List UInt8) (i : ℕ) : Decidable (Bootable contents i) := inferInstanceAs (Decidable (_ = _))

/-- Exactly one partition is marked bootable. -/
def OneBootable (contents : List UInt8) : Prop := ∃ only < 4, ∀ i < 4, Bootable contents i ↔ i = only

instance (contents : List UInt8) : Decidable (OneBootable contents) :=
  inferInstanceAs (Decidable (∃ only < 4, ∀ i < 4, Bootable contents i ↔ i = only))

/-- The writing stopped between the flag of the bootable partition and that of the named one. -/
def Torn (contents : List UInt8) (partition_number written : ℕ) : Prop :=
  ∃ old < 4, Bootable contents old ∧ flagOffset (min old (partition_number - 1)) < written ∧
    written ≤ flagOffset (max old (partition_number - 1))

/-- The contents when the start of the table with the named partition bootable was written. -/
def rewritten (contents : List UInt8) (partition_number written : ℕ) : List UInt8 :=
  overwrite 0 contents 0 ((markBootable (contents.take 512) partition_number).take written)

variable {contents : List UInt8} (whole : 512 ≤ contents.length) (partition_number : ℕ) {written : ℕ}
  (inside : written ≤ 512)

include whole inside

theorem rewritten_getD (index : ℕ) : (rewritten contents partition_number written).getD index 0 =
    if index < written then (markBootable (contents.take 512) partition_number).getD index 0
    else contents.getD index 0 := by
  have length : ((markBootable (contents.take 512) partition_number).take written).length = written := by
    rw [List.length_take, markBootable_length, List.length_take]
    omega
  rw [rewritten, getD_overwrite, length]
  simp only [Nat.zero_le, true_and, zero_add, Nat.sub_zero]
  split
  · next below => simp only [List.getD_eq_getElem?_getD, List.getElem?_take, if_pos below]
  · rfl

theorem rewritten_length : (rewritten contents partition_number written).length = contents.length := by
  apply length_overwrite
  rw [List.length_take, markBootable_length, List.length_take]
  omega

theorem rewritten_flag {i : ℕ} (below : i < 4) :
    (rewritten contents partition_number written).getD (flagOffset i) 0 =
      if flagOffset i < written then (if i + 1 = partition_number then 0x80 else 0)
      else contents.getD (flagOffset i) 0 := by
  have length : 512 ≤ (contents.take 512).length := by
    rw [List.length_take]
    omega
  rw [rewritten_getD whole _ inside, markBootable_flag length _ below]

theorem rewritten_other {index : ℕ} (other : ∀ i < 4, index ≠ flagOffset i) :
    (rewritten contents partition_number written).getD index 0 = contents.getD index 0 := by
  rw [rewritten_getD whole _ inside, markBootable_other _ other]
  split
  · next below => simp only [List.getD_eq_getElem?_getD, List.getElem?_take, if_pos (below.trans_le inside)]
  · rfl

theorem rewritten_bootable {i : ℕ} (below : i < 4) (positive : 1 ≤ partition_number) :
    Bootable (rewritten contents partition_number written) i ↔
      if flagOffset i < written then i = partition_number - 1 else Bootable contents i := by
  rw [Bootable, rewritten_flag whole _ inside below]
  split
  · split
    · next named => exact iff_of_true rfl (by omega)
    · next other => exact iff_of_false (by decide) (by omega)
  · rfl

/-- With one partition bootable before, there is one afterwards unless the table is torn. -/
theorem rewritten_oneBootable (positive : 1 ≤ partition_number) (bound : partition_number ≤ 4)
    (one : OneBootable contents) :
    OneBootable (rewritten contents partition_number written) ↔ ¬ Torn contents partition_number written := by
  obtain ⟨old, oldBelow, only⟩ := one
  have bootable {i : ℕ} (below : i < 4) := rewritten_bootable whole partition_number inside below positive
  have torn : Torn contents partition_number written ↔
      flagOffset (min old (partition_number - 1)) < written ∧
        written ≤ flagOffset (max old (partition_number - 1)) := by
    constructor
    · rintro ⟨other, otherBelow, marked, between⟩
      rwa [(only other otherBelow).mp marked] at between
    · exact fun between => ⟨old, oldBelow, (only old oldBelow).mpr rfl, between⟩
  have named : partition_number - 1 < 4 := by omega
  rw [torn]
  generalize partition_number - 1 = new at named bootable
  have offset (i : ℕ) : flagOffset i = 446 + 16 * i := rfl
  have oldOffset := offset old
  have newOffset := offset new
  constructor
  · rintro ⟨current, currentBelow, unique⟩ ⟨low, high⟩
    have atOld := (unique old oldBelow).symm.trans (bootable oldBelow)
    have atNew := (unique new named).symm.trans (bootable named)
    have atCurrent := (unique current currentBelow).symm.trans (bootable currentBelow)
    rw [only old oldBelow] at atOld
    rw [only new named] at atNew
    rw [only current currentBelow] at atCurrent
    have currentOffset := offset current
    rcases Nat.lt_or_ge old new with before | behind
    · rw [min_eq_left before.le] at low
      rw [max_eq_right before.le] at high
      rw [if_pos low] at atOld
      rw [if_neg (by omega)] at atNew
      split_ifs at atCurrent <;> omega
    · rw [min_eq_right behind] at low
      rw [max_eq_left behind] at high
      rw [if_neg (by omega)] at atOld
      rw [if_pos low] at atNew
      split_ifs at atCurrent <;> omega
  · intro whole
    have apart : ¬ (old < new ∧ flagOffset old < written ∧ written ≤ flagOffset new) := by
      rintro ⟨before, between⟩
      rw [min_eq_left before.le, max_eq_right before.le] at whole
      exact whole between
    have apart' : ¬ (new ≤ old ∧ flagOffset new < written ∧ written ≤ flagOffset old) := by
      rintro ⟨behind, between⟩
      rw [min_eq_right behind, max_eq_left behind] at whole
      exact whole between
    by_cases rewrote : flagOffset new < written
    · refine ⟨new, named, fun i below => ?_⟩
      have thisOffset := offset i
      rw [bootable below, only i below]
      split_ifs
      · rfl
      · omega
    · refine ⟨old, oldBelow, fun i below => ?_⟩
      have thisOffset := offset i
      rw [bootable below, only i below]
      split_ifs
      · omega
      · rfl

end Flags

section Action

/-- What holds when the action succeeded. -/
structure Switched (replies : Replies) (device : List Char) (hasOutputPipe : Bool) (contents : List UInt8)
    (partition_number : ℕ) (outcome : Outcome) : Prop where
  named : NamesPartition device partition_number
  read : replies.openRead = true ∧ ∃ count, replies.read = some count ∧ 512 ≤ count
  whole : 512 ≤ contents.length
  signature : contents.getD 510 0 = 0x55 ∧ contents.getD 511 0 = 0xaa
  written : outcome.written = 512
  length : outcome.contents.length = contents.length
  flags : ∀ i < 4, outcome.contents.getD (flagOffset i) 0 = if i + 1 = partition_number then 0x80 else 0
  others : ∀ index, (∀ i < 4, index ≠ flagOffset i) → outcome.contents.getD index 0 = contents.getD index 0
  output : outcome.output = if hasOutputPipe then some device else none

/-- The table of the device as it was to be written is torn. -/
def TornBy (input : Option (List Char)) (contents : List UInt8) (outcome : Outcome) : Prop :=
  ∃ device partition_number, input = some device ∧ partitionNumber device = some partition_number ∧
    Torn contents partition_number outcome.written

theorem not_tornBy {input : Option (List Char)} {contents : List UInt8} {outcome : Outcome}
    (nothing : outcome.written = 0) : ¬ TornBy input contents outcome := by
  rintro ⟨device, partition_number, -, -, old, -, -, low, -⟩
  rw [nothing] at low
  exact Nat.not_lt_zero _ low

theorem ReadMbr_spec {replies : Replies} {contents mbr : List UInt8} (read : ReadMbr replies contents 512 = some mbr) :
    replies.openRead = true ∧ (∃ count, replies.read = some count ∧ 512 ≤ count) ∧ 512 ≤ contents.length ∧
      mbr = contents.take 512 := by
  rw [ReadMbr] at read
  split at read
  · next opened =>
    cases reply : replies.read with
    | none =>
      rw [reply] at read
      cases read
    | some count =>
      rw [reply] at read
      dsimp only at read
      split at read
      · next all =>
        cases read
        rw [List.length_take] at all
        refine ⟨opened, ⟨count, rfl, by omega⟩, by omega, ?_⟩
        rw [min_eq_right (by omega)]
      · cases read
  · cases read

variable {replies : Replies} (progress : ∀ call count, replies.write call = some count → 0 < count)

include progress in
theorem WriteMbr_ends (partition_number : ℕ) {contents : List UInt8} (whole : 512 ≤ contents.length) :
    ∃ success final, final ≤ 512 ∧ (success = true ↔ final = 512) ∧ ∀ turns, 512 < turns →
      WriteMbr replies turns (markBootable (contents.take 512) partition_number) contents =
        some (success, rewritten contents partition_number final, final) := by
  have length : (markBootable (contents.take 512) partition_number).length = 512 := by
    rw [markBootable_length, List.length_take, min_eq_left whole]
  cases opened : replies.openWrite with
  | false =>
    refine ⟨false, 0, Nat.zero_le _, iff_of_false Bool.false_ne_true (by decide), fun turns _ => ?_⟩
    rw [WriteMbr, opened]
    rfl
  | true =>
    obtain ⟨success, final, inside, iff, ends⟩ :=
      writeLoop_ends progress contents 512 0 0 ((zero_add _).trans length.symm)
    rw [length] at inside iff
    refine ⟨success, final, inside, iff, fun turns enough => ?_⟩
    rw [WriteMbr, opened, if_pos rfl]
    exact ends turns enough

include progress in
/-- The action ends. It succeeds with the table switched, and when it fails on a device with one bootable
partition, there is still one exactly when the table is not torn. -/
theorem PerformAction_switches (input : Option (List Char)) (hasOutputPipe : Bool) (contents : List UInt8) :
    ∃ outcome,
      (∀ turns, 512 < turns → PerformAction replies input hasOutputPipe contents turns = some outcome) ∧
      (outcome.success = true → ∃ device partition_number, input = some device ∧
        Switched replies device hasOutputPipe contents partition_number outcome) ∧
      (outcome.success = false → OneBootable contents →
        (OneBootable outcome.contents ↔ ¬ TornBy input contents outcome)) := by
  have fails (performs : ∀ turns, 512 < turns →
      PerformAction replies input hasOutputPipe contents turns = some ⟨false, contents, 0, none⟩) : ∃ outcome,
      (∀ turns, 512 < turns → PerformAction replies input hasOutputPipe contents turns = some outcome) ∧
      (outcome.success = true → ∃ device partition_number, input = some device ∧
        Switched replies device hasOutputPipe contents partition_number outcome) ∧
      (outcome.success = false → OneBootable contents →
        (OneBootable outcome.contents ↔ ¬ TornBy input contents outcome)) :=
    ⟨_, performs, (nomatch ·), fun _ one => iff_of_true one (not_tornBy rfl)⟩
  cases input with
  | none => exact fails fun _ _ => rfl
  | some device =>
    cases device with
    | nil => exact fails fun _ _ => rfl
    | cons char rest =>
    generalize same : char :: rest = device at fails
    cases valid : partitionNumber device with
    | none =>
      apply fails
      intro turns _
      rw [← same] at valid ⊢
      simp only [PerformAction, valid]
    | some partition_number =>
      cases read : ReadMbr replies contents 512 with
      | none =>
        apply fails
        intro turns _
        rw [← same] at valid ⊢
        simp only [PerformAction, valid, read]
      | some mbr =>
        obtain ⟨opened, all, whole, rfl⟩ := ReadMbr_spec read
        by_cases signed : (contents.take 512).getD 510 0 ≠ 0x55 ∨ (contents.take 512).getD 511 0 ≠ 0xaa
        · apply fails
          intro turns _
          rw [← same] at valid ⊢
          simp only [PerformAction, valid, read, if_pos signed]
        · obtain ⟨success, final, inside, iff, ends⟩ := WriteMbr_ends progress partition_number whole
          have named := partitionNumber_spec valid
          obtain ⟨-, -, -, -, -, -, positive, bound⟩ := partitionNumber_spec valid
          refine ⟨⟨success, rewritten contents partition_number final, final,
            if success && hasOutputPipe then some device else none⟩, fun turns enough => ?_, ?_, ?_⟩
          · rw [← same] at valid ⊢
            simp only [PerformAction, valid, read, if_neg signed, ends turns enough, Option.map_some]
          · rintro (rfl : success = true)
            have wrote : final = 512 := iff.mp rfl
            refine ⟨device, partition_number, rfl, named, ⟨opened, all⟩, whole, ?_, wrote,
              rewritten_length whole _ inside, fun i below => ?_, fun index other => ?_, rfl⟩
            · push Not at signed
              simpa [List.getD_eq_getElem?_getD, List.getElem?_take] using signed
            · rw [rewritten_flag whole _ inside below, if_pos]
              rw [flagOffset, wrote]
              omega
            · exact rewritten_other whole _ inside other
          · rintro - one
            rw [rewritten_oneBootable whole _ inside positive bound one, not_iff_not]
            constructor
            · exact fun torn => ⟨device, partition_number, rfl, valid, torn⟩
            · rintro ⟨other, number, input, numbered, torn⟩
              cases input
              rw [valid] at numbered
              cases numbered
              exact torn

/-- A device whose first partition is bootable. -/
def firstBootable : List UInt8 := List.replicate 446 0 ++ [0x80] ++ List.replicate 63 0 ++ [0x55, 0xaa]

/-- What the calls reply when each `write` takes some bytes until it fails. -/
def stopsAfter (counts : List ℕ) : Replies := ⟨true, some 512, true, fun call => counts[call]?⟩

/-- The switch to the third partition in two writes. -/
theorem PerformAction_third : ∃ outcome,
    PerformAction (stopsAfter [100, 512]) (some "/dev/sda3".toList) true firstBootable 513 = some outcome ∧
      (outcome.success = true → outcome.written = 512 ∧ outcome.output = some "/dev/sda3".toList) := by
  have progress : ∀ call count, (stopsAfter [100, 512]).write call = some count → 0 < count := by
    intro call count reply
    have member : count ∈ [100, 512] := List.mem_of_getElem? reply
    simp only [List.mem_cons, List.not_mem_nil, or_false] at member
    omega
  obtain ⟨outcome, ends, switched, -⟩ :=
    PerformAction_switches progress (some "/dev/sda3".toList) true firstBootable
  refine ⟨outcome, ends 513 (by decide), fun success => ?_⟩
  obtain ⟨device, partition_number, input, done⟩ := switched success
  cases input
  exact ⟨done.written, done.output⟩

/-- The writing stops behind the flag of the first partition: none is bootable any more. -/
theorem PerformAction_torn :
    (PerformAction (stopsAfter [447]) (some "/dev/sda3".toList) true firstBootable 513).map
        (fun outcome => (outcome.success, decide (OneBootable outcome.contents))) = some (false, false) ∧
      OneBootable firstBootable := by
  decide +kernel

end Action

end ChromiumOS.UpdateEngine.SetBootableFlagAction
