import ChromiumOS.Model.MetricsDaemon.MetricsDaemon
import ChromiumOS.ToMathlib.PartialRun

/-! # The file of metrics

Records begin with their length, so a reader finds them one after the other as long as all of them are whole. A call
that takes the lock and does not write its whole record goes without releasing the lock, and a part of a record
stays in the file.
-/

namespace ChromiumOS.MetricsDaemon

open Radix

/-- The number of bytes of the record of a metric. -/
def recordLength (name value : CString) : ℕ := name.bytes.length + value.bytes.length + 6

def record (metric : CString × CString) : List UInt8 :=
  message (recordLength metric.1 metric.2) metric.1 metric.2

/-- Texts that end in a NUL each, one after the other. -/
def readTexts (body : List UInt8) : Option (List UInt8 × List UInt8) :=
  let name := body.takeWhile (· ≠ 0)
  let value := (body.drop (name.length + 1)).takeWhile (· ≠ 0)
  if body = (name ++ [0]) ++ (value ++ [0]) then some (name, value) else none

/-- The reader of a file: records one after the other, each as long as it says. -/
def readRecords : ℕ → List UInt8 → Option (List (List UInt8 × List UInt8))
  | 0, bytes => if bytes = [] then some [] else none
  | fuel + 1, bytes =>
    if bytes = [] then some []
    else if bytes.length < 4 then none
    else
      let length := leNat (bytes.take 4)
      if length < 4 ∨ bytes.length < length then none
      else (readTexts ((bytes.take length).drop 4)).bind fun metric =>
        (readRecords fuel (bytes.drop length)).map (metric :: ·)

variable {name value : CString} {metrics : List (CString × CString)}

theorem message_length (count : ℕ) (name value : CString) :
    (message count name value).length = recordLength name value := by
  simp only [message, List.length_append, leBytes_length, List.length_cons, List.length_nil, recordLength]
  omega

theorem record_length (metric : CString × CString) : (record metric).length = recordLength metric.1 metric.2 :=
  message_length _ _ _

/-- Text without a NUL is what stands before the first one. -/
theorem takeWhile_text (text : CString) (rest : List UInt8) :
    (text.bytes ++ ([0] ++ rest)).takeWhile (· ≠ 0) = text.bytes := by
  have nonzero : ∀ byte ∈ text.bytes, decide (byte ≠ 0) = true := by
    intro byte member
    refine decide_eq_true fun zero => text.no_nul ?_
    rw [← zero]
    exact member
  rw [List.takeWhile_append_of_pos nonzero]
  exact List.append_nil _

theorem readTexts_message (name value : CString) :
    readTexts ((name.bytes ++ [0]) ++ (value.bytes ++ [0])) = some (name.bytes, value.bytes) := by
  have first : ((name.bytes ++ [0]) ++ (value.bytes ++ [0])).takeWhile (· ≠ 0) = name.bytes := by
    rw [List.append_assoc]
    exact takeWhile_text name _
  have behind : ((name.bytes ++ [0]) ++ (value.bytes ++ [0])).drop (name.bytes.length + 1) = value.bytes ++ [0] :=
    List.drop_left' List.length_append
  have second : (value.bytes ++ [0]).takeWhile (· ≠ 0) = value.bytes := takeWhile_text value []
  simp only [readTexts, first, behind, second, if_true]

/-- The reader takes the first record from the file. -/
theorem readRecords_record (fuel : ℕ) (metric : CString × CString) (rest : List UInt8)
    (short : recordLength metric.1 metric.2 < 256 ^ 4) :
    readRecords (fuel + 1) (record metric ++ rest) =
      (readRecords fuel rest).map ((metric.1.bytes, metric.2.bytes) :: ·) := by
  have size : (record metric ++ rest).length = recordLength metric.1 metric.2 + rest.length := by
    rw [List.length_append, record_length]
  have six : 6 ≤ recordLength metric.1 metric.2 := Nat.le_add_left _ _
  have prefixed : (record metric ++ rest).take 4 = leBytes 4 (recordLength metric.1 metric.2) := by
    rw [record, message, List.append_assoc, List.append_assoc]
    exact List.take_left' (leBytes_length _ _)
  have whole : (record metric ++ rest).take (recordLength metric.1 metric.2) = record metric :=
    List.take_left' (record_length metric)
  have body : (record metric).drop 4 = (metric.1.bytes ++ [0]) ++ (metric.2.bytes ++ [0]) := by
    rw [record, message, List.append_assoc]
    exact List.drop_left' (leBytes_length _ _)
  have after : (record metric ++ rest).drop (recordLength metric.1 metric.2) = rest :=
    List.drop_left' (record_length metric)
  have some_bytes : record metric ++ rest ≠ [] := by
    intro none
    rw [none, List.length_nil] at size
    omega
  rw [readRecords, if_neg some_bytes, if_neg (by omega), prefixed, leNat_leBytes_of_lt short, if_neg (by omega)]
  rw [whole, body, readTexts_message, after, Option.bind_some]

/-- The reader finds the metrics of a file of whole records. -/
theorem readRecords_flatMap (short : ∀ metric ∈ metrics, recordLength metric.1 metric.2 < 256 ^ 4) {fuel : ℕ}
    (enough : metrics.length ≤ fuel) :
    readRecords fuel (metrics.flatMap record) = some (metrics.map fun metric => (metric.1.bytes, metric.2.bytes)) := by
  induction metrics generalizing fuel with
  | nil => cases fuel <;> rfl
  | cons metric rest ih =>
    cases fuel with
    | zero => exact absurd enough (by simp)
    | succ fuel =>
      rw [List.flatMap_cons, readRecords_record fuel metric _ (short metric List.mem_cons_self),
        ih (fun other member => short other (List.mem_cons_of_mem _ member)) (Nat.le_of_succ_le_succ enough)]
      rfl

/-- A file takes at least one byte for each record. -/
theorem length_le_flatMap (metrics : List (CString × CString)) : metrics.length ≤ (metrics.flatMap record).length := by
  induction metrics with
  | nil => exact le_rfl
  | cons metric rest ih =>
    rw [List.flatMap_cons, List.length_append, record_length, recordLength, List.length_cons]
    omega

/-- A call, with what the system calls return. -/
structure PublishCall where
  name : CString
  value : CString
  calls : SystemCalls

/-- The call has written as many bytes as it wanted to. -/
def PublishCall.wrote (call : PublishCall) : Bool :=
  call.calls.lock && decide (messageLength call.name call.value ≤ kMetricsMessageMaxLength) &&
    call.calls.write.any (messageLength call.name call.value ≤ ·)

/-- The file, whether the last call that took the lock failed to release it, and the metrics of the calls that have
written. -/
structure FileRun where
  file : MetricsFile := {}
  excused : Bool := false
  published : List (CString × CString) := []

namespace FileRun

def step (run : FileRun) (call : PublishCall) : Option FileRun :=
  some
    { file := run.file.ChromePublishMetric call.name call.value call.calls
      excused := if call.calls.lock then call.wrote && !call.calls.unlock else run.excused
      published := if call.wrote then run.published ++ [(call.name, call.value)] else run.published }

/-- The lock is free unless releasing it failed, and the reader finds the metrics that were written. -/
structure Integrity (run : FileRun) : Prop where
  intact : run.file.intact = true
  unlocked : run.file.locked = true → run.excused = true
  whole : run.file.contents = run.published.flatMap record
  parsed : readRecords run.file.contents.length run.file.contents =
    some (run.published.map fun metric => (metric.1.bytes, metric.2.bytes))

/-- A call that gets the lock has a record that fits and writes all of it. -/
def Complete (_ : FileRun) (call : PublishCall) : Prop :=
  call.calls.lock = true → recordLength call.name call.value ≤ kMetricsMessageMaxLength ∧
    ∃ count ∈ call.calls.write, recordLength call.name call.value ≤ count

structure Inv (run : FileRun) : Prop where
  intact : run.file.intact = true
  unlocked : run.file.locked = true → run.excused = true
  whole : run.file.contents = run.published.flatMap record
  short : ∀ metric ∈ run.published, recordLength metric.1 metric.2 ≤ kMetricsMessageMaxLength

variable {run next : FileRun} {call : PublishCall}

theorem Inv.integrity (inv : Inv run) : Integrity run where
  intact := inv.intact
  unlocked := inv.unlocked
  whole := inv.whole
  parsed := by
    rw [inv.whole]
    refine readRecords_flatMap (fun metric member => ?_) (length_le_flatMap _)
    exact (inv.short metric member).trans_lt (by decide)

theorem messageLength_eq (fits : recordLength name value ≤ kMetricsMessageMaxLength) :
    messageLength name value = recordLength name value := by
  rw [kMetricsMessageMaxLength, recordLength] at fits
  rw [messageLength, recordLength]
  exact Nat.mod_eq_of_lt (by omega)

theorem inv_start : Inv {} where
  intact := rfl
  unlocked := fun held => nomatch (held : false = true)
  whole := rfl
  short := fun _ member => absurd member List.not_mem_nil

theorem step_inv (inv : Inv run) (complete : run.Complete call) (taken : run.step call = some next) : Inv next := by
  cases taken
  by_cases locks : call.calls.lock = true
  · obtain ⟨fits, count, member, enough⟩ := complete locks
    have written : call.calls.write = some count := member
    have length := messageLength_eq fits
    have wrote : call.wrote = true := by
      rw [PublishCall.wrote, locks, length, decide_eq_true fits, written, Option.any_some, decide_eq_true enough]
      rfl
    have all : (message (recordLength call.name call.value) call.name call.value).take
        (recordLength call.name call.value) = record (call.name, call.value) :=
      List.take_of_length_le (message_length _ _ _).le
    have taken : (record (call.name, call.value)).take count = record (call.name, call.value) :=
      List.take_of_length_le ((record_length _).trans_le enough)
    have result : run.file.ChromePublishMetric call.name call.value call.calls =
        { contents := run.file.contents ++ record (call.name, call.value)
          locked := !call.calls.unlock
          intact := true } := by
      have small : ¬ recordLength call.name call.value > kMetricsMessageMaxLength := not_lt.mpr fits
      have finished : ¬ ∀ count ∈ call.calls.write, count < recordLength call.name call.value := fun short =>
        absurd (short count member) (not_lt.mpr enough)
      simp only [MetricsFile.ChromePublishMetric, locks, Bool.not_true, Bool.false_eq_true, if_false, length, small,
        inv.intact, message_length, fits, decide_true, Bool.and_self]
      rw [if_neg finished, all, written, Option.getD_some, taken]
    rw [result, wrote]
    refine ⟨rfl, fun held => ?_, ?_, fun metric member => ?_⟩
    · rw [if_pos locks]
      exact held
    · rw [if_pos rfl, List.flatMap_append, inv.whole, List.flatMap_singleton]
    · rcases List.mem_append.mp member with old | new
      · exact inv.short metric old
      · rw [List.mem_singleton.mp new]
        exact fits
  · have wrote : call.wrote = false := by
      rw [PublishCall.wrote, Bool.eq_false_iff.mpr locks]
      rfl
    have result : run.file.ChromePublishMetric call.name call.value call.calls = run.file := by
      rw [MetricsFile.ChromePublishMetric, if_pos (by rw [Bool.eq_false_iff.mpr locks]; rfl)]
    rw [result, wrote]
    exact ⟨inv.intact, by rw [if_neg locks]; exact inv.unlocked, inv.whole, inv.short⟩

/-- A call that gets the lock and does not write its record keeps the lock, or has written behind its array. -/
theorem step_broken (incomplete : ¬ run.Complete call) : ∃ next, run.step call = some next ∧ ¬ next.Integrity := by
  refine ⟨_, rfl, fun integrity => ?_⟩
  obtain ⟨locks, unmet⟩ := Classical.not_imp.mp incomplete
  have unlocked := integrity.unlocked
  have intact := integrity.intact
  simp only [MetricsFile.ChromePublishMetric, locks, Bool.not_true, Bool.false_eq_true, if_false, if_true]
    at unlocked intact
  by_cases long : messageLength call.name call.value > kMetricsMessageMaxLength
  · have wrote : call.wrote = false := by
      rw [PublishCall.wrote, decide_eq_false (not_le.mpr long), Bool.and_false, Bool.false_and]
    rw [if_pos long, wrote] at unlocked
    exact nomatch unlocked rfl
  · rw [if_neg long] at unlocked intact
    by_cases short : ∀ count ∈ call.calls.write, count < messageLength call.name call.value
    · have wrote : call.wrote = false := by
        rw [PublishCall.wrote]
        cases written : call.calls.write with
        | none => exact Bool.and_false _
        | some count =>
          rw [Option.any_some, decide_eq_false (not_le.mpr (short count written)), Bool.and_false]
      rw [if_pos short, wrote] at unlocked
      exact nomatch unlocked rfl
    · rw [if_neg short, Bool.and_eq_true, decide_eq_true_eq, message_length] at intact
      refine unmet ⟨intact.2, ?_⟩
      rw [messageLength_eq intact.2] at short
      simp only [not_forall, not_lt] at short
      obtain ⟨count, written, enough⟩ := short
      exact ⟨count, written, enough⟩

end FileRun

/-- The file is whole and the lock free after every call of a run exactly if every call that gets the lock has a
record that fits and writes all of it. -/
theorem metrics_file_integrity (calls : List PublishCall) :
    PartialRun.Always FileRun.step FileRun.Integrity {} calls ↔
      PartialRun.Throughout FileRun.step FileRun.Complete {} calls :=
  PartialRun.always_iff_throughout FileRun.Inv (fun _ inv => inv.integrity)
    (fun _ _ _ inv complete taken => FileRun.step_inv inv complete taken)
    (fun _ _ _ incomplete => FileRun.step_broken incomplete)
    FileRun.inv_start calls

section FullDisk

def memory : PublishCall where
  name := ⟨[77], by decide⟩
  value := ⟨[49], by decide⟩
  calls := ⟨true, some 3, true⟩

/-- On a full disk three bytes of a record are written: the lock is held on, and no reader finds a record. -/
theorem short_write :
    ∃ run, PartialRun.run FileRun.step {} [memory] = some run ∧ run.file.locked = true ∧ run.excused = false ∧
      run.file.contents = [8, 0, 0] ∧ readRecords 3 run.file.contents = none ∧ ¬ run.Integrity := by
  refine ⟨_, rfl, rfl, rfl, rfl, rfl, fun integrity => ?_⟩
  exact absurd (integrity.unlocked rfl) (by decide)

end FullDisk

end ChromiumOS.MetricsDaemon
