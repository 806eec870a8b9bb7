import ChromiumOS.Model.MetricsDaemon.MetricsDaemon
import ChromiumOS.ToMathlib.ListRuns

/-! # Durations of network states

A metric is published for every run of signals with the same known state that another known state ends. Durations
are in milliseconds up to the largest whole number of seconds that an `int` has room for.
-/

namespace ChromiumOS.MetricsDaemon

open ListRuns

/-- A known state and the time of its signal. -/
abbrev StateSignal := NetworkStateId × timeval

/-- The state that a signal is for. -/
def Signal.known (signal : Signal) : Option StateSignal :=
  if signal.property ≠ "ConnectionState" then none
  else (GetNetworkStateId signal.value).map fun id => (id, signal.time)

def knownSignals (signals : List Signal) : List StateSignal := signals.filterMap Signal.known

def timeval.microseconds (time : timeval) : ℤ := time.tv_sec * 1000000 + time.tv_usec

/-- The whole milliseconds between two times. -/
def milliseconds (first second : timeval) : ℤ := (second.microseconds - first.microseconds) / 1000

/-- A duration that is published. -/
def saturated (duration : ℤ) : ℤ := if duration ≥ INT_MAX / 1000 * 1000 then INT_MAX else duration

/-- The metric of a run of a state and the next one. -/
def runMetric (run next : StateSignal) : Metric where
  name := (network_states_ run.1).stat_name
  value := toString (saturated (milliseconds run.2 next.2))

/-- The metrics of all runs that others follow. -/
def completed (starts : List StateSignal) : List Metric := List.zipWith runMetric starts starts.tail

theorem timersub_microseconds (first second : timeval) :
    (timersub first second).microseconds = first.microseconds - second.microseconds := by
  rw [timersub]
  split <;>
  · simp only [timeval.microseconds]
    ring

/-- What is published of a duration that is not negative. -/
theorem diffMs_eq {first second : timeval} (order : first.microseconds ≤ second.microseconds) :
    diffMs (timersub second first) = saturated (milliseconds first second) := by
  have exact := timersub_microseconds second first
  rw [milliseconds, ← exact]
  generalize timersub second first = diff at exact ⊢
  have low := diff.usec_nonneg
  have high := diff.usec_lt
  have nonneg : 0 ≤ diff.microseconds := by omega
  rw [timeval.microseconds] at nonneg ⊢
  have whole : (diff.tv_sec * 1000000 + diff.tv_usec) / 1000 = diff.tv_usec / 1000 + diff.tv_sec * 1000 := by omega
  rw [diffMs, saturated, whole, INT_MAX]
  by_cases large : diff.tv_sec ≥ 2147483647 / 1000
  · rw [if_pos large, if_pos (by omega)]
  · rw [if_neg large, if_neg (by omega), toInt, Int.bmod_eq_of_le (by omega) (by omega)]

/-- A signal changes the state exactly if it is for another known one. -/
theorem NetSignalHandler_eq (daemon : Daemon) (signal : Signal) : daemon.NetSignalHandler signal =
    match signal.known with
    | none => (daemon, none)
    | some (new_id, now) =>
      if some new_id = daemon.network_state_id_ then (daemon, none)
      else
        ({ network_state_id_ := some new_id, network_state_start_ := now },
          daemon.network_state_id_.map fun old_id =>
            { name := (network_states_ old_id).stat_name
              value := toString (diffMs (timersub now daemon.network_state_start_)) }) := by
  rw [Daemon.NetSignalHandler, Signal.known]
  split
  · rfl
  · rw [Daemon.LogNetworkStateChange]
    cases GetNetworkStateId signal.value <;> rfl

/-- The metrics from the start of a run on. -/
theorem publish_from (start : StateSignal) (signals : List Signal)
    (later : ∀ signal ∈ signals, start.2.microseconds ≤ signal.time.microseconds)
    (ordered : signals.Pairwise fun first second => first.time.microseconds ≤ second.time.microseconds) :
    Daemon.publish { network_state_id_ := some start.1, network_state_start_ := start.2 } signals =
      completed (start :: changes Prod.fst start (knownSignals signals)) := by
  induction signals generalizing start with
  | nil => rfl
  | cons signal rest ih =>
    obtain ⟨first, ordered⟩ := List.pairwise_cons.mp ordered
    have after : ∀ other ∈ rest, start.2.microseconds ≤ other.time.microseconds :=
      fun other member => later other (List.mem_cons_of_mem _ member)
    rw [Daemon.publish, NetSignalHandler_eq, knownSignals, List.filterMap_cons]
    cases known : signal.known with
    | none => exact ih start after ordered
    | some next =>
      obtain ⟨new_id, now⟩ := next
      have time : now = signal.time := by
        rw [Signal.known] at known
        split at known
        · cases known
        · obtain ⟨id, -, same⟩ := Option.map_eq_some_iff.mp known
          cases same
          rfl
      by_cases same : new_id = start.1
      · subst same
        simp only [changes, if_true]
        exact ih start after ordered
      · simp only [Option.some.injEq, same, if_false, changes]
        rw [ih (new_id, now) (time ▸ first) ordered]
        have order := later signal List.mem_cons_self
        rw [← time] at order
        simp only [Option.map_some, Option.toList_some, diffMs_eq order]
        rfl

/-- Exactly the completed runs of known states are published, in order, with their durations. -/
theorem state_durations (signals : List Signal)
    (ordered : signals.Pairwise fun first second => first.time.microseconds ≤ second.time.microseconds) :
    Daemon.publish {} signals = completed (starts Prod.fst (knownSignals signals)) := by
  induction signals with
  | nil => rfl
  | cons signal rest ih =>
    obtain ⟨first, ordered⟩ := List.pairwise_cons.mp ordered
    rw [Daemon.publish, NetSignalHandler_eq, knownSignals, List.filterMap_cons]
    cases known : signal.known with
    | none => exact ih ordered
    | some next =>
      obtain ⟨new_id, now⟩ := next
      have time : now = signal.time := by
        rw [Signal.known] at known
        split at known
        · cases known
        · obtain ⟨id, -, same⟩ := Option.map_eq_some_iff.mp known
          cases same
          rfl
      simp only [starts_cons, reduceCtorEq, if_false, Option.map_none, Option.toList_none, List.nil_append]
      exact publish_from (new_id, now) rest (time ▸ first) ordered

section Saturation

def atSecond (second : ℤ) : timeval := ⟨second, 0, le_rfl, by decide⟩

def idleThenOnline (second : ℤ) : List Signal :=
  [⟨"ConnectionState", "idle", atSecond 0⟩, ⟨"ConnectionState", "roaming", atSecond 1⟩,
    ⟨"ConnectionState", "online", atSecond second⟩]

/-- A run with a signal of an unknown state in it. -/
theorem state_durations_idle :
    Daemon.publish {} (idleThenOnline 7) =
      completed (starts Prod.fst (knownSignals (idleThenOnline 7))) :=
  state_durations (idleThenOnline 7) (by decide)

/-- A duration of exactly 2147483 seconds fits into an `int` and is replaced. -/
theorem duration_replaced :
    Daemon.publish {} (idleThenOnline 2147483) = [⟨"ConnmanIdle", "2147483647"⟩] ∧
      starts Prod.fst (knownSignals (idleThenOnline 2147483)) =
        [(.Idle, atSecond 0), (.Online, atSecond 2147483)] ∧
      milliseconds (atSecond 0) (atSecond 2147483) = 2147483000 ∧ ¬ 2147483000 > INT_MAX := by
  refine ⟨?_, rfl, rfl, by decide⟩
  decide +kernel

end Saturation

end ChromiumOS.MetricsDaemon
