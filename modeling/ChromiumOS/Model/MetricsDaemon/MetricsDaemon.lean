import ChromiumOS.ToMathlib.Radix

/-! # The metrics daemon

`metrics_daemon.cc`: the durations of network states, and the messages to Chrome in a file that is appended to under
a lock. What the system calls return is part of every call. Text is the list of its bytes.
-/

namespace ChromiumOS.MetricsDaemon

open Radix

def INT_MAX : ℤ := 2147483647

/-- The value of a `long` in an `int`. -/
def toInt (value : ℤ) : ℤ := value.bmod (2 ^ 32)

/-- A time, in seconds and microseconds. -/
structure timeval where
  tv_sec : ℤ
  tv_usec : ℤ
  usec_nonneg : 0 ≤ tv_usec
  usec_lt : tv_usec < 1000000

/-- `timersub`. -/
def timersub (first second : timeval) : timeval :=
  if borrow : first.tv_usec - second.tv_usec < 0 then
    { tv_sec := first.tv_sec - second.tv_sec - 1
      tv_usec := first.tv_usec - second.tv_usec + 1000000
      usec_nonneg := by have := first.usec_nonneg; have := second.usec_lt; omega
      usec_lt := by omega }
  else
    { tv_sec := first.tv_sec - second.tv_sec
      tv_usec := first.tv_usec - second.tv_usec
      usec_nonneg := by omega
      usec_lt := by have := first.usec_lt; have := second.usec_nonneg; omega }

inductive NetworkStateId where
  | Association
  | Configuration
  | Disconnect
  | Failure
  | Idle
  | Offline
  | Online
  | Ready
deriving DecidableEq, Repr

/-- The names of a state and of its statistic. -/
structure NetworkState where
  name : String
  stat_name : String

def network_states_ : NetworkStateId → NetworkState
  | .Association => ⟨"association", "ConnmanAssociation"⟩
  | .Configuration => ⟨"configuration", "ConnmanConfiguration"⟩
  | .Disconnect => ⟨"disconnect", "ConnmanDisconnect"⟩
  | .Failure => ⟨"failure", "ConnmanFailure"⟩
  | .Idle => ⟨"idle", "ConnmanIdle"⟩
  | .Offline => ⟨"offline", "ConnmanOffline"⟩
  | .Online => ⟨"online", "ConnmanOnline"⟩
  | .Ready => ⟨"ready", "ConnmanReady"⟩

def NetworkStateId.all : List NetworkStateId :=
  [.Association, .Configuration, .Disconnect, .Failure, .Idle, .Offline, .Online, .Ready]

/-- The state of a name; none is the unknown one. -/
def GetNetworkStateId (state_name : String) : Option NetworkStateId :=
  NetworkStateId.all.find? fun id => state_name == (network_states_ id).name

/-- A statistic and its value. -/
structure Metric where
  name : String
  value : String
deriving DecidableEq

/-- The current state and when it was entered. -/
structure Daemon where
  network_state_id_ : Option NetworkStateId := none
  network_state_start_ : timeval := ⟨0, 0, le_rfl, by decide⟩

/-- What a duration is published as. -/
def diffMs (diff : timeval) : ℤ :=
  let diff_ms := toInt (diff.tv_usec / 1000 + diff.tv_sec * 1000)
  if diff.tv_sec ≥ INT_MAX / 1000 then INT_MAX else diff_ms

/-- The daemon after a change of the state at a time, and the metric that it publishes. -/
def Daemon.LogNetworkStateChange (daemon : Daemon) (newstate : String) (now : timeval) : Daemon × Option Metric :=
  match GetNetworkStateId newstate with
  | none => (daemon, none)
  | some new_id =>
    if some new_id = daemon.network_state_id_ then (daemon, none)
    else
      ({ network_state_id_ := some new_id, network_state_start_ := now },
        daemon.network_state_id_.map fun old_id =>
          { name := (network_states_ old_id).stat_name
            value := toString (diffMs (timersub now daemon.network_state_start_)) })

/-- A signal, when it comes in. -/
structure Signal where
  property : String
  value : String
  time : timeval

def Daemon.NetSignalHandler (daemon : Daemon) (signal : Signal) : Daemon × Option Metric :=
  if signal.property ≠ "ConnectionState" then (daemon, none)
  else daemon.LogNetworkStateChange signal.value signal.time

/-- The metrics that are published for signals. -/
def Daemon.publish (daemon : Daemon) : List Signal → List Metric
  | [] => []
  | signal :: rest =>
    (daemon.NetSignalHandler signal).2.toList ++ (daemon.NetSignalHandler signal).1.publish rest

def kMetricsMessageMaxLength : ℕ := 4096

/-- Text without a NUL. -/
structure CString where
  bytes : List UInt8
  no_nul : 0 ∉ bytes

/-- What the system calls of a call return: whether `flock` works, and the number of bytes that `write` writes. -/
structure SystemCalls where
  lock : Bool
  write : Option ℕ
  unlock : Bool

/-- The file, whether this process has locked it, and whether the stack is as it should be. -/
structure MetricsFile where
  contents : List UInt8 := []
  locked : Bool := false
  intact : Bool := true

/-- The message for a metric, with a length of 32 bits. -/
def message (message_length : ℕ) (name value : CString) : List UInt8 :=
  leBytes 4 message_length ++ (name.bytes ++ [0]) ++ (value.bytes ++ [0])

/-- The sum of lengths in 32 bits. -/
def messageLength (name value : CString) : ℕ := (name.bytes.length + value.bytes.length + 2 + 4) % 2 ^ 32

/-- `ChromePublishMetric`, and whether it has written its message and tried to unlock the file. -/
def MetricsFile.ChromePublishMetric (file : MetricsFile) (name value : CString) (calls : SystemCalls) : MetricsFile :=
  if !calls.lock then file
  else
    let message_length := messageLength name value
    let file := { file with locked := true }
    if message_length > kMetricsMessageMaxLength then file
    else
      let written := message message_length name value
      let file := { file with intact := file.intact && decide (written.length ≤ kMetricsMessageMaxLength) }
      let file := { file with contents := file.contents ++ (written.take message_length).take (calls.write.getD 0) }
      if ∀ count ∈ calls.write, count < message_length then file
      else { file with locked := !calls.unlock }

end ChromiumOS.MetricsDaemon
