import Mathlib

/-! # Subprocesses

`subprocess.cc`. A tag is the id that the main loop gives to the watch of a child. What a callback
does while it runs, and what the main loop dispatches meanwhile, are events of their own between the
two halves of `GChildExitedCallback`.
-/

namespace ChromiumOS.UpdateEngine

abbrev Tag := UInt32

/-- The address of a callback. -/
abbrev ExecCallback := ℕ

structure SubprocessCallbackRecord where
  callback : Option ExecCallback := none
  callback_data : ℕ := 0
deriving DecidableEq, Repr

structure Subprocess where
  callback_records_ : Tag → Option SubprocessCallbackRecord := fun _ => none

/-- A call of a callback. -/
structure Invocation where
  callback : ExecCallback
  return_code : ℤ
  callback_data : ℕ
deriving DecidableEq, Repr

namespace Subprocess

/-- `operator[]` of the map: a missing key gets an empty record. -/
def record (subprocess : Subprocess) (tag : Tag) : SubprocessCallbackRecord × Subprocess :=
  match subprocess.callback_records_ tag with
  | some record => (record, subprocess)
  | none =>
    ({}, { subprocess with
      callback_records_ := Function.update subprocess.callback_records_ tag (some {}) })

/-- What `Exec` does once the child runs and its watch has a tag. -/
def Exec (subprocess : Subprocess) (tag : Tag) (callback : Option ExecCallback) (p : ℕ) : Subprocess :=
  { subprocess with callback_records_ :=
      Function.update subprocess.callback_records_ tag (some { callback, callback_data := p }) }

/-- `GChildExitedCallback` up to the call of the callback, if there is one. -/
def childExited (subprocess : Subprocess) (tag : Tag) (status : ℤ) : Option Invocation × Subprocess :=
  let (record, subprocess) := subprocess.record tag
  (record.callback.map fun callback =>
    { callback, return_code := status, callback_data := record.callback_data }, subprocess)

/-- `GChildExitedCallback` after the callback. -/
def childCollected (subprocess : Subprocess) (tag : Tag) : Subprocess :=
  { subprocess with callback_records_ := Function.update subprocess.callback_records_ tag none }

def CancelExec (subprocess : Subprocess) (tag : Tag) : Subprocess :=
  let (record, subprocess) := subprocess.record tag
  if record.callback.isSome then
    { subprocess with callback_records_ :=
        Function.update subprocess.callback_records_ tag (some { record with callback := none }) }
  else subprocess

end Subprocess

/-- A child process with its watch: which `Exec` started it, and whether it has exited. -/
structure Child where
  exec : ℕ
  exited : Bool
deriving DecidableEq, Repr

/-- The singleton and what has happened around it. The data that the `n`th `Exec` passes to its
callback is `n`, which tells its calls from all others. -/
structure Session where
  subprocess : Subprocess := {}
  /-- The children that have been started and not collected yet, by the tag of their watch. -/
  children : Tag → Option Child := fun _ => none
  /-- The callbacks of the `Exec` calls that started a child. -/
  execs : List (Option ExecCallback) := []
  /-- The `Exec` calls cancelled before their child exited. -/
  cancelled : Finset ℕ := ∅
  /-- The `Exec` calls whose child has exited. -/
  exited : Finset ℕ := ∅
  /-- The callbacks called so far. -/
  called : List Invocation := []

namespace Session

inductive Event where
  /-- `Exec`, with the tag that the watch gets if the child can be started. -/
  | Exec (callback : Option ExecCallback) (spawned : Option Tag)
  | childExited (tag : Tag) (status : ℤ)
  | childCollected (tag : Tag)
  | CancelExec (tag : Tag)
deriving DecidableEq, Repr

/-- The session after an event, if it can happen: a tag is given to one live watch at a time, and a
child exits and is collected once. -/
def step (session : Session) : Event → Option Session
  | .Exec _ none => some session
  | .Exec callback (some tag) =>
    if tag ≠ 0 ∧ session.children tag = none then
      some { session with
        subprocess := session.subprocess.Exec tag callback session.execs.length
        children := Function.update session.children tag (some ⟨session.execs.length, false⟩)
        execs := session.execs ++ [callback] }
    else none
  | .childExited tag status =>
    match session.children tag with
    | some ⟨exec, false⟩ =>
      let (invocation, subprocess) := session.subprocess.childExited tag status
      some { session with
        subprocess
        children := Function.update session.children tag (some ⟨exec, true⟩)
        exited := insert exec session.exited
        called := session.called ++ invocation.toList }
    | _ => none
  | .childCollected tag =>
    match session.children tag with
    | some ⟨_, true⟩ =>
      some { session with
        subprocess := session.subprocess.childCollected tag
        children := Function.update session.children tag none }
    | _ => none
  | .CancelExec tag =>
    let session := { session with subprocess := session.subprocess.CancelExec tag }
    match session.children tag with
    | some ⟨exec, false⟩ => some { session with cancelled := insert exec session.cancelled }
    | _ => some session

end Session

end ChromiumOS.UpdateEngine
