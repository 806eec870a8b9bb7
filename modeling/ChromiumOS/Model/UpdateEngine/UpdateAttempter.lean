import ChromiumOS.Model.UpdateEngine.ActionProcessor
import ChromiumOS.Model.UpdateEngine.FilesystemCopierAction
import ChromiumOS.Model.UpdateEngine.Utils

/-! # The update attempter

`main.cc`, which queues the actions of an update, bonds them and tries again, with the actions in front of the copier.
What libxml2 makes of a response is its update check node, as the attributes of that node. The actions of the two
calls of `Update` are different objects, named by whether the update is forced to be full.
-/

namespace ChromiumOS.UpdateEngine

open ActionProcessor TextSearch

/-- The response, as far as actions read it. -/
structure UpdateCheckResponse where
  update_exists : Bool := false
  codebase : List Char := []
  hash : String := ""
deriving DecidableEq

namespace UpdateCheckAction

/-- An attribute of a node, which is empty if there is none. -/
def XmlGetProperty (node : List (String × String)) (name : String) : String := (node.lookup name).getD ""

/-- What the action puts into its output pipe, if it completes with success. -/
def TransferComplete (successful : Bool) (updatecheck_node : Option (List (String × String))) :
    Option UpdateCheckResponse :=
  if !successful then none
  else
    match updatecheck_node with
    | none => none
    | some node =>
      if (node.lookup "status").isNone then none
      else
        let status := XmlGetProperty node "status"
        if status = "noupdate" then some {}
        else if status ≠ "ok" then none
        else
          some
            { update_exists := true
              codebase := (XmlGetProperty node "codebase").toList
              hash := XmlGetProperty node "hash" }

end UpdateCheckAction

namespace OmahaResponseHandlerAction

/-- The device to install on: the other one of a pair. -/
def GetInstallDev (boot_dev : List Char) : Option (List Char) :=
  match boot_dev.getLast? with
  | none => none
  | some last_char =>
    if '0' ≤ last_char ∧ last_char ≤ '9' then
      some (boot_dev.dropLast ++
        [Char.ofNat (if last_char.toNat % 2 = 1 then last_char.toNat + 1 else last_char.toNat - 1)])
    else none

def kFullUpdateTag : List Char := "_FULL_".toList

/-- The part of an URL after its last slash. -/
def filename (codebase : List Char) : List Char := (codebase.reverse.takeWhile (· ≠ '/')).reverse

/-- Whether there is no update, and the plan, if the action completes with success. -/
def PerformAction (response : UpdateCheckResponse) (boot_device : List Char) : Bool × Option (InstallPlan String) :=
  if !response.update_exists then (true, none)
  else
    match GetInstallDev boot_device with
    | none => (false, none)
    | some install_path =>
      (false, some
        { is_full_update := (find kFullUpdateTag (filename response.codebase)).isSome
          download_url := String.ofList response.codebase
          download_hash := response.hash
          install_path := String.ofList install_path })

end OmahaResponseHandlerAction

/-- The actions, in the order in which they are queued. -/
inductive ActionType where
  | OmahaRequestPrepAction
  | UpdateCheckAction
  | OmahaResponseHandlerAction
  | FilesystemCopierAction
  | DownloadAction
  | PostinstallRunnerAction
  | SetBootableFlagAction
deriving DecidableEq, Repr

/-- What a call of `Update` meets: in the files that it reads, on the network and on the devices. -/
structure Surroundings where
  GetMachineId : Bool
  successful : Bool
  updatecheck_node : Option (List (String × String))
  proc_cmdline : Option (List Char)
  tree : SourceTree
  copier : CopierSteps
  replies : String → FileReplies
  chunks : List Chunk
  downloaded : Bool
  mount : ℤ
  system : ℤ
  SetBootableFlag : Bool

namespace Surroundings

variable {Stream : Type} (zlib : Zlib Stream) (hash : List UInt8 → String) (inflateTurns : ℕ) (met : Surroundings)

/-- The contents of the pipe behind the update check. -/
def response : Option UpdateCheckResponse :=
  UpdateCheckAction.TransferComplete met.successful met.updatecheck_node

def handled : Bool × Option (InstallPlan String) :=
  OmahaResponseHandlerAction.PerformAction (met.response.getD {}) (Utils.BootDevice met.proc_cmdline)

/-- What the copier meets, bonded on both sides. -/
def copierSteps : CopierSteps := { met.copier with in_pipe_ := some (met.handled.2.getD .empty), hasOutputPipe := true }

def copied : Option FilesystemCopierAction := FilesystemCopierAction.run met.tree met.copierSteps

/-- The plan in the pipe behind the copier. -/
def downloadPlan : InstallPlan String := (met.copied.bind FilesystemCopierAction.out_pipe_).getD .empty

def downloadReplies : FileReplies := met.replies met.downloadPlan.install_path

def download : Option (Bool × DownloadAction Stream String) :=
  DownloadAction.download zlib hash inflateTurns met.downloadPlan met.downloadReplies met.chunks met.downloaded

/-- The flag that an action completes with, which is missing if it ends the program. -/
def completion : ActionType → Option Bool
  | .OmahaRequestPrepAction => some met.GetMachineId
  | .UpdateCheckAction => some met.response.isSome
  | .OmahaResponseHandlerAction => some met.handled.2.isSome
  | .FilesystemCopierAction => met.copied.map fun action => action.completions.contains true
  | .DownloadAction => (met.download zlib hash inflateTurns).map Prod.fst
  | .PostinstallRunnerAction => some (decide (0 ≤ met.mount ∧ met.system = 0))
  | .SetBootableFlagAction => some met.SetBootableFlag

/-- Whether an action completes before its `PerformAction` returns. -/
def synchronous : ActionType → Bool
  | .UpdateCheckAction => false
  | .FilesystemCopierAction =>
    ((FilesystemCopierAction.beforeThread met.copierSteps (.new met.copierSteps)).map Prod.fst) ≠ some true
  | .DownloadAction =>
    ((DownloadAction.PerformAction zlib met.downloadPlan met.downloadReplies).map Prod.fst) ≠ some true
  | _ => true

end Surroundings

namespace UpdateAttempter

def actions_ : List ActionType :=
  [.OmahaRequestPrepAction, .UpdateCheckAction, .OmahaResponseHandlerAction, .FilesystemCopierAction,
    .DownloadAction, .PostinstallRunnerAction, .SetBootableFlagAction]

/-- The pairs of actions that are bonded. -/
def bonds : List (ActionType × ActionType) :=
  [(.OmahaRequestPrepAction, .UpdateCheckAction), (.UpdateCheckAction, .OmahaResponseHandlerAction),
    (.OmahaResponseHandlerAction, .FilesystemCopierAction), (.FilesystemCopierAction, .DownloadAction),
    (.PostinstallRunnerAction, .SetBootableFlagAction)]

def HasInputObject (action : ActionType) : Bool := bonds.any fun bond => bond.2 = action

/-- Whether an action checks that it has an input object. -/
def checksInput : ActionType → Bool
  | .UpdateCheckAction | .OmahaResponseHandlerAction | .DownloadAction | .PostinstallRunnerAction => true
  | .OmahaRequestPrepAction | .FilesystemCopierAction | .SetBootableFlagAction => false

/-- An action of one of the calls of `Update`, by whether the update is forced to be full. -/
abbrev ActionObject := Bool × ActionType

abbrev Processor := World ActionObject Unit

section Update

variable {Stream : Type} (zlib : Zlib Stream) (hash : List UInt8 → String) (inflateTurns : ℕ)
variable (met : Bool → Surroundings)

def completion (action : ActionObject) : Option Bool := (met action.1).completion zlib hash inflateTurns action.2

/-- `PerformAction` of the actions, with calls nested to a depth. -/
def PerformAction : ℕ → Processor → ActionObject → Option Processor
  | 0, _, _ => none
  | depth + 1, processor_, action =>
    if checksInput action.2 && !HasInputObject action.2 then none
    else
      let processor_ := processor_.call (.PerformAction action)
      if (met action.1).synchronous zlib action.2 then
        match completion zlib hash inflateTurns met action with
        | none => none
        | some success => processor_.ActionComplete (PerformAction depth) action success
      else some processor_

/-- The main loop, in which the action that is running completes, until none is or the turns are over. -/
def g_main_loop (depth : ℕ) : ℕ → Processor → Option Processor
  | 0, processor_ => some processor_
  | turns + 1, processor_ =>
    match processor_.current_action_ with
    | none => some processor_
    | some action =>
      match completion zlib hash inflateTurns met action with
      | none => none
      | some success =>
        (processor_.ActionComplete (PerformAction zlib hash inflateTurns met depth) action success).bind
          (g_main_loop depth turns)

/-- A call of `Update`, with the main loop that runs after it. -/
def Update (depth turns : ℕ) (full_update_ : Bool) (processor_ : Processor) : Option Processor := do
  let processor_ ← (actions_.map fun action => (full_update_, action)).foldlM (World.EnqueueAction ()) processor_
  let processor_ ← processor_.StartProcessing (PerformAction zlib hash inflateTurns met depth)
  g_main_loop zlib hash inflateTurns met depth turns processor_

def GotNoUpdateResponse (full_update_ : Bool) (processor_ : Processor) : Bool :=
  processor_.calls.contains (.PerformAction (full_update_, .OmahaResponseHandlerAction)) && (met full_update_).handled.1

/-- A processor that the attempter is the delegate of. -/
def newProcessor : Processor where
  actions_ := []
  current_action_ := none
  delegate_ := true
  processor_ := fun _ => none
  calls := []

/-- The whole program, and whether its main loop was left. A call of `Update` from `ProcessingDone` is the last thing
that the processor does. -/
def main (depth turns : ℕ) : Option (Processor × Bool) := do
  let processor_ ← Update zlib hash inflateTurns met depth turns false newProcessor
  if processor_.IsRunning then some (processor_, false)
  else if GotNoUpdateResponse met false processor_ || processor_.calls.contains (.ProcessingDone true) then
    some (processor_, true)
  else
    let processor_ ← Update zlib hash inflateTurns met depth turns true processor_
    some (processor_, !processor_.IsRunning)

end Update

end UpdateAttempter

end ChromiumOS.UpdateEngine
