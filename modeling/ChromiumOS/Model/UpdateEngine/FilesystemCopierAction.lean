import ChromiumOS.Model.UpdateEngine.DownloadAction
import ChromiumOS.Model.UpdateEngine.FilesystemIterator

/-! # The file system copier action

`filesystem_copier_action.cc`. The copy runs on the machine of the iterator; a path of the
destination is named by the path below its mount point. The helper thread and the two main-loop
functions are one run after the other, the exit flag being part of the environment. Creating the
mount point and the thread, and joining it, work. A pipe is what it holds: nothing else than the
action changes its output pipe, which the download action bonded after it has as its input pipe.
-/

namespace ChromiumOS.UpdateEngine

def kCopyFileBufferSize : ℕ := 4 * 1024 * 1024

def kCopyExclusionPrefix : String := "/lost+found"

/-- The bytes that a `read` or `write` replying with a count transfers: at least one if there is
one, and no more than there are. -/
def transferred (count available : ℕ) : ℕ := if count = 0 then available else min count available

section Copy

variable (environment : Environment)

/-- A call that changes the destination if it succeeds. -/
def attempt (machine : Machine) (call : Syscall) (path : Path) (effect : DestinationCall) :
    Bool × Machine :=
  match machine.issue environment call path with
  | (.ok _, machine) => (true, { machine with calls := machine.calls ++ [effect] })
  | (.failed _, machine) => (false, machine)

/-- The inner loop of `CopyFileSynchronously`, with a bound on its turns. -/
def writeAll (new_path : Path) : ℕ → List UInt8 → Machine → Option (Bool × Machine)
  | _, [], machine => some (true, machine)
  | 0, _, _ => none
  | turns + 1, bytes, machine =>
    match machine.issue environment .write new_path with
    | (.failed _, machine) => some (false, machine)
    | (.ok count, machine) =>
      let size := transferred count bytes.length
      let machine := { machine with calls := machine.calls ++ [.write new_path (bytes.take size)] }
      writeAll new_path turns (bytes.drop size) machine

/-- The outer loop, on what is left of the file. -/
def copyLoop (path : Path) (st_size : ℕ) :
    ℕ → ℕ → List UInt8 → Machine → Option (Bool × Machine)
  | 0, _, _, _ => none
  | turns + 1, bytes_written, left, machine =>
    let (exit, machine) := machine.poll environment
    if exit then some (false, machine)
    else
      match machine.issue environment .read path with
      | (.failed _, machine) => some (false, machine)
      | (.ok count, machine) =>
        let read_size := transferred count (min (min kCopyFileBufferSize st_size) left.length)
        if read_size = 0 then if bytes_written = st_size then some (true, machine) else none
        else do
          let (written, machine) ← writeAll environment path read_size (left.take read_size) machine
          if !written then some (false, machine)
          else
            let bytes_written := bytes_written + read_size
            if bytes_written > st_size then none
            else if bytes_written = st_size then some (true, machine)
            else copyLoop path st_size turns bytes_written (left.drop read_size) machine

def CopyFileSynchronously (path : Path) (file : File) (machine : Machine) :
    Option (Bool × Machine) :=
  let (created, machine) :=
    attempt environment machine .open_ path (.create path file.stat.mode)
  if !created then some (false, machine)
  else
    match machine.issue environment .open_ path with
    | (.failed _, machine) => some (false, machine)
    | (.ok _, machine) =>
      copyLoop environment path file.stat.st_size (file.content.length + 1) 0 file.content machine

def PATH_MAX : ℕ := 4096

def CopySymlinkSynchronously (path : Path) (file : File) (machine : Machine) : Bool × Machine :=
  match machine.issue environment .readlink path with
  | (.failed _, machine) => (false, machine)
  | (.ok _, machine) =>
    if min file.content.length (PATH_MAX + 1) < PATH_MAX + 1 then
      attempt environment machine .symlink path (.symlink file.content path)
    else (false, machine)

end Copy

/-- The state of the copy. -/
structure Copying where
  iter : FilesystemIterator
  machine : Machine
  hard_links : List (ℕ × Path)

section CopySynchronously

variable (tree : SourceTree) (environment : Environment)

/-- Create the destination of a file that is no directory and no further link. -/
def createFile (path : Path) (file : File) (machine : Machine) : Option (Bool × Machine) :=
  match file.stat.type with
  | .S_IFREG => CopyFileSynchronously environment path file machine
  | .S_IFLNK => some (CopySymlinkSynchronously environment path file machine)
  | .S_IFIFO | .S_IFCHR | .S_IFBLK | .S_IFSOCK =>
    some (attempt environment machine .mknod path
      (.mknod path file.stat.type file.stat.mode file.stat.st_rdev))
  | .S_IFDIR => none

/-- The current file, with what `GetStat` says about it. -/
def currentFile (iter : FilesystemIterator) : File :=
  { tree.file iter.names_ with stat := iter.stbuf_ }

/-- Create the destination of the current file, if it needs one. -/
def createEntry (copying : Copying) : Option (Bool × Copying) :=
  let path := copying.iter.names_
  let file := currentFile tree copying.iter
  if partialPath path = "" then some (true, copying)
  else if file.stat.type = .S_IFDIR then
    let (success, machine) :=
      attempt environment copying.machine .mkdir path (.mkdir path file.stat.mode)
    some (success, { copying with machine })
  else
    match if file.stat.st_nlink > 1 then copying.hard_links.lookup file.stat.st_ino else none with
    | some old_path =>
      let (success, machine) :=
        attempt environment copying.machine .link path (.link old_path path)
      some (success, { copying with machine })
    | none => do
      let hard_links :=
        if file.stat.st_nlink > 1 then (file.stat.st_ino, path) :: copying.hard_links
        else copying.hard_links
      let (success, machine) ← createFile environment path file copying.machine
      some (success, { copying with machine, hard_links })

/-- Set the permissions, except of a symbolic link, and the owner. -/
def setAttributes (path : Path) (file : File) (machine : Machine) : Bool × Machine :=
  let (success, machine) :=
    if file.stat.type = .S_IFLNK then (true, machine)
    else attempt environment machine .chmod path (.chmod path file.stat.mode)
  if success then
    attempt environment machine .lchown path (.lchown path file.stat.st_uid file.stat.st_gid)
  else (false, machine)

/-- The body of the loop over the files, with the increment that follows it. -/
def copyEntry (depth : ℕ) (copying : Copying) : Option (Bool × Copying) :=
  if partialPath copying.iter.names_ = kCopyExclusionPrefix then none
  else do
    let path := copying.iter.names_
    let file := currentFile tree copying.iter
    let (success, copying) ← createEntry tree environment copying
    if !success then some (false, copying)
    else
      let (success, machine) := setAttributes environment path file copying.machine
      if !success then some (false, { copying with machine })
      else
        let (iter, machine) ←
          copying.iter.Increment tree environment [kCopyExclusionPrefix] depth machine
        some (true, { copying with iter, machine })

/-- The loop over the files. The exit flag ends it like the end of the iteration. -/
def copyFiles (depth : ℕ) : ℕ → Copying → Option (Bool × Copying)
  | 0, _ => none
  | turns + 1, copying =>
    let (exit, machine) := copying.machine.poll environment
    let copying := { copying with machine }
    if exit || copying.iter.is_end_ then some (!copying.iter.is_err_, copying)
    else do
      let (success, copying) ← copyEntry tree environment depth copying
      if success then copyFiles depth turns copying else some (false, copying)

/-- The state in which the loop is entered. -/
def startCopying : Copying :=
  let (iter, machine) := FilesystemIterator.new tree environment { clock := 0, calls := [] }
  { iter, machine, hard_links := [] }

/-- Copy the tree; returns whether that worked. The recursion and the loop are given as many turns as
there are paths. -/
def CopySynchronously : Option (Bool × Copying) :=
  copyFiles tree environment (tree.weight []) (tree.weight [] + 1) (startCopying tree environment)

end CopySynchronously

/-- What happens around the copy: the plan in the input pipe, whether the action is bonded to a next
one, the steps before the thread is started, and those of the thread. -/
structure CopierSteps where
  in_pipe_ : Option (InstallPlan String)
  hasOutputPipe : Bool
  probeMount : Bool
  markerExists : Bool
  probeUnmount : Bool
  exec : Bool
  return_code : ℤ
  mount : Bool
  createMarker : Bool
  unmount : Bool
  copy : Environment

namespace CopierSteps

def hasInputObject (steps : CopierSteps) : Bool := steps.in_pipe_.isSome

/-- The plan that the action works on. -/
def install_plan_ (steps : CopierSteps) : InstallPlan String := steps.in_pipe_.getD .empty

def is_full_update (steps : CopierSteps) : Bool := steps.install_plan_.is_full_update

end CopierSteps

/-- The action: its output pipe, whether the destination is mounted, whether this run created the
marker, the state of the copy if there was one, and the completions reported. -/
structure FilesystemCopierAction where
  out_pipe_ : Option (InstallPlan String)
  is_mounted_ : Bool
  skipped_copy_ : Bool
  marker : Bool
  copied : Option (Bool × Copying)
  completions : List Bool

namespace FilesystemCopierAction

/-- The action after it was bonded: a new pipe holds the plan of the constructor. -/
def new (steps : CopierSteps) : FilesystemCopierAction where
  out_pipe_ := if steps.hasOutputPipe then some .empty else none
  is_mounted_ := false
  skipped_copy_ := false
  marker := false
  copied := none
  completions := []

/-- `if (HasOutputPipe()) SetOutputObject(plan)`. -/
def SetOutputObject (action : FilesystemCopierAction) (plan : InstallPlan String) :
    FilesystemCopierAction :=
  { action with out_pipe_ := action.out_pipe_.map fun _ => plan }

def ActionComplete (action : FilesystemCopierAction) (success : Bool) : FilesystemCopierAction :=
  { action with completions := action.completions ++ [success] }

def Mount (action : FilesystemCopierAction) (works : Bool) : Option (Bool × FilesystemCopierAction) :=
  if action.is_mounted_ then none else some (works, { action with is_mounted_ := works })

def Unmount (action : FilesystemCopierAction) (works : Bool) :
    Option (Bool × FilesystemCopierAction) :=
  if action.is_mounted_ then some (works, { action with is_mounted_ := !works }) else none

variable (tree : SourceTree) (steps : CopierSteps)

/-- The thread between formatting and unmounting. -/
def copyMounted (action : FilesystemCopierAction) : Option (Bool × FilesystemCopierAction) := do
  let (mounted, action) ← action.Mount steps.mount
  if mounted then
    let copied ← CopySynchronously tree steps.copy
    some (copied.1, { action with copied := some copied, marker := copied.1 && steps.createMarker })
  else some (false, action)

/-- The thread up to unmounting. -/
def formatAndCopy (action : FilesystemCopierAction) : Option (Bool × FilesystemCopierAction) :=
  if steps.exec && steps.return_code == 0 then action.copyMounted tree steps
  else some (false, action)

/-- The thread. It unmounts at its end whether or not it came to mounting. -/
def HelperThreadMain (action : FilesystemCopierAction) : Option (Bool × FilesystemCopierAction) := do
  let (success, action) ← action.formatAndCopy tree steps
  let (unmounted, action) ← action.Unmount steps.unmount
  some (success && unmounted, action.SetOutputObject steps.install_plan_)

def CollectThread (action : FilesystemCopierAction) (success : Bool) :
    Option FilesystemCopierAction :=
  if action.is_mounted_ then none else some (action.ActionComplete success)

/-- `PerformAction` up to the thread; whether that is to be started. -/
def beforeThread (action : FilesystemCopierAction) : Option (Bool × FilesystemCopierAction) :=
  if !steps.hasInputObject then some (false, action.ActionComplete false)
  else if steps.is_full_update then some (false, action.ActionComplete true)
  else do
    let (mounted, action) ← action.Mount steps.probeMount
    if mounted then
      let action :=
        if steps.markerExists then { action with skipped_copy_ := true }.SetOutputObject steps.install_plan_
        else action
      let (unmounted, action) ← action.Unmount steps.probeUnmount
      if !unmounted then some (false, action.ActionComplete false)
      else if steps.markerExists then some (false, action.ActionComplete true)
      else some (true, action)
    else some (true, action)

/-- The whole action. -/
def run : Option FilesystemCopierAction := do
  let (spawned, action) ← beforeThread steps (new steps)
  if spawned then
    let (success, action) ← action.HelperThreadMain tree steps
    action.CollectThread success
  else some action

end FilesystemCopierAction

end ChromiumOS.UpdateEngine
