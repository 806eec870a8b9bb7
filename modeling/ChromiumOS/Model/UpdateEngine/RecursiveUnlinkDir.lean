import ChromiumOS.Model.UpdateEngine.FilesystemIterator
import ChromiumOS.ToMathlib.PathWalk

/-! # Deleting a directory recursively

`RecursiveUnlinkDir` of `utils.cc` on a tree of directories, files and links. Every call looks its path up in
the tree as it is by then. A call can fail for reasons of its own, but not with `ENOENT`, which is left to the
lookup. The recursion is bounded, and `none` when it is deeper.
-/

namespace ChromiumOS.UpdateEngine

open PathWalk

/-- What the calls depend on besides the tree. The calls are counted from zero; `listing` is what `readdir_r`
returns one after another for a directory with some entries that the call with a number opened. -/
structure FileSystemCalls where
  cwd : Location
  maxLinks : ℕ
  listing : ℕ → List Name → List Name
  complete : ∀ clock names, ∀ name ∈ names, name ∈ listing clock names
  sound : ∀ clock names, ∀ name ∈ listing clock names, name = ['.'] ∨ name = ['.', '.'] ∨ name ∈ names
  fault : ℕ → Option Errno
  known : ∀ clock, fault clock ≠ some .ENOENT

inductive FileCall where
  | lstat
  | opendir
  | readdir_r
  | unlink
  | rmdir
deriving DecidableEq

/-- A call that was made, with its error if it failed. -/
structure MadeCall where
  call : FileCall
  path : List Char
  errno : Option Errno
deriving DecidableEq

structure Disk where
  tree : Tree
  log : List MadeCall

/-- The disk after a call that changed the tree or not. -/
def Disk.made (disk : Disk) (call : FileCall) (path : List Char) (errno : Option Errno) (tree : Tree) : Disk :=
  ⟨tree, disk.log ++ [⟨call, path, errno⟩]⟩

def errnoOf : WalkError → Errno
  | .missing => .ENOENT
  | .notDirectory => .ENOTDIR
  | .tooManyLinks => .other 40

def lastComponent (path : List Char) : Name := (path.splitOn '/').getLast?.getD []

namespace FileSystemCalls

variable (system : FileSystemCalls)

/-- Where the walk along a path starts. -/
def start (path : List Char) : Location := if path.head? = some '/' then [] else system.cwd

/-- The location that a path leads to. -/
def locate (tree : Tree) (follow : Bool) (path : List Char) : Except Errno Location :=
  if path = [] then .error .ENOENT
  else (resolve tree follow system.maxLinks (system.start path) (path.splitOn '/')).mapError errnoOf

/-- Whether a location is that of a directory; a working directory that was removed still is one. -/
def isDirectory (tree : Tree) (location : Location) : Bool :=
  tree.lookup location = none ∨ tree.lookup location = some .directory

/-- The reply of the next call, if it does not fail for a reason of its own. -/
def answer {Answer : Type} (disk : Disk) (reply : Except Errno Answer) : Except Errno Answer :=
  match system.fault disk.log.length with
  | some errno => .error errno
  | none => reply

def errnoOfReply {Answer : Type} : Except Errno Answer → Option Errno
  | .ok _ => none
  | .error errno => some errno

/-- Returns whether the path is that of a directory. -/
def lstat (disk : Disk) (path : List Char) : Except Errno Bool × Disk :=
  let reply := system.answer disk ((system.locate disk.tree false path).map (isDirectory disk.tree))
  (reply, disk.made .lstat path (errnoOfReply reply) disk.tree)

/-- Returns what will be read from the directory. -/
def opendir (disk : Disk) (path : List Char) : Except Errno (List Name) × Disk :=
  let reply := system.answer disk ((system.locate disk.tree true path).bind fun location =>
    if isDirectory disk.tree location then .ok (system.listing disk.log.length (disk.tree.names location))
    else .error .ENOTDIR)
  (reply, disk.made .opendir path (errnoOfReply reply) disk.tree)

/-- What a call that removes an entry replies, and the tree afterwards. -/
def removal (disk : Disk) (reply : Except Errno Location) : Except Errno Location × Tree :=
  match system.answer disk reply with
  | .ok location => (.ok location, disk.tree.remove location)
  | .error errno => (.error errno, disk.tree)

def unlink (disk : Disk) (path : List Char) : Except Errno Location × Disk :=
  let (reply, tree) := system.removal disk ((system.locate disk.tree false path).bind fun location =>
    if lastComponent path = ['.'] ∨ lastComponent path = ['.', '.'] then .error (.other 21)
    else if isDirectory disk.tree location then .error (.other 21)
    else .ok location)
  (reply, disk.made .unlink path (errnoOfReply reply) tree)

def rmdir (disk : Disk) (path : List Char) : Except Errno Location × Disk :=
  let (reply, tree) := system.removal disk ((system.locate disk.tree false path).bind fun location =>
    if lastComponent path = ['.'] then .error (.other 22)
    else if lastComponent path = ['.', '.'] then .error (.other 39)
    else if location = [] then .error (.other 16)
    else if isDirectory disk.tree location then
      if disk.tree.names location = [] then .ok location else .error (.other 39)
    else .error .ENOTDIR)
  (reply, disk.made .rmdir path (errnoOfReply reply) tree)

/-- The test after a call: it succeeded, or what it was to remove is missing. -/
def succeededOrMissing {Answer : Type} : Except Errno Answer → Bool
  | .ok _ => true
  | .error errno => errno = .ENOENT

/-- The loop over the entries of a directory, with what `readdir_r` has still to return. -/
def unlinkEntries (recurse : List Char → Disk → Option (Bool × Disk)) (path : List Char) :
    List Name → Disk → Option (Bool × Disk)
  | [], disk =>
    let reply := system.answer disk (.ok ())
    some ((errnoOfReply reply).isNone, disk.made .readdir_r path (errnoOfReply reply) disk.tree)
  | name :: names, disk =>
    let reply := system.answer disk (.ok ())
    let disk := disk.made .readdir_r path (errnoOfReply reply) disk.tree
    match reply with
    | .error _ => some (false, disk)
    | .ok () =>
      if name = ['.'] ∨ name = ['.', '.'] then unlinkEntries recurse path names disk
      else (recurse (path ++ '/' :: name) disk).bind fun (unlinked, disk) =>
        if unlinked then unlinkEntries recurse path names disk else some (false, disk)

/-- The children of a directory, and then the directory. -/
def unlinkDirectory (recurse : List Char → Disk → Option (Bool × Disk)) (path : List Char) (disk : Disk) :
    Option (Bool × Disk) :=
  let (dir, disk) := system.opendir disk path
  match dir with
  | .error _ => some (false, disk)
  | .ok names =>
    (system.unlinkEntries recurse path names disk).bind fun (unlinked, disk) =>
      if unlinked then
        let (reply, disk) := system.rmdir disk path
        some (succeededOrMissing reply, disk)
      else some (false, disk)

def RecursiveUnlinkDir : ℕ → List Char → Disk → Option (Bool × Disk)
  | 0, _, _ => none
  | depth + 1, path, disk =>
    let (status, disk) := system.lstat disk path
    match status with
    | .error errno => some (errno = .ENOENT, disk)
    | .ok false =>
      let (reply, disk) := system.unlink disk path
      some (succeededOrMissing reply, disk)
    | .ok true => system.unlinkDirectory (RecursiveUnlinkDir depth) path disk

end FileSystemCalls

end ChromiumOS.UpdateEngine
