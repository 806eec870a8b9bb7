import Mathlib

/-! # The file system iterator

`filesystem_iterator.cc` over a source tree that does not change. Every system call takes its reply
from an environment, by the number of calls and polls made before it, the call and its path, so that
any pattern of failures is possible. A failed `CHECK` is `none`, as is a run that recurses deeper
than it may.
-/

namespace ChromiumOS.UpdateEngine

/-- The format bits of `st_mode`. -/
inductive FileType where
  | S_IFDIR
  | S_IFREG
  | S_IFLNK
  | S_IFIFO
  | S_IFCHR
  | S_IFBLK
  | S_IFSOCK
deriving DecidableEq, Repr

/-- The fields of `struct stat` in use; `mode` are the permission bits. -/
structure Stat where
  type : FileType
  mode : ℕ
  st_dev : ℕ
  st_ino : ℕ
  st_nlink : ℕ
  st_uid : ℕ
  st_gid : ℕ
  st_rdev : ℕ
  st_size : ℕ
deriving DecidableEq, Repr

/-- A file: what `lstat` says, the bytes or the link target, and the names `readdir_r` returns. -/
structure File where
  stat : Stat
  content : List UInt8
  entries : List String
deriving DecidableEq, Repr

/-- A path below the root, one name after the other. -/
abbrev Path := List String

/-- A finite tree of files. The size of a regular file is the number of its bytes, and what has one
inode of one device is one file. -/
structure SourceTree where
  file : Path → File
  depth : ℕ
  bounded : ∀ path, depth ≤ path.length → (file path).entries = []
  sized : ∀ path, (file path).stat.type = .S_IFREG →
    (file path).stat.st_size = (file path).content.length
  linked : ∀ path other, (file path).stat.type ≠ .S_IFDIR →
    (file path).stat.st_dev = (file other).stat.st_dev →
    (file path).stat.st_ino = (file other).stat.st_ino → file path = file other

namespace SourceTree

variable (tree : SourceTree)

/-- How many paths there are from one downwards, as far as so many levels. -/
def weightWithin : ℕ → Path → ℕ
  | 0, _ => 1
  | levels + 1, path =>
    1 + ((tree.file path).entries.map fun name => weightWithin levels (path ++ [name])).sum

/-- How many paths there are from one downwards. -/
def weight (path : Path) : ℕ := tree.weightWithin (tree.depth - path.length) path

end SourceTree

inductive Errno where
  | ENOENT
  | ENOTDIR
  | other (number : ℕ)
deriving DecidableEq, Repr

/-- The reply to a system call; the count is that of `read` and `write`. -/
inductive Reply where
  | ok (count : ℕ)
  | failed (errno : Errno)
deriving DecidableEq, Repr

inductive Syscall where
  | lstat
  | opendir
  | readdir_r
  | closedir
  | mkdir
  | open_
  | read
  | write
  | link
  | readlink
  | symlink
  | mknod
  | chmod
  | lchown
deriving DecidableEq, Repr

/-- The replies to come, and the moment from which on the exit flag is set. -/
structure Environment where
  reply : ℕ → Syscall → Path → Reply
  exitAt : Option ℕ

/-- The calls that have changed the destination. -/
inductive DestinationCall where
  | mkdir (path : Path) (mode : ℕ)
  | create (path : Path) (mode : ℕ)
  | write (path : Path) (bytes : List UInt8)
  | link (old_path path : Path)
  | symlink (target : List UInt8) (path : Path)
  | mknod (path : Path) (type : FileType) (mode rdev : ℕ)
  | chmod (path : Path) (mode : ℕ)
  | lchown (path : Path) (uid gid : ℕ)
deriving DecidableEq, Repr

/-- A system call that was made. -/
structure IssuedCall where
  call : Syscall
  path : Path
  reply : Reply
deriving DecidableEq, Repr

/-- How many calls and polls were made, what they did to the destination, and the calls with their
replies. -/
structure Machine where
  clock : ℕ
  calls : List DestinationCall
  issued : List IssuedCall := []
deriving DecidableEq, Repr

namespace Machine

def tick (machine : Machine) : Machine := { machine with clock := machine.clock + 1 }

def log (machine : Machine) (issued : IssuedCall) : Machine :=
  { machine.tick with issued := machine.issued ++ [issued] }

@[simp] theorem log_calls (machine : Machine) (issued : IssuedCall) :
    (machine.log issued).calls = machine.calls := rfl

@[simp] theorem log_issued (machine : Machine) (issued : IssuedCall) :
    (machine.log issued).issued = machine.issued ++ [issued] := rfl

/-- Make a system call, which replies as the environment says. -/
def issue (environment : Environment) (machine : Machine) (call : Syscall) (path : Path) :
    Reply × Machine :=
  let reply := environment.reply machine.clock call path
  (reply, machine.log ⟨call, path, reply⟩)

/-- `g_atomic_int_get(&thread_should_exit_)`. -/
def poll (environment : Environment) (machine : Machine) : Bool × Machine :=
  (environment.exitAt.any (fun moment => moment ≤ machine.clock), machine.tick)

end Machine

/-- The open directories are listed innermost first, each by the names still to be read. -/
structure FilesystemIterator where
  dirs_ : List (List String)
  names_ : Path
  stbuf_ : Stat
  is_end_ : Bool
  is_err_ : Bool
deriving DecidableEq, Repr

/-- The path as text. -/
def partialPath (names_ : Path) : String := names_.foldl (fun ret name => ret ++ "/" ++ name) ""

def StringHasPrefix (str start : String) : Bool := start.toList.isPrefixOf str.toList

/-- Whether a path starts with one of the excluded texts. -/
def isExcluded (excl_prefixes_ : List String) (names_ : Path) : Bool :=
  excl_prefixes_.any fun start => StringHasPrefix (partialPath names_) start

/-- How the search through one directory ends. -/
inductive ScanStatus where
  | found
  | exhausted
  | failed
deriving DecidableEq, Repr

namespace FilesystemIterator

variable (tree : SourceTree) (environment : Environment)

/-- What `RETURN_ERROR_IF_FALSE` leaves. -/
def fail (iter : FilesystemIterator) : FilesystemIterator :=
  { iter with is_end_ := true, is_err_ := true }

/-- The constructor. -/
def new (machine : Machine) : FilesystemIterator × Machine :=
  let iter : FilesystemIterator :=
    { dirs_ := [], names_ := [], stbuf_ := (tree.file []).stat, is_end_ := false, is_err_ := false }
  match machine.issue environment .lstat [] with
  | (.ok _, machine) => (iter, machine)
  | (.failed _, machine) => (iter.fail, machine)

/-- The turns of `IncrementInternal` in one directory, whose names still to be read are given. -/
def scan : List String → FilesystemIterator → Machine →
    ScanStatus × FilesystemIterator × Machine
  | [], iter, machine =>
    match machine.issue environment .readdir_r iter.names_ with
    | (.failed _, machine) => (.failed, iter.fail, machine)
    | (.ok _, machine) => (.exhausted, iter, machine)
  | name :: more, iter, machine =>
    match machine.issue environment .readdir_r iter.names_ with
    | (.failed _, machine) => (.failed, iter.fail, machine)
    | (.ok _, machine) =>
      let iter := { iter with dirs_ := more :: iter.dirs_.tail, names_ := iter.names_ ++ [name] }
      match machine.issue environment .lstat iter.names_ with
      | (.failed _, machine) => (.failed, iter.fail, machine)
      | (.ok _, machine) =>
        let iter := { iter with stbuf_ := (tree.file iter.names_).stat }
        if name ≠ "." ∧ name ≠ ".." then (.found, iter, machine)
        else scan more { iter with names_ := iter.names_.dropLast } machine

/-- Search the open directories, innermost first, closing those that have no more entries. -/
def climb : List (List String) → FilesystemIterator → Machine → Option (FilesystemIterator × Machine)
  | [], _, _ => none
  | entries :: outer, iter, machine =>
    match scan tree environment entries iter machine with
    | (.found, iter, machine) => some (iter, machine)
    | (.failed, iter, machine) => some (iter, machine)
    | (.exhausted, iter, machine) =>
      match machine.issue environment .closedir iter.names_ with
      | (.failed _, machine) => some (iter.fail, machine)
      | (.ok _, machine) =>
        let iter := { iter with dirs_ := outer }
        if outer = [] then
          if iter.names_ ≠ [] then none else some ({ iter with is_end_ := true }, machine)
        else if iter.names_ = [] then none
        else climb outer { iter with names_ := iter.names_.dropLast } machine

def IncrementInternal (iter : FilesystemIterator) (machine : Machine) :
    Option (FilesystemIterator × Machine) :=
  if iter.dirs_.length ≠ iter.names_.length + 1 then none
  else climb tree environment iter.dirs_ iter machine

/-- `opendir` on the current path; what is not a directory is refused whatever the environment. -/
def opendir (iter : FilesystemIterator) (machine : Machine) : Reply × Machine :=
  if (tree.file iter.names_).stat.type = .S_IFDIR then machine.issue environment .opendir iter.names_
  else (.failed .ENOTDIR, machine.log ⟨.opendir, iter.names_, .failed .ENOTDIR⟩)

/-- Whether the current file is a directory on the device of the root. -/
def descends (iter : FilesystemIterator) : Bool :=
  iter.stbuf_.type == .S_IFDIR && iter.stbuf_.st_dev == (tree.file []).stat.st_dev

/-- `Increment`, with the depth of its recursion bounded. It goes on below excluded paths, and at
their next siblings, without looking at `is_err_`. -/
def Increment (excl_prefixes_ : List String) :
    ℕ → FilesystemIterator → Machine → Option (FilesystemIterator × Machine)
  | 0, _, _ => none
  | depth + 1, iter, machine =>
    let continue_ (iter : FilesystemIterator) (machine : Machine) :
        Option (FilesystemIterator × Machine) := do
      let (iter, machine) ← iter.IncrementInternal tree environment machine
      if isExcluded excl_prefixes_ iter.names_ then Increment excl_prefixes_ depth iter machine
      else some (iter, machine)
    let skip (machine : Machine) : Option (FilesystemIterator × Machine) :=
      if iter.names_ = [] then some ({ iter with is_end_ := true }, machine)
      else continue_ { iter with names_ := iter.names_.dropLast } machine
    if iter.descends tree then
      match iter.opendir tree environment machine with
      | (.ok _, machine) =>
        continue_ { iter with dirs_ := (tree.file iter.names_).entries :: iter.dirs_ } machine
      | (.failed .ENOTDIR, machine) => skip machine
      | (.failed .ENOENT, machine) => skip machine
      | (.failed (.other _), machine) => some (iter.fail, machine)
    else skip machine

end FilesystemIterator

end ChromiumOS.UpdateEngine
