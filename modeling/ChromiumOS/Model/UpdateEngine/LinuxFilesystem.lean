import ChromiumOS.Model.UpdateEngine.FilesystemIterator

/-! # What the calls on the destination do

The system calls of Linux on a file system without mount points, by a process that may do everything. A call that
cannot work leaves the file system as it is. No path goes through a symbolic link, and none that is one is passed
to `chmod`.
-/

namespace ChromiumOS.UpdateEngine

/-- A file of the file system; `mode` are the permission bits. -/
structure Inode where
  type : FileType
  mode : ℕ
  st_uid : ℕ
  st_gid : ℕ
  st_rdev : ℕ
  content : List UInt8
deriving DecidableEq, Repr

/-- The inode number of each path, the inodes, and the next number that is free. -/
structure LinuxFilesystem where
  entry : Path → Option ℕ
  inode : ℕ → Option Inode
  next : ℕ

def S_ISUID : ℕ := 0o4000

def S_ISGID : ℕ := 0o2000

namespace LinuxFilesystem

variable (filesystem : LinuxFilesystem)

def stat (path : Path) : Option Inode := (filesystem.entry path).bind filesystem.inode

def isDirectory (path : Path) : Bool := (filesystem.stat path).any fun inode => inode.type = .S_IFDIR

/-- Whether a path can be created: there is nothing there yet, and a directory around it. -/
def isFree (path : Path) : Bool :=
  (filesystem.entry path).isNone && path ≠ [] && filesystem.isDirectory path.dropLast

def add (path : Path) (inode : Inode) : LinuxFilesystem :=
  if filesystem.isFree path then
    { entry := Function.update filesystem.entry path (some filesystem.next)
      inode := Function.update filesystem.inode filesystem.next (some inode)
      next := filesystem.next + 1 }
  else filesystem

def change (path : Path) (changed : Inode → Inode) : LinuxFilesystem :=
  match filesystem.entry path with
  | none => filesystem
  | some number =>
    { filesystem with
      inode := Function.update filesystem.inode number ((filesystem.inode number).map changed) }

def link (old_path path : Path) : LinuxFilesystem :=
  if filesystem.isFree path && !filesystem.isDirectory old_path then
    { filesystem with entry := Function.update filesystem.entry path (filesystem.entry old_path) }
  else filesystem

/-- `chown` takes the set-user-ID and set-group-ID bits from a regular file. -/
def owned (uid gid : ℕ) (inode : Inode) : Inode :=
  { inode with
    st_uid := uid
    st_gid := gid
    mode := if inode.type = .S_IFREG then inode.mode.ldiff (S_ISUID + S_ISGID) else inode.mode }

/-- One call, by a process with some `umask`. -/
def perform (umask : ℕ) (filesystem : LinuxFilesystem) : DestinationCall → LinuxFilesystem
  | .mkdir path mode => filesystem.add path ⟨.S_IFDIR, mode.ldiff umask, 0, 0, 0, []⟩
  | .create path mode => filesystem.add path ⟨.S_IFREG, mode.ldiff umask, 0, 0, 0, []⟩
  | .write path bytes => filesystem.change path fun inode => { inode with content := inode.content ++ bytes }
  | .link old_path path => filesystem.link old_path path
  | .symlink target path => filesystem.add path ⟨.S_IFLNK, 0o777, 0, 0, 0, target⟩
  | .mknod path type mode rdev => filesystem.add path ⟨type, mode.ldiff umask, 0, 0, rdev, []⟩
  | .chmod path mode => filesystem.change path fun inode => { inode with mode }
  | .lchown path uid gid => filesystem.change path (owned uid gid)

def performAll (umask : ℕ) (filesystem : LinuxFilesystem) (calls : List DestinationCall) : LinuxFilesystem :=
  calls.foldl (perform umask) filesystem

/-- A new file system: its root, and the directory for what is found in a check. -/
def formatted : LinuxFilesystem where
  entry path := if path = [] then some 2 else if path = ["lost+found"] then some 11 else none
  inode number :=
    if number = 2 then some ⟨.S_IFDIR, 0o755, 0, 0, 0, []⟩
    else if number = 11 then some ⟨.S_IFDIR, 0o700, 0, 0, 0, []⟩
    else none
  next := 12

end LinuxFilesystem

end ChromiumOS.UpdateEngine
