import ChromiumOS.Model.UpdateEngine.FileWriter

/-! # The download action

`download_action.cc` with `omaha_hash_calculator.cc`: the writer is chosen by the install plan, every
chunk of the fetcher is written and then hashed, and the end of the transfer compares the hash. The
hash of a byte string is a parameter; the calculator keeps the bytes it was updated with.
-/

namespace ChromiumOS.UpdateEngine

/-- An install plan. The hash is a string in the source, of which a download only asks whether it is
the one of its bytes. -/
structure InstallPlan (Digest : Type) where
  is_full_update : Bool
  download_url : String
  download_hash : Digest
  install_path : String
  deriving DecidableEq

/-- The plan of the constructor without arguments, which a new pipe holds. -/
def InstallPlan.empty : InstallPlan String :=
  { is_full_update := false, download_url := "", download_hash := "", install_path := "" }

/-- A chunk handed to the fetcher's delegate: its length is an `int`. -/
structure Chunk where
  bytes : List UInt8
  short : bytes.length < 2 ^ 31

/-- The calculator: what it was updated with, and the hash once it is final. -/
structure OmahaHashCalculator (Digest : Type) where
  data : List UInt8
  hash_ : Option Digest

namespace OmahaHashCalculator

variable {Digest : Type}

def Update (calculator : OmahaHashCalculator Digest) (bytes : List UInt8) :
    Option (OmahaHashCalculator Digest) :=
  if calculator.hash_.isSome then none
  else some { calculator with data := calculator.data ++ bytes }

def Finalize (hash : List UInt8 → Digest) (calculator : OmahaHashCalculator Digest) :
    Option (OmahaHashCalculator Digest) :=
  if calculator.hash_.isSome then none
  else some { calculator with hash_ := some (hash calculator.data) }

end OmahaHashCalculator

/-- The writer of an action. -/
inductive FileWriter (Stream : Type) where
  | direct (writer : DirectFileWriter)
  | gzip (writer : GzipDecompressingFileWriter Stream)

namespace FileWriter

variable {Stream : Type}

def Open (writer : FileWriter Stream) (fd : ℤ) (errno : ℕ+) : Option (ℤ × FileWriter Stream) :=
  match writer with
  | direct writer => (writer.Open fd errno).map fun (rc, writer) => (rc, direct writer)
  | gzip writer => (writer.next_.Open fd errno).map fun (rc, next_) => (rc, gzip { writer with next_ })

def Write (zlib : Zlib Stream) (turns : ℕ) (writer : FileWriter Stream) (bytes : List UInt8) :
    Option (ℤ × FileWriter Stream) :=
  match writer with
  | direct writer => (writer.Write bytes).map fun (rc, writer) => (rc, direct writer)
  | gzip writer => (writer.Write zlib turns bytes).map fun (rc, writer) => (rc, gzip writer)

def Close (writer : FileWriter Stream) (rc : ℤ) : Option (ℤ × FileWriter Stream) :=
  match writer with
  | direct writer => (writer.Close rc).map fun (rc, writer) => (rc, direct writer)
  | gzip writer => (writer.next_.Close rc).map fun (rc, next_) => (rc, gzip { writer with next_ })

/-- The direct writer at the bottom. -/
def bottom : FileWriter Stream → DirectFileWriter
  | direct writer => writer
  | gzip writer => writer.next_

/-- The codes zlib has returned. -/
def codes : FileWriter Stream → List ZlibCode
  | direct _ => []
  | gzip writer => writer.codes

end FileWriter

/-- The replies of the file system in a download. -/
structure FileReplies where
  fd : ℤ
  errno : ℕ+
  writes : List WriteReply
  close : ℤ

/-- An action and its file writer, which `writer_` points at until the file is closed. -/
structure DownloadAction (Stream Digest : Type) where
  hash_ : Digest
  file_writer : FileWriter Stream
  writer_ : Bool
  omaha_hash_calculator_ : OmahaHashCalculator Digest

namespace DownloadAction

variable {Stream Digest : Type} [DecidableEq Digest]
variable (zlib : Zlib Stream) (hash : List UInt8 → Digest) (turns : ℕ)

/-- The action with its writer opened, and whether that worked; if not, the action has failed. -/
def PerformAction (plan : InstallPlan Digest) (replies : FileReplies) :
    Option (Bool × DownloadAction Stream Digest) := do
  let direct_file_writer_ : DirectFileWriter :=
    { fd_ := -1, accepted := [], errors := [], replies := replies.writes }
  let file_writer : FileWriter Stream :=
    if plan.is_full_update then
      .gzip { next_ := direct_file_writer_, stream_ := zlib.init, avail_in := [], codes := [] }
    else .direct direct_file_writer_
  let (rc, file_writer) ← file_writer.Open replies.fd replies.errno
  some (0 ≤ rc,
    { hash_ := plan.download_hash
      file_writer
      writer_ := true
      omaha_hash_calculator_ := { data := [], hash_ := none } })

/-- `CHECK_EQ(writer_->Close(), 0)`. -/
def close (action : DownloadAction Stream Digest) (rc : ℤ) : Option (DownloadAction Stream Digest) := do
  let (rc, file_writer) ← action.file_writer.Close rc
  if rc ≠ 0 then none else some { action with file_writer, writer_ := false }

def TerminateProcessing (action : DownloadAction Stream Digest) (rc : ℤ) :
    Option (DownloadAction Stream Digest) :=
  if action.writer_ then action.close rc else none

/-- A chunk whose writing fails is not hashed. -/
def ReceivedBytes (action : DownloadAction Stream Digest) (chunk : Chunk) :
    Option (DownloadAction Stream Digest) :=
  if action.writer_ then do
    let (rc, file_writer) ← action.file_writer.Write zlib turns chunk.bytes
    let action := { action with file_writer }
    if rc ≥ 0 then
      let omaha_hash_calculator_ ← action.omaha_hash_calculator_.Update chunk.bytes
      some { action with omaha_hash_calculator_ }
    else some action
  else none

/-- Close the writer unless that is done. -/
def closeWriter (action : DownloadAction Stream Digest) (rc : ℤ) :
    Option (DownloadAction Stream Digest) :=
  if action.writer_ then action.close rc else some action

/-- The end of a transfer, with the flag the action completes with. -/
def TransferComplete (action : DownloadAction Stream Digest) (rc : ℤ) (successful : Bool) :
    Option (Bool × DownloadAction Stream Digest) := do
  let action ← action.closeWriter rc
  if successful then
    let omaha_hash_calculator_ ← action.omaha_hash_calculator_.Finalize hash
    let action := { action with omaha_hash_calculator_ }
    some (omaha_hash_calculator_.hash_ = some action.hash_, action)
  else some (false, action)

/-- A whole download: the flag with which the action completes, and the action at that time. -/
def download (plan : InstallPlan Digest) (replies : FileReplies) (chunks : List Chunk)
    (successful : Bool) : Option (Bool × DownloadAction Stream Digest) := do
  let (opened, action) ← PerformAction zlib plan replies
  if opened then
    let action ← chunks.foldlM (ReceivedBytes zlib turns) action
    TransferComplete hash action replies.close successful
  else some (false, action)

end DownloadAction

end ChromiumOS.UpdateEngine
