import ChromiumOS.Model.UpdateEngine.LinuxFilesystem
import ChromiumOS.Proofs.UpdateEngine.FilesystemOrder

/-! # What a copy of a file system looks like

The calls of a copy that works are played on a new file system. Every file that was visited has a copy there, with
one inode for all links to it. The owner of a regular file is set after its permissions, which takes its
set-user-ID and set-group-ID bits away.
-/

namespace ChromiumOS.UpdateEngine

/-- A tree on one device. Links are counted, and no permissions are kept of symbolic links. -/
structure DeviceTree extends DirectoryTree where
  root : (file []).stat.type = .S_IFDIR
  device : ∀ path other, (file path).stat.st_dev = (file other).stat.st_dev
  counted : ∀ path other, toSourceTree.Entry path → toSourceTree.Entry other → path ≠ other →
    (file path).stat.type ≠ .S_IFDIR → (file path).stat.st_ino = (file other).stat.st_ino →
    1 < (file path).stat.st_nlink
  symlinks : ∀ path, (file path).stat.type = .S_IFLNK → (file path).stat.mode = 0o777

/-- Two paths that are links to one file. -/
def SourceTree.HardLinked (tree : SourceTree) (path other : Path) : Prop :=
  (tree.file path).stat.type ≠ .S_IFDIR ∧ (tree.file other).stat.type ≠ .S_IFDIR ∧
    (tree.file path).stat.st_ino = (tree.file other).stat.st_ino

/-- An inode that is the copy of a file. -/
structure Inode.Matches (inode : Inode) (file : File) : Prop where
  type : inode.type = file.stat.type
  content : file.stat.type ∈ [FileType.S_IFREG, .S_IFLNK] → inode.content = file.content
  device : file.stat.type ∈ [FileType.S_IFCHR, .S_IFBLK] → inode.st_rdev = file.stat.st_rdev
  mode : inode.mode = file.stat.mode
  uid : inode.st_uid = file.stat.st_uid
  gid : inode.st_gid = file.stat.st_gid

/-- Every entry outside the excluded paths has its copy, and two are links to one file where they were before. -/
structure FaithfulCopy (tree : SourceTree) (filesystem : LinuxFilesystem) : Prop where
  copied : ∀ path, tree.Entry path → ¬ Skipped path →
    ∃ inode, filesystem.stat path = some inode ∧ inode.Matches (tree.file path)
  linked : ∀ path other, tree.Entry path → ¬ Skipped path → tree.Entry other → ¬ Skipped other →
    (tree.file path).stat.type ≠ .S_IFDIR → (tree.file other).stat.type ≠ .S_IFDIR →
    (filesystem.entry path = filesystem.entry other ↔
      (tree.file path).stat.st_ino = (tree.file other).stat.st_ino)

namespace LinuxFilesystem

/-- The inode that a file is given. -/
def created (umask : ℕ) (file : File) : Inode where
  type := file.stat.type
  mode := if file.stat.type = .S_IFLNK then 0o777 else file.stat.mode.ldiff umask
  st_uid := 0
  st_gid := 0
  st_rdev := if file.stat.type ∈ [.S_IFDIR, .S_IFREG, .S_IFLNK] then 0 else file.stat.st_rdev
  content := if file.stat.type ∈ [.S_IFREG, .S_IFLNK] then file.content else []

/-- What setting the permissions and the owner makes of an inode. -/
def attributed (file : File) (inode : Inode) : Inode :=
  owned file.stat.st_uid file.stat.st_gid
    (if file.stat.type = .S_IFLNK then inode else { inode with mode := file.stat.mode })

/-- The copy of a file. -/
def copyInode (file : File) : Inode where
  type := file.stat.type
  mode :=
    if file.stat.type = .S_IFLNK then 0o777
    else if file.stat.type = .S_IFREG then file.stat.mode.ldiff (S_ISUID + S_ISGID)
    else file.stat.mode
  st_uid := file.stat.st_uid
  st_gid := file.stat.st_gid
  st_rdev := if file.stat.type ∈ [.S_IFDIR, .S_IFREG, .S_IFLNK] then 0 else file.stat.st_rdev
  content := if file.stat.type ∈ [.S_IFREG, .S_IFLNK] then file.content else []

theorem attributed_created (umask : ℕ) (file : File) : attributed file (created umask file) = copyInode file := by
  obtain ⟨⟨type, mode, st_dev, st_ino, st_nlink, st_uid, st_gid, st_rdev, st_size⟩, content, entries⟩ := file
  cases type <;> rfl

theorem attributed_copyInode (file : File) : attributed file (copyInode file) = copyInode file := by
  obtain ⟨⟨type, mode, st_dev, st_ino, st_nlink, st_uid, st_gid, st_rdev, st_size⟩, content, entries⟩ := file
  cases type <;> rfl

/-- The bits that are taken away were not set. -/
theorem ldiff_eq_self {mode bits : ℕ} : mode.ldiff bits = mode ↔ mode &&& bits = 0 := by
  constructor
  · intro same
    apply Nat.eq_of_testBit_eq
    intro index
    have bit := congrArg (fun number => number.testBit index) same
    rw [Nat.testBit_ldiff] at bit
    rw [Nat.testBit_and, Nat.zero_testBit, ← bit]
    cases mode.testBit index <;> cases bits.testBit index <;> rfl
  · intro none
    apply Nat.eq_of_testBit_eq
    intro index
    have bit := congrArg (fun number => number.testBit index) none
    rw [Nat.testBit_and, Nat.zero_testBit] at bit
    rw [Nat.testBit_ldiff]
    cases known : mode.testBit index with
    | false => rfl
    | true =>
      rw [known, Bool.true_and] at bit
      rw [bit]
      rfl

/-- The copy is right unless it is that of a regular file with one of these bits. -/
theorem copyInode_matches_iff {file : File} (symlink : file.stat.type = .S_IFLNK → file.stat.mode = 0o777) :
    (copyInode file).Matches file ↔
      (file.stat.type = .S_IFREG → file.stat.mode &&& (S_ISUID + S_ISGID) = 0) := by
  constructor
  · intro matched regular
    have mode := matched.mode
    rw [copyInode] at mode
    dsimp only at mode
    rw [regular, if_neg (by decide), if_pos rfl] at mode
    exact ldiff_eq_self.mp mode
  · intro plain
    refine ⟨rfl, fun named => if_pos named, fun named => if_neg ?_, ?_, rfl, rfl⟩
    · intro other
      simp only [List.mem_cons, List.not_mem_nil, or_false] at named other
      rcases named with device | device <;> rw [device] at other <;> simp at other
    · rw [copyInode]
      dsimp only
      split
      · next isLink => exact (symlink isLink).symm
      · split
        · next regular => exact ldiff_eq_self.mpr (plain regular)
        · rfl

section Perform

variable (umask : ℕ) {filesystem : LinuxFilesystem} {path : Path} {number : ℕ} {inode : Inode} {file : File}

theorem performAll_append (filesystem : LinuxFilesystem) (calls more : List DestinationCall) :
    performAll umask filesystem (calls ++ more) = performAll umask (performAll umask filesystem calls) more :=
  List.foldl_append

/-- A file system with another inode at a number. -/
def withInode (filesystem : LinuxFilesystem) (number : ℕ) (inode : Inode) : LinuxFilesystem :=
  { filesystem with inode := Function.update filesystem.inode number (some inode) }

theorem withInode_named (inode : Inode) (named : filesystem.entry path = some number) :
    (filesystem.withInode number inode).entry path = some number := named

theorem withInode_known (filesystem : LinuxFilesystem) (number : ℕ) (inode : Inode) :
    (filesystem.withInode number inode).inode number = some inode := Function.update_self ..

theorem withInode_withInode (filesystem : LinuxFilesystem) (number : ℕ) (inode again : Inode) :
    (filesystem.withInode number inode).withInode number again = filesystem.withInode number again := by
  simp only [withInode, Function.update_idem]

theorem change_some (changed : Inode → Inode) (named : filesystem.entry path = some number)
    (known : filesystem.inode number = some inode) :
    filesystem.change path changed = filesystem.withInode number (changed inode) := by
  rw [change, named]
  dsimp only
  rw [known]
  rfl

theorem performAll_attributes (named : filesystem.entry path = some number)
    (known : filesystem.inode number = some inode) : performAll umask filesystem (attributeCalls path file) =
      filesystem.withInode number (attributed file inode) := by
  rw [attributeCalls, attributed]
  split
  · exact change_some _ named known
  · change LinuxFilesystem.change (filesystem.change path _) path _ = _
    rw [change_some _ named known, change_some _ (withInode_named _ named) (withInode_known ..),
      withInode_withInode]

theorem performAll_writes (writes : List (List UInt8)) (named : filesystem.entry path = some number)
    (known : filesystem.inode number = some inode) : performAll umask filesystem (writes.map (.write path)) =
      filesystem.withInode number { inode with content := inode.content ++ writes.flatten } := by
  induction writes generalizing filesystem inode with
  | nil =>
    rw [List.flatten_nil, List.append_nil, withInode, ← known, Function.update_eq_self]
    rfl
  | cons bytes writes ih =>
    change performAll umask (filesystem.change path _) _ = _
    rw [change_some _ named known, ih (withInode_named _ named) (withInode_known ..), withInode_withInode,
      List.flatten_cons, List.append_assoc]

/-- A new inode at a path. -/
def placed (filesystem : LinuxFilesystem) (path : Path) (inode : Inode) : LinuxFilesystem where
  entry := Function.update filesystem.entry path (some filesystem.next)
  inode := Function.update filesystem.inode filesystem.next (some inode)
  next := filesystem.next + 1

theorem placed_named (filesystem : LinuxFilesystem) (path : Path) (inode : Inode) :
    (filesystem.placed path inode).entry path = some filesystem.next := Function.update_self ..

theorem placed_known (filesystem : LinuxFilesystem) (path : Path) (inode : Inode) :
    (filesystem.placed path inode).inode filesystem.next = some inode := Function.update_self ..

theorem placed_withInode (filesystem : LinuxFilesystem) (path : Path) (inode again : Inode) :
    (filesystem.placed path inode).withInode filesystem.next again = filesystem.placed path again := by
  simp only [withInode, placed, Function.update_idem]

theorem performAll_creates (free : filesystem.isFree path = true) {made : List DestinationCall}
    (creates : Creates path file made) :
    performAll umask filesystem made = filesystem.placed path (created umask file) := by
  have added (inode : Inode) : filesystem.add path inode = filesystem.placed path inode := if_pos free
  have nonempty : path ≠ [] := by
    rintro rfl
    simp [isFree] at free
  cases creates with
  | root empty => exact absurd empty nonempty
  | directory _ directory =>
    rw [created, directory]
    exact added _
  | regular writes _ regular whole =>
    change performAll umask (filesystem.add path _) _ = _
    rw [added, performAll_writes umask writes (placed_named ..) (placed_known ..), placed_withInode, created,
      regular, whole]
    rfl
  | symlink _ symlink =>
    rw [created, symlink]
    exact added _
  | node _ special =>
    have kept : file.stat.type ∉ [.S_IFDIR, .S_IFREG, .S_IFLNK] ∧ file.stat.type ∉ [.S_IFREG, .S_IFLNK] ∧
        file.stat.type ≠ .S_IFLNK := by
      generalize file.stat.type = type at special
      simp only [List.mem_cons, List.not_mem_nil, or_false] at special
      rcases special with rfl | rfl | rfl | rfl <;> decide
    rw [created, if_neg kept.1, if_neg kept.2.1, if_neg kept.2.2]
    exact added _

/-- A file that is created and given its attributes. -/
theorem performAll_afresh (free : filesystem.isFree path = true) {made : List DestinationCall}
    (creates : Creates path file made) :
    performAll umask filesystem (made ++ attributeCalls path file) = filesystem.placed path (copyInode file) := by
  rw [performAll_append, performAll_creates umask free creates,
    performAll_attributes umask (placed_named ..) (placed_known ..), attributed_created, placed_withInode]

end Perform

end LinuxFilesystem

section Held

open LinuxFilesystem

/-- The calls for one entry: it is created, remembered if it has several links, or linked to a copy. -/
inductive Placing (tree : SourceTree) (hard_links : List (ℕ × Path)) (path : Path) :
    List DestinationCall → List (ℕ × Path) → Prop
  | single {made : List DestinationCall} : Creates path (tree.file path) made →
      (tree.file path).stat.type = .S_IFDIR ∨ ¬ 1 < (tree.file path).stat.st_nlink →
      Placing tree hard_links path made hard_links
  | first {made : List DestinationCall} : Creates path (tree.file path) made →
      (tree.file path).stat.type ≠ .S_IFDIR → 1 < (tree.file path).stat.st_nlink →
      hard_links.lookup (tree.file path).stat.st_ino = none →
      Placing tree hard_links path made (((tree.file path).stat.st_ino, path) :: hard_links)
  | further {old_path : Path} : (tree.file path).stat.type ≠ .S_IFDIR →
      hard_links.lookup (tree.file path).stat.st_ino = some old_path →
      Placing tree hard_links path [.link old_path path] hard_links

/-- The file system when some paths are done: each has its copy, shared by the links to one file. -/
structure Held (tree : SourceTree) (done : List Path) (hard_links : List (ℕ × Path))
    (filesystem : LinuxFilesystem) : Prop where
  copied : ∀ path ∈ done, ∃ number, filesystem.entry path = some number ∧
    filesystem.inode number = some (copyInode (tree.file path)) ∧ number < filesystem.next
  shared : ∀ path ∈ done, ∀ other ∈ done,
    filesystem.entry path = filesystem.entry other ↔ path = other ∨ tree.HardLinked path other
  absent : ∀ path, path ∉ done → path ≠ [] → path ≠ ["lost+found"] → filesystem.entry path = none
  remembered : ∀ path ∈ done, (tree.file path).stat.type ≠ .S_IFDIR → 1 < (tree.file path).stat.st_nlink →
    hard_links.lookup (tree.file path).stat.st_ino ≠ none
  known : ∀ inode old_path, hard_links.lookup inode = some old_path → old_path ∈ done ∧
    (tree.file old_path).stat.type ≠ .S_IFDIR ∧ (tree.file old_path).stat.st_ino = inode

theorem formatted_held (tree : SourceTree) : Held tree [] [] formatted where
  copied := by simp
  shared := by simp
  absent path _ nonempty other := by
    rw [formatted]
    dsimp only
    rw [if_neg nonempty, if_neg other]
  remembered := by simp
  known := by simp

variable {tree : DeviceTree} {done : List Path} {hard_links : List (ℕ × Path)} {filesystem : LinuxFilesystem}

/-- What shares an inode number is one file. -/
theorem DeviceTree.same_file (tree : DeviceTree) {path other : Path} (linked : tree.HardLinked path other) :
    tree.file path = tree.file other :=
  tree.linked path other linked.1 (tree.device path other) linked.2.2

theorem SourceTree.HardLinked.symm {tree : SourceTree} {path other : Path} (linked : tree.HardLinked path other) :
    tree.HardLinked other path := ⟨linked.2.1, linked.1, linked.2.2.symm⟩

section Step

variable {path : Path} (held : Held tree.toSourceTree done hard_links filesystem) (fresh : path ∉ done)

include fresh in
theorem ne_of_fresh {other : Path} (inside : other ∈ done) : other ≠ path := by
  rintro rfl
  exact fresh inside

include held fresh in
/-- A path gets a new inode if it is not a link to a file that is done. -/
theorem Held.placed (alone : ∀ other ∈ done, ¬ tree.HardLinked path other) {links : List (ℕ × Path)}
    (remembered : ∀ other ∈ path :: done, (tree.file other).stat.type ≠ .S_IFDIR →
      1 < (tree.file other).stat.st_nlink → links.lookup (tree.file other).stat.st_ino ≠ none)
    (known : ∀ inode old_path, links.lookup inode = some old_path → old_path ∈ path :: done ∧
      (tree.file old_path).stat.type ≠ .S_IFDIR ∧ (tree.file old_path).stat.st_ino = inode) :
    Held tree.toSourceTree (path :: done) links (filesystem.placed path (copyInode (tree.file path))) := by
  have kept {other : Path} (different : other ≠ path) :
      (filesystem.placed path (copyInode (tree.file path))).entry other = filesystem.entry other :=
    Function.update_of_ne different ..
  have apart {other : Path} (inside : other ∈ done) :
      filesystem.entry other ≠ some filesystem.next ∧ path ≠ other := by
    obtain ⟨number, named, -, below⟩ := held.copied other inside
    refine ⟨fun same => ?_, (ne_of_fresh fresh inside).symm⟩
    rw [named, Option.some.injEq] at same
    omega
  refine ⟨?_, ?_, ?_, remembered, known⟩
  · intro other inside
    rcases List.mem_cons.mp inside with rfl | before
    · exact ⟨filesystem.next, placed_named .., placed_known .., Nat.lt_succ_self _⟩
    · obtain ⟨number, named, inode, below⟩ := held.copied other before
      refine ⟨number, (kept (ne_of_fresh fresh before)).trans named, ?_, Nat.lt_succ_of_lt below⟩
      exact (Function.update_of_ne (Nat.ne_of_lt below) ..).trans inode
  · intro one inside other inside'
    rcases List.mem_cons.mp inside with rfl | before
    · rcases List.mem_cons.mp inside' with rfl | before'
      · exact iff_of_true rfl (.inl rfl)
      · rw [placed_named, kept (ne_of_fresh fresh before')]
        refine iff_of_false (fun same => (apart before').1 same.symm) ?_
        exact not_or.mpr ⟨(apart before').2, alone other before'⟩
    · rcases List.mem_cons.mp inside' with rfl | before'
      · rw [placed_named, kept (ne_of_fresh fresh before)]
        refine iff_of_false (apart before).1 ?_
        exact not_or.mpr ⟨(apart before).2.symm, fun linked => alone one before linked.symm⟩
      · rw [kept (ne_of_fresh fresh before), kept (ne_of_fresh fresh before')]
        exact held.shared one before other before'
  · intro other outside nonempty elsewhere
    rw [List.mem_cons, not_or] at outside
    rw [kept outside.1]
    exact held.absent other outside.2 nonempty elsewhere

include held fresh in
/-- A further link to a file that is done. -/
theorem Held.linked {old_path : Path} (inside : old_path ∈ done) (linked : tree.HardLinked old_path path) :
    Held tree.toSourceTree (path :: done) hard_links
      { filesystem with entry := Function.update filesystem.entry path (filesystem.entry old_path) } := by
  have kept {other : Path} (different : other ≠ path) :
      Function.update filesystem.entry path (filesystem.entry old_path) other = filesystem.entry other :=
    Function.update_of_ne different ..
  have named : Function.update filesystem.entry path (filesystem.entry old_path) path = filesystem.entry old_path :=
    Function.update_self ..
  have same := tree.same_file linked
  have shares {other : Path} (before : other ∈ done) :
      filesystem.entry old_path = filesystem.entry other ↔ path = other ∨ tree.HardLinked path other := by
    rw [held.shared old_path inside other before, or_iff_right (ne_of_fresh fresh before).symm]
    constructor
    · rintro (rfl | linked')
      · exact linked.symm
      · exact ⟨linked.2.1, linked'.2.1, linked.2.2.symm.trans linked'.2.2⟩
    · exact fun linked' => .inr ⟨linked.1, linked'.2.1, linked.2.2.trans linked'.2.2⟩
  refine ⟨?_, ?_, ?_, ?_, ?_⟩
  · intro other inside'
    rcases List.mem_cons.mp inside' with rfl | before
    · dsimp only
      rw [named, ← same]
      exact held.copied old_path inside
    · dsimp only
      rw [kept (ne_of_fresh fresh before)]
      exact held.copied other before
  · intro one inside' other inside''
    dsimp only
    rcases List.mem_cons.mp inside' with rfl | before
    · rcases List.mem_cons.mp inside'' with rfl | before'
      · exact iff_of_true rfl (.inl rfl)
      · rw [named, kept (ne_of_fresh fresh before')]
        exact shares before'
    · rcases List.mem_cons.mp inside'' with rfl | before'
      · rw [named, kept (ne_of_fresh fresh before), eq_comm, shares before, eq_comm]
        exact or_congr_right ⟨fun linked => linked.symm, fun linked => linked.symm⟩
      · rw [kept (ne_of_fresh fresh before), kept (ne_of_fresh fresh before')]
        exact held.shared one before other before'
  · intro other outside nonempty elsewhere
    rw [List.mem_cons, not_or] at outside
    dsimp only
    rw [kept outside.1]
    exact held.absent other outside.2 nonempty elsewhere
  · intro other inside' file several
    rcases List.mem_cons.mp inside' with rfl | before
    · rw [← same] at file several ⊢
      exact held.remembered old_path inside file several
    · exact held.remembered other before file several
  · intro inode other found
    obtain ⟨before, file, number⟩ := held.known inode other found
    exact ⟨List.mem_cons_of_mem _ before, file, number⟩

end Step

variable {path : Path} (umask : ℕ)

/-- What the calls for one entry make of the file system. -/
theorem Held.placing (held : Held tree.toSourceTree done hard_links filesystem) (fresh : path ∉ done)
    (entries : ∀ other ∈ path :: done, tree.Entry other) (nonempty : path ≠ []) (elsewhere : path ≠ ["lost+found"])
    (outer : path.dropLast ∈ done) (directory : (tree.file path.dropLast).stat.type = .S_IFDIR)
    {made : List DestinationCall} {links : List (ℕ × Path)}
    (placing : Placing tree.toSourceTree hard_links path made links) :
    Held tree.toSourceTree (path :: done) links
      (performAll umask filesystem (made ++ attributeCalls path (tree.file path))) := by
  have stat {other : Path} (inside : other ∈ done) : filesystem.stat other = some (copyInode (tree.file other)) := by
    obtain ⟨number, named, inode, -⟩ := held.copied other inside
    rw [LinuxFilesystem.stat, named]
    exact inode
  have free : filesystem.isFree path = true := by
    rw [isFree, held.absent path fresh nonempty elsewhere, isDirectory, stat outer, Option.any_some, copyInode]
    simp [nonempty, directory]
  have counted {other : Path} (inside : other ∈ done) (linked : tree.HardLinked path other) :
      1 < (tree.file path).stat.st_nlink ∧ hard_links.lookup (tree.file path).stat.st_ino ≠ none := by
    have several := tree.counted path other (entries path List.mem_cons_self)
      (entries other (List.mem_cons_of_mem _ inside)) (ne_of_fresh fresh inside).symm linked.1 linked.2.2
    have same := tree.same_file linked
    refine ⟨several, ?_⟩
    rw [same] at several ⊢
    exact held.remembered other inside linked.2.1 several
  cases placing with
  | single creates lone =>
    rw [performAll_afresh umask free creates]
    apply held.placed fresh
    · intro other inside linked
      rcases lone with isDirectory | few
      · exact linked.1 isDirectory
      · exact few (counted inside linked).1
    · intro other inside file several
      rcases List.mem_cons.mp inside with rfl | before
      · exact absurd lone (not_or.mpr ⟨file, not_not.mpr several⟩)
      · exact held.remembered other before file several
    · intro inode other found
      obtain ⟨before, file, number⟩ := held.known inode other found
      exact ⟨List.mem_cons_of_mem _ before, file, number⟩
  | first creates file several unknown =>
    rw [performAll_afresh umask free creates]
    apply held.placed fresh
    · intro other inside linked
      exact (counted inside linked).2 unknown
    · intro other inside file' several'
      rw [List.lookup_cons]
      split
      · simp
      · next different =>
        rcases List.mem_cons.mp inside with rfl | before
        · simp at different
        · exact held.remembered other before file' several'
    · intro inode other found
      rw [List.lookup_cons] at found
      split at found
      · next same =>
        cases found
        exact ⟨List.mem_cons_self, file, (beq_iff_eq.mp same).symm⟩
      · obtain ⟨before, file', number⟩ := held.known inode other found
        exact ⟨List.mem_cons_of_mem _ before, file', number⟩
  | @further old_path file found =>
    obtain ⟨before, file', number⟩ := held.known _ old_path found
    have linked : tree.HardLinked old_path path := ⟨file', file, number⟩
    obtain ⟨old_number, named, inode, -⟩ := held.copied old_path before
    have notDirectory : filesystem.isDirectory old_path = false := by
      rw [isDirectory, stat before, Option.any_some, copyInode]
      simp [file']
    have made : performAll umask filesystem [.link old_path path] =
        { filesystem with entry := Function.update filesystem.entry path (filesystem.entry old_path) } := by
      change filesystem.link old_path path = _
      rw [LinuxFilesystem.link, free, notDirectory]
      rfl
    have same := tree.same_file linked
    rw [same] at inode
    have links := held.linked fresh before linked
    rw [performAll_append, made]
    generalize withLink : ({ filesystem with
      entry := Function.update filesystem.entry path (filesystem.entry old_path) } : LinuxFilesystem) = next at links
    have named' : next.entry path = some old_number := by
      rw [← withLink]
      exact (Function.update_self ..).trans named
    have inode' : next.inode old_number = some (copyInode (tree.file path)) := by
      rw [← withLink]
      exact inode
    rw [performAll_attributes umask named' inode', attributed_copyInode, withInode, ← inode',
      Function.update_eq_self]
    exact links

/-- The root is there already. -/
theorem Held.root (tree : DeviceTree) : Held tree.toSourceTree [[]] []
    (performAll umask formatted (attributeCalls [] (tree.file []))) := by
  have named : formatted.entry [] = some 2 := rfl
  have known : formatted.inode 2 = some ⟨.S_IFDIR, 0o755, 0, 0, 0, []⟩ := rfl
  rw [performAll_attributes umask named known]
  have attributes : attributed (tree.file []) ⟨.S_IFDIR, 0o755, 0, 0, 0, []⟩ = copyInode (tree.file []) := by
    rw [attributed, copyInode, tree.root]
    rfl
  rw [attributes]
  refine ⟨?_, ?_, ?_, ?_, ?_⟩
  · rw [List.forall_mem_singleton]
    exact ⟨2, rfl, withInode_known .., (by decide : 2 < 12)⟩
  · simp
  · intro path _ nonempty elsewhere
    exact (formatted_held tree.toSourceTree).absent path (by simp) nonempty elsewhere
  · rw [List.forall_mem_singleton]
    exact fun file => absurd tree.root file
  · simp

end Held

section Run

open FilesystemIterator LinuxFilesystem

variable {tree : DeviceTree} {environment : Environment}

theorem createEntry_iter {tree : SourceTree} {copying next : Copying} {success : Bool}
    (entry : createEntry tree environment copying = some (success, next)) : next.iter = copying.iter := by
  simp only [createEntry] at entry
  split at entry
  · cases entry
    rfl
  · split at entry
    · cases entry
      rfl
    · split at entry
      · cases entry
        rfl
      · simp only [Option.bind_eq_bind, Option.bind_eq_some_iff] at entry
        obtain ⟨⟨created, machine⟩, _, same⟩ := entry
        cases same
        rfl

theorem createEntry_placing {copying : Copying}
    (fresh : copying.iter.stbuf_ = (tree.file copying.iter.names_).stat) {next : Copying}
    (entry : createEntry tree.toSourceTree environment copying = some (true, next)) :
    ∃ made, Placing tree.toSourceTree copying.hard_links copying.iter.names_ made next.hard_links ∧
      next.machine.calls = copying.machine.calls ++ made := by
  simp only [createEntry, currentFile_of_fresh fresh] at entry
  split at entry
  · next text =>
    cases entry
    have root := partialPath_eq_empty.mp text
    refine ⟨[], .single (.root root) (.inl ?_), (List.append_nil _).symm⟩
    rw [root]
    exact tree.root
  · next below =>
    have nonempty : copying.iter.names_ ≠ [] := mt partialPath_eq_empty.mpr below
    split at entry
    · next directory =>
      obtain ⟨after, ⟨works, same⟩ | fails⟩ := attempt_cases environment copying.machine .mkdir
        copying.iter.names_ (.mkdir copying.iter.names_ (tree.file copying.iter.names_).stat.mode)
      · rw [works] at entry
        cases entry
        exact ⟨_, .single (.directory nonempty directory) (.inl directory), same⟩
      · rw [fails] at entry
        cases entry
    · next file =>
      split at entry
      · next old_path known =>
        obtain ⟨several, found⟩ := Option.ite_none_right_eq_some.mp known
        obtain ⟨after, ⟨works, same⟩ | fails⟩ := attempt_cases environment copying.machine .link
          copying.iter.names_ (.link old_path copying.iter.names_)
        · rw [works] at entry
          cases entry
          exact ⟨_, .further file found, same⟩
        · rw [fails] at entry
          cases entry
      · next unknown =>
        obtain ⟨success, after, created, works⟩ := createFile_performs environment copying.machine
          nonempty file (tree.sized copying.iter.names_)
        rw [created] at entry
        cases entry
        obtain ⟨made, creates, same⟩ := works rfl
        refine ⟨made, ?_, same⟩
        dsimp only
        split
        · next several =>
          rw [if_pos several] at unknown
          exact .first creates file several unknown
        · next few => exact .single creates (.inr few)

/-- What a turn of the loop does that works. -/
theorem copyEntry_true {tree : SourceTree} {depth : ℕ} {copying next : Copying}
    (entry : copyEntry tree environment depth copying = some (true, next)) :
    ∃ placed attributed, createEntry tree environment copying = some (true, placed) ∧
      setAttributes environment copying.iter.names_ (currentFile tree copying.iter) placed.machine =
        (true, attributed) ∧ next.hard_links = placed.hard_links ∧
      copying.iter.Increment tree environment [kCopyExclusionPrefix] depth attributed =
        some (next.iter, next.machine) := by
  simp only [copyEntry] at entry
  split at entry
  · cases entry
  · simp only [Option.bind_eq_bind, Option.bind_eq_some_iff] at entry
    obtain ⟨⟨success, placed⟩, created, entry⟩ := entry
    have sameIter := createEntry_iter created
    dsimp only at entry
    cases success with
    | false => cases entry
    | true =>
      rw [if_neg (by simp)] at entry
      generalize attributes : setAttributes environment copying.iter.names_ (currentFile tree copying.iter)
        placed.machine = result at entry
      obtain ⟨set, attributed⟩ := result
      cases set with
      | false => cases entry
      | true =>
        rw [if_neg (by simp), sameIter] at entry
        simp only [Option.bind_eq_some_iff] at entry
        obtain ⟨⟨iter, machine⟩, incremented, same⟩ := entry
        cases same
        exact ⟨placed, attributed, created, attributes, rfl, incremented⟩

/-- A copy that works never had an iterator with an error. -/
theorem copyFiles_clean {tree : SourceTree} {depth turns : ℕ} {copying last : Copying}
    (works : copyFiles tree environment depth turns copying = some (true, last)) :
    copying.iter.is_err_ = false := by
  induction turns generalizing copying with
  | zero => cases works
  | succ turns ih =>
    simp only [copyFiles] at works
    split at works
    · simp only [Option.some.injEq, Prod.mk.injEq, Bool.not_eq_true'] at works
      exact works.1
    · simp only [Option.bind_eq_bind, Option.bind_eq_some_iff] at works
      obtain ⟨⟨success, next⟩, entry, works⟩ := works
      dsimp only at works
      cases success with
      | false => cases works
      | true =>
        rw [if_pos rfl] at works
        obtain ⟨placed, attributed, -, -, -, incremented⟩ := copyEntry_true entry
        rcases Increment_keepsError incremented with same | ⟨isErr, -⟩
        · exact same.symm.trans (ih works)
        · rw [ih works] at isErr
          cases isErr

/-- The paths that a copy visits. -/
def SourceTree.visited (tree : SourceTree) : List Path := visible [kCopyExclusionPrefix] (tree.listing [])

theorem mem_visited {tree : SourceTree} {path : Path} :
    path ∈ tree.visited ↔ tree.Entry path ∧ ¬ Skipped path := by
  rw [SourceTree.visited, visible, List.mem_filter, SourceTree.mem_listing, Bool.not_eq_true', Bool.eq_false_iff]
  rfl

/-- The directory around an entry is one that the iterator looks into. -/
theorem SourceTree.Below.outer {tree : SourceTree} {path target : Path} (below : tree.Below path target) :
    target = path ∨ tree.Below path target.dropLast ∧ tree.Descends target.dropLast := by
  induction below with
  | here path => exact .inl rfl
  | @inside path target name descends member notSelf notParent below ih =>
    rcases ih with rfl | ⟨deeper, descends'⟩
    · rw [List.dropLast_concat]
      exact .inr ⟨.here path, descends⟩
    · exact .inr ⟨.inside descends member notSelf notParent deeper, descends'⟩

/-- What was visited before a path does not hold it, but the directory around it. -/
theorem DeviceTree.before (tree : DeviceTree) {done rest : List Path} {path : Path}
    (whole : tree.visited = done ++ path :: rest) :
    path ∉ done ∧ (path = [] → done = []) ∧
      (path ≠ [] → path.dropLast ∈ done ∧ (tree.file path.dropLast).stat.type = .S_IFDIR) := by
  have ordered : (done ++ path :: rest).Pairwise fun earlier later => ¬ later <+: earlier := by
    rw [← whole]
    exact (SourceTree.listWithin_ordered tree.distinct _ []).filter _
  obtain ⟨-, later, earlier⟩ := List.pairwise_append.mp ordered
  refine ⟨fun inside => earlier path inside path List.mem_cons_self List.prefix_rfl, ?_, ?_⟩
  · rintro rfl
    rw [List.eq_nil_iff_forall_not_mem]
    exact fun other inside => earlier other inside [] List.mem_cons_self List.nil_prefix
  · intro nonempty
    have here : path ∈ tree.visited := by
      rw [whole]
      exact List.mem_append_right _ List.mem_cons_self
    obtain ⟨entry, kept⟩ := mem_visited.mp here
    obtain ⟨outer, descends⟩ := (SourceTree.Below.outer entry).resolve_left nonempty
    refine ⟨?_, descends.1⟩
    have visited : path.dropLast ∈ tree.visited := by
      refine mem_visited.mpr ⟨outer, fun skipped => kept ?_⟩
      have deeper : isExcluded [kCopyExclusionPrefix] (path.dropLast ++ [path.getLast nonempty]) = true :=
        isExcluded_append skipped
      rw [List.dropLast_append_getLast nonempty] at deeper
      exact deeper
    rw [whole] at visited
    rcases List.mem_append.mp visited with inside | behind
    · exact inside
    · rcases List.mem_cons.mp behind with same | after
      · have shorter := congrArg List.length same
        rw [List.length_dropLast] at shorter
        have positive := List.length_pos_iff.mpr nonempty
        omega
      · exact absurd (List.dropLast_prefix path) ((List.pairwise_cons.mp later).1 _ after)

theorem held_of_root (umask : ℕ) {made : List DestinationCall} {links : List (ℕ × Path)}
    (placing : Placing tree.toSourceTree [] [] made links) :
    Held tree.toSourceTree [[]] links
      (performAll umask (performAll umask formatted []) (made ++ attributeCalls [] (tree.file []))) := by
  cases placing with
  | single creates lone =>
    cases creates with
    | root => exact Held.root umask tree
    | directory nonempty => exact absurd rfl nonempty
    | regular writes nonempty => exact absurd rfl nonempty
    | symlink nonempty => exact absurd rfl nonempty
    | node nonempty => exact absurd rfl nonempty
  | first creates file => exact absurd tree.root file
  | further file => exact absurd tree.root file

/-- When the loop ends with success every path that it visits is done. -/
theorem copyFiles_held (umask : ℕ) (opens : OpensThere tree.toSourceTree environment)
    (unseen : FlagUnseen tree.toSourceTree environment) {turns : ℕ} {copying last : Copying}
    (head : LoopHead tree.toSourceTree environment copying) {done rest : List Path}
    (whole : tree.visited = done ++ rest)
    (here : At tree.toSourceTree copying.iter rest [kCopyExclusionPrefix])
    (held : Held tree.toSourceTree done.reverse copying.hard_links
      (performAll umask formatted copying.machine.calls))
    (started : done = [] → copying.machine.calls = [] ∧ copying.hard_links = [])
    (works : copyFiles tree.toSourceTree environment (tree.weight []) turns copying = some (true, last)) :
    ∃ hard_links, Held tree.toSourceTree tree.visited.reverse hard_links
      (performAll umask formatted last.machine.calls) := by
  induction turns generalizing copying done rest with
  | zero => cases works
  | succ turns ih =>
    have clean := copyFiles_clean works
    simp only [copyFiles] at works
    cases here with
    | nowhere isEnd nothing =>
      rw [isEnd, Bool.or_true, if_pos rfl] at works
      simp only [Option.some.injEq, Prod.mk.injEq] at works
      obtain ⟨-, rfl⟩ := works
      rw [whole, nothing, List.append_nil]
      exact ⟨_, held⟩
    | path ready running same =>
      have flag := unseen copying head running
      have ticked : (copying.machine.poll environment).2 = copying.machine.tick := rfl
      rw [running, flag, Bool.or_false, if_neg Bool.false_ne_true, ticked] at works
      simp only [Option.bind_eq_bind, Option.bind_eq_some_iff] at works
      obtain ⟨⟨success, next⟩, entry, works⟩ := works
      dsimp only at works
      cases success with
      | false => cases works
      | true =>
        rw [if_pos rfl] at works
        obtain ⟨placed, attributed, created, attributes, links, incremented⟩ := copyEntry_true entry
        have fresh := ready.fresh clean
        obtain ⟨made, placing, calls⟩ := createEntry_placing (by exact fresh) created
        obtain ⟨success, after, set, sets⟩ := setAttributes_performs environment copying.iter.names_
          (currentFile tree.toSourceTree copying.iter) placed.machine
        rw [attributes] at set
        cases set
        obtain ⟨_, rfl, attributeCalls⟩ := sets rfl
        rw [currentFile_of_fresh fresh] at attributeCalls
        have total : next.machine.calls = copying.machine.calls ++
            (made ++ UpdateEngine.attributeCalls copying.iter.names_ (tree.file copying.iter.names_)) := by
          rw [Increment_calls incremented, attributeCalls, calls, List.append_assoc]
          rfl
        rw [same] at whole
        obtain ⟨new, first, outer⟩ := tree.before whole
        have advanced : tree.visited = (done ++ [copying.iter.names_]) ++
            visible [kCopyExclusionPrefix] (pending tree.toSourceTree copying.iter) := by
          rw [whole, List.append_assoc]
          rfl
        have visits {other : Path} (inside : other ∈ copying.iter.names_ :: done.reverse) :
            tree.Entry other ∧ ¬ Skipped other := by
          apply mem_visited.mp
          rw [whole]
          simp only [List.mem_cons, List.mem_reverse] at inside
          rcases inside with rfl | before
          · simp
          · exact List.mem_append_left _ before
        have heldNext : Held tree.toSourceTree (done ++ [copying.iter.names_]).reverse next.hard_links
            (performAll umask formatted next.machine.calls) := by
          rw [List.reverse_append, List.reverse_singleton, List.singleton_append, total, performAll_append, links]
          by_cases root : copying.iter.names_ = []
          · have nothing := first root
            obtain ⟨noCalls, noLinks⟩ := started nothing
            dsimp only at placing
            rw [root, noLinks] at placing
            rw [root, nothing, noCalls]
            exact held_of_root umask placing
          · obtain ⟨inside, directory⟩ := outer root
            apply held.placing umask
            · simpa using new
            · exact fun other inside => (visits inside).1
            · exact root
            · intro lost
              apply (visits List.mem_cons_self).2
              rw [lost]
              decide +kernel
            · simpa using inside
            · exact directory
            · exact placing
        have cleanNext := copyFiles_clean works
        refine ih (head.again flag running entry) advanced ?_ heldNext (fun nothing => ?_) works
        · cases Increment_came opens rfl ready incremented cleanNext with
          | path readyNext shown same =>
            rw [same]
            exact .path readyNext (readyNext.ends.trans cleanNext) rfl
          | nowhere isEnd same => exact .nowhere isEnd same
        · simp at nothing

theorem startCopying_calls (tree : SourceTree) (environment : Environment) :
    (startCopying tree environment).machine.calls = [] ∧ (startCopying tree environment).hard_links = [] := by
  simp only [startCopying, FilesystemIterator.new, Machine.issue]
  cases environment.reply 0 .lstat [] with
  | ok count => exact ⟨rfl, trivial⟩
  | failed errno => exact ⟨rfl, trivial⟩

theorem CopySynchronously_held (umask : ℕ) (opens : OpensThere tree.toSourceTree environment)
    (unseen : FlagUnseen tree.toSourceTree environment) {last : Copying}
    (works : CopySynchronously tree.toSourceTree environment = some (true, last)) :
    ∃ hard_links, Held tree.toSourceTree tree.visited.reverse hard_links
      (performAll umask formatted last.machine.calls) := by
  rw [CopySynchronously] at works
  have clean := copyFiles_clean works
  have rootVisible : isExcluded [kCopyExclusionPrefix] [] = false := by decide +kernel
  have start := startCopying_calls tree.toSourceTree environment
  have held := formatted_held tree.toSourceTree
  refine copyFiles_held umask opens unseen .first (List.nil_append _).symm ?_ ?_ (fun _ => start) works
  · simp only [startCopying, FilesystemIterator.new, Machine.issue] at clean ⊢
    cases known : environment.reply 0 .lstat [] with
    | failed errno =>
      rw [known] at clean
      cases clean
    | ok count =>
      refine .path ⟨rfl, rfl, fun _ => rfl⟩ rfl ?_
      rw [SourceTree.visited, SourceTree.listing_eq, visible_cons rootVisible, pending]
      simp only [remaining, List.append_nil]
  · rw [start.1, start.2]
    exact held

/-- A copy that works is faithful if and only if no regular file that is copied has its set-user-ID or
set-group-ID bit set. -/
theorem copy_faithful_iff (umask : ℕ) (opens : OpensThere tree.toSourceTree environment)
    (unseen : FlagUnseen tree.toSourceTree environment) {last : Copying}
    (works : CopySynchronously tree.toSourceTree environment = some (true, last)) :
    FaithfulCopy tree.toSourceTree (performAll umask formatted last.machine.calls) ↔
      ∀ path, tree.Entry path → ¬ Skipped path → (tree.file path).stat.type = .S_IFREG →
        (tree.file path).stat.mode &&& (S_ISUID + S_ISGID) = 0 := by
  obtain ⟨hard_links, held⟩ := CopySynchronously_held umask opens unseen works
  have inside {path : Path} (entry : tree.Entry path) (kept : ¬ Skipped path) : path ∈ tree.visited.reverse :=
    List.mem_reverse.mpr (mem_visited.mpr ⟨entry, kept⟩)
  have stat {path : Path} (entry : tree.Entry path) (kept : ¬ Skipped path) :
      (performAll umask formatted last.machine.calls).stat path = some (copyInode (tree.file path)) := by
    obtain ⟨number, named, inode, -⟩ := held.copied path (inside entry kept)
    rw [LinuxFilesystem.stat, named]
    exact inode
  constructor
  · intro faithful path entry kept
    obtain ⟨inode, known, matched⟩ := faithful.copied path entry kept
    rw [stat entry kept, Option.some.injEq] at known
    rw [← known] at matched
    exact (copyInode_matches_iff (tree.symlinks path)).mp matched
  · intro plain
    refine ⟨fun path entry kept => ?_, fun path other entry kept entry' kept' file file' => ?_⟩
    · exact ⟨_, stat entry kept, (copyInode_matches_iff (tree.symlinks path)).mpr (plain path entry kept)⟩
    · rw [held.shared path (inside entry kept) other (inside entry' kept')]
      constructor
      · rintro (rfl | linked)
        · rfl
        · exact linked.2.2
      · exact fun same => .inr ⟨file, file', same⟩

/-- A root with one file of some permissions. -/
def oneFile (mode : ℕ) : DeviceTree where
  file path :=
    let stat : Stat :=
      { type := .S_IFDIR, mode := 0o755, st_dev := 1, st_ino := 2, st_nlink := 2, st_uid := 0,
        st_gid := 0, st_rdev := 0, st_size := 0 }
    if path = [] then { stat, content := [], entries := ["su"] }
    else if path = ["su"] then
      { stat := { stat with type := .S_IFREG, mode, st_ino := 12, st_nlink := 1, st_size := 3 },
        content := [104, 105, 10], entries := [] }
    else { stat, content := [], entries := [] }
  depth := 1
  bounded path deep := by
    have nonempty : path ≠ [] := List.ne_nil_of_length_pos deep
    dsimp only
    rw [if_neg nonempty]
    split <;> rfl
  sized path := by
    dsimp only
    split
    · simp
    · split <;> simp
  linked path other := by
    dsimp only
    repeat' split
    all_goals simp_all
  distinct path := by
    dsimp only
    repeat' split
    all_goals simp
  separated path name member := by
    dsimp only at member
    split at member
    · rw [List.mem_singleton.mp member]
      decide +kernel
    · split at member
      · cases member
      · cases member
  root := rfl
  device path other := by
    dsimp only
    repeat' split
    all_goals rfl
  counted path other _ _ different := by
    dsimp only
    repeat' split
    all_goals simp_all
  symlinks path := by
    dsimp only
    repeat' split
    all_goals simp

/-- All calls work, and the exit flag is never set. -/
def calm : Environment where
  reply _ _ _ := .ok 0
  exitAt := none

theorem calm_opensThere (tree : SourceTree) : OpensThere tree calm :=
  fun _ _ _ => ⟨Reply.noConfusion, Reply.noConfusion⟩

theorem calm_unseen (tree : SourceTree) : FlagUnseen tree calm := fun _ _ _ => rfl

/-- Whether the copy of the file worked, and what permissions it has. -/
def copiedMode (mode : ℕ) : Option (Bool × Option ℕ) :=
  (CopySynchronously (oneFile mode).toSourceTree calm).map fun result =>
    (result.1, ((performAll 0o022 formatted result.2.machine.calls).stat ["su"]).map Inode.mode)

theorem copiedMode_some {mode copied : ℕ} (works : copiedMode mode = some (true, some copied)) :
    ∃ last, CopySynchronously (oneFile mode).toSourceTree calm = some (true, last) ∧
      ((performAll 0o022 formatted last.machine.calls).stat ["su"]).map Inode.mode = some copied := by
  obtain ⟨⟨success, last⟩, ran, same⟩ := Option.map_eq_some_iff.mp works
  rw [Prod.mk.injEq] at same
  obtain ⟨rfl, stat⟩ := same
  exact ⟨last, ran, stat⟩

theorem copy_faithful_plain : ∃ last, CopySynchronously (oneFile 0o755).toSourceTree calm = some (true, last) ∧
    FaithfulCopy (oneFile 0o755).toSourceTree (performAll 0o022 formatted last.machine.calls) := by
  have copied : copiedMode 0o755 = some (true, some 0o755) := by decide +kernel
  obtain ⟨last, works, -⟩ := copiedMode_some copied
  refine ⟨last, works, (copy_faithful_iff 0o022 (calm_opensThere _) (calm_unseen _) works).mpr ?_⟩
  intro path entry kept regular
  simp only [oneFile] at regular ⊢
  repeat' split
  all_goals decide

/-- A program with its set-user-ID bit is copied without it. -/
theorem copy_drops_setuid : ∃ last,
    CopySynchronously (oneFile 0o4755).toSourceTree calm = some (true, last) ∧
      ((performAll 0o022 formatted last.machine.calls).stat ["su"]).map Inode.mode = some 0o755 ∧
      ¬ FaithfulCopy (oneFile 0o4755).toSourceTree (performAll 0o022 formatted last.machine.calls) := by
  have entry : (oneFile 0o4755).Entry ["su"] := by
    refine .inside ⟨rfl, rfl⟩ List.mem_cons_self ?_ ?_ (.here _)
    · decide
    · decide
  have kept : ¬ Skipped ["su"] := by decide +kernel
  have copied : copiedMode 0o4755 = some (true, some 0o755) := by decide +kernel
  obtain ⟨last, works, stat⟩ := copiedMode_some copied
  refine ⟨last, works, stat, fun faithful => ?_⟩
  obtain ⟨inode, known, matched⟩ := faithful.copied ["su"] entry kept
  rw [known, Option.map_some, Option.some.injEq, matched.mode] at stat
  revert stat
  decide

end Run

end ChromiumOS.UpdateEngine
