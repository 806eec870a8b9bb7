import ChromiumOS.Model.UpdateEngine.FilesystemCopierAction
import ChromiumOS.Proofs.UpdateEngine.FilesystemWalk

/-! # What the file system copier has copied when it reports success

The calls on the destination say which files were copied. The loop keeps that every entry outside the
excluded paths is copied or still to come, so at the end of the iteration all of them are. The action
leaves that guarantee where the exit flag ends the loop, and where it unmounts what is not mounted.
-/

namespace ChromiumOS.UpdateEngine

section Copied

/-- The calls that create the copy of a file, which for the root are none. -/
inductive Creates (path : Path) (file : File) : List DestinationCall → Prop
  | root : path = [] → Creates path file []
  | directory : path ≠ [] → file.stat.type = .S_IFDIR →
      Creates path file [.mkdir path file.stat.mode]
  | regular (writes : List (List UInt8)) : path ≠ [] → file.stat.type = .S_IFREG →
      writes.flatten = file.content →
      Creates path file (.create path file.stat.mode :: writes.map (.write path))
  | symlink : path ≠ [] → file.stat.type = .S_IFLNK →
      Creates path file [.symlink file.content path]
  | node : path ≠ [] → file.stat.type ∈ [.S_IFIFO, .S_IFCHR, .S_IFBLK, .S_IFSOCK] →
      Creates path file [.mknod path file.stat.type file.stat.mode file.stat.st_rdev]

/-- The calls that set the permissions and the owner of a file. -/
def attributeCalls (path : Path) (file : File) : List DestinationCall :=
  (if file.stat.type = .S_IFLNK then [] else [.chmod path file.stat.mode]) ++
    [.lchown path file.stat.st_uid file.stat.st_gid]

variable (tree : SourceTree)

/-- A file was created with all its bytes, and its attributes were set. -/
def CopiedAfresh (path : Path) (calls : List DestinationCall) : Prop :=
  ∃ before creation after, Creates path (tree.file path) creation ∧
    calls = before ++ (creation ++ attributeCalls path (tree.file path)) ++ after

/-- A file was linked to the copy of a path that is the same file. -/
def CopiedAsLink (path : Path) (calls : List DestinationCall) : Prop :=
  ∃ before old_path after, tree.file old_path = tree.file path ∧ CopiedAfresh tree old_path before ∧
    calls = before ++ (.link old_path path :: attributeCalls path (tree.file path)) ++ after

def Copied (path : Path) (calls : List DestinationCall) : Prop :=
  CopiedAfresh tree path calls ∨ CopiedAsLink tree path calls

variable {tree}

theorem CopiedAfresh.append {path : Path} {calls : List DestinationCall}
    (copied : CopiedAfresh tree path calls) (more : List DestinationCall) :
    CopiedAfresh tree path (calls ++ more) := by
  obtain ⟨before, creation, after, creates, rfl⟩ := copied
  exact ⟨before, creation, after ++ more, creates, List.append_assoc _ _ _⟩

theorem Copied.append {path : Path} {calls : List DestinationCall} (copied : Copied tree path calls)
    (more : List DestinationCall) : Copied tree path (calls ++ more) := by
  rcases copied with afresh | ⟨before, old_path, after, same, afresh, rfl⟩
  · exact .inl (afresh.append more)
  · exact .inr ⟨before, old_path, after ++ more, same, afresh, List.append_assoc _ _ _⟩

end Copied

section CopyFile

/-- A part of the copy ends without a failed `CHECK`, and if it works makes calls as described. -/
def Performs (machine : Machine) (made : List DestinationCall → Prop)
    (result : Option (Bool × Machine)) : Prop :=
  ∃ success after, result = some (success, after) ∧
    (success = true → ∃ calls, made calls ∧ after.calls = machine.calls ++ calls)

theorem Performs.of_false {machine after : Machine} {made : List DestinationCall → Prop} :
    Performs machine made (some (false, after)) :=
  ⟨false, after, rfl, by simp⟩

theorem Performs.of_nothing {machine after : Machine} {made : List DestinationCall → Prop}
    (nothing : made []) (same : after.calls = machine.calls) :
    Performs machine made (some (true, after)) :=
  ⟨true, after, rfl, fun _ => ⟨[], nothing, by rw [same, List.append_nil]⟩⟩

/-- What was done before a part of the copy comes before what the part does. -/
theorem Performs.after {machine middle : Machine} {made madeThen : List DestinationCall → Prop}
    {result : Option (Bool × Machine)} (performs : Performs middle madeThen result)
    (calls : List DestinationCall) (before : middle.calls = machine.calls ++ calls)
    (join : ∀ more, madeThen more → made (calls ++ more)) : Performs machine made result := by
  obtain ⟨success, after, ran, works⟩ := performs
  refine ⟨success, after, ran, fun succeeded => ?_⟩
  obtain ⟨more, madeMore, same⟩ := works succeeded
  exact ⟨calls ++ more, join more madeMore, by rw [same, before, List.append_assoc]⟩

theorem transferred_pos (count : ℕ) {available : ℕ} (some : 0 < available) :
    0 < transferred count available := by
  rw [transferred]
  split <;> omega

theorem transferred_le (count available : ℕ) : transferred count available ≤ available := by
  rw [transferred]
  split <;> omega

/-- The calls that write bytes to a file, in as many parts as they like. -/
def Writes (path : Path) (bytes : List UInt8) (calls : List DestinationCall) : Prop :=
  ∃ writes : List (List UInt8), writes.flatten = bytes ∧ calls = writes.map (.write path)

theorem Writes.nil (path : Path) : Writes path [] [] := ⟨[], rfl, rfl⟩

theorem Writes.single (path : Path) (bytes : List UInt8) :
    Writes path bytes [.write path bytes] :=
  ⟨[bytes], List.append_nil bytes, rfl⟩

theorem Writes.append {path : Path} {size : ℕ} {bytes : List UInt8} {calls more : List DestinationCall}
    (first : Writes path (bytes.take size) calls) (second : Writes path (bytes.drop size) more) :
    Writes path bytes (calls ++ more) := by
  obtain ⟨writes, isTake, rfl⟩ := first
  obtain ⟨others, isDrop, rfl⟩ := second
  refine ⟨writes ++ others, ?_, List.map_append.symm⟩
  rw [List.flatten_append, isTake, isDrop, List.take_append_drop]

theorem writeAll_performs (environment : Environment) (path : Path) (turns : ℕ) (bytes : List UInt8) (machine : Machine)
    (enough : bytes.length ≤ turns) :
    Performs machine (Writes path bytes) (writeAll environment path turns bytes machine) := by
  induction turns generalizing bytes machine with
  | zero =>
    rw [List.length_eq_zero_iff.mp (Nat.le_zero.mp enough), writeAll]
    exact .of_nothing (.nil path) rfl
  | succ turns ih =>
    cases bytes with
    | nil => exact .of_nothing (.nil path) rfl
    | cons byte bytes =>
      simp only [writeAll, Machine.issue]
      cases environment.reply machine.clock .write path with
      | failed errno => exact .of_false
      | ok count =>
        dsimp only
        have positive : 0 < transferred count (byte :: bytes).length :=
          transferred_pos count (Nat.succ_pos _)
        generalize transferred count (byte :: bytes).length = size at positive ⊢
        have fewer : ((byte :: bytes).drop size).length ≤ turns := by
          rw [List.length_drop]
          omega
        refine (ih _ _ fewer).after [.write path ((byte :: bytes).take size)] rfl fun more writes => ?_
        exact (Writes.single path _).append writes

theorem copyLoop_performs (environment : Environment) (path : Path) (st_size turns bytes_written : ℕ) (left : List UInt8)
    (machine : Machine) (enough : left.length < turns)
    (total : bytes_written + left.length = st_size) :
    Performs machine (Writes path left)
      (copyLoop environment path st_size turns bytes_written left machine) := by
  induction turns generalizing bytes_written left machine with
  | zero => omega
  | succ turns ih =>
    simp only [copyLoop, Machine.poll, Machine.issue]
    split
    · exact .of_false
    · cases environment.reply machine.tick.clock .read path with
      | failed errno => exact .of_false
      | ok count =>
        dsimp only
        have most := transferred_le count (min (min kCopyFileBufferSize st_size) left.length)
        have least : left.length ≠ 0 →
            0 < transferred count (min (min kCopyFileBufferSize st_size) left.length) :=
          fun nonempty => transferred_pos count (by simp [kCopyFileBufferSize]; omega)
        generalize transferred count (min (min kCopyFileBufferSize st_size) left.length) = read_size
          at most least ⊢
        split
        · next none =>
          have empty : left = [] := by
            by_contra nonempty
            have positive := List.length_pos_iff.mpr nonempty
            have := least (by omega)
            omega
          rw [empty, List.length_nil] at total
          rw [if_pos (by omega), empty]
          exact .of_nothing (.nil path) rfl
        · next some =>
          obtain ⟨written, after, wrote, works⟩ := writeAll_performs environment path read_size
            (left.take read_size) (machine.tick.log ⟨.read, path, .ok count⟩) (List.length_take_le _ _)
          rw [wrote]
          cases written with
          | false => exact .of_false
          | true =>
            obtain ⟨calls, writes, same⟩ := works rfl
            dsimp only [Option.bind_eq_bind, Option.bind_some]
            rw [if_neg (by simp), if_neg (by omega)]
            split
            · next all =>
              have whole : left.take read_size = left := List.take_of_length_le (by omega)
              rw [whole] at writes
              exact ⟨true, after, rfl, fun _ => ⟨calls, writes, same⟩⟩
            · refine (ih (bytes_written + read_size) (left.drop read_size) after ?_ ?_).after calls same
                fun more rest => writes.append rest
              · rw [List.length_drop]
                omega
              · rw [List.length_drop]
                omega

/-- The two ways an attempted call ends. -/
theorem attempt_cases (environment : Environment) (machine : Machine) (call : Syscall) (path : Path)
    (effect : DestinationCall) : ∃ after,
    (attempt environment machine call path effect = (true, after) ∧
        after.calls = machine.calls ++ [effect]) ∨
      attempt environment machine call path effect = (false, after) := by
  rw [attempt, Machine.issue]
  cases environment.reply machine.clock call path with
  | ok count => exact ⟨_, .inl ⟨rfl, rfl⟩⟩
  | failed errno => exact ⟨_, .inr rfl⟩

theorem attempt_performs (environment : Environment) (machine : Machine) (call : Syscall)
    (path : Path) {effect : DestinationCall} {made : List DestinationCall → Prop}
    (single : made [effect]) :
    Performs machine made (some (attempt environment machine call path effect)) := by
  obtain ⟨after, ⟨works, same⟩ | fails⟩ := attempt_cases environment machine call path effect
  · exact ⟨true, after, congrArg some works, fun _ => ⟨[effect], single, same⟩⟩
  · rw [fails]
    exact .of_false

theorem CopyFileSynchronously_performs (environment : Environment) {path : Path} {file : File}
    (machine : Machine) (nonempty : path ≠ []) (regular : file.stat.type = .S_IFREG)
    (sized : file.stat.st_size = file.content.length) :
    Performs machine (Creates path file)
      (CopyFileSynchronously environment path file machine) := by
  rw [CopyFileSynchronously]
  obtain ⟨opened, ⟨works, same⟩ | fails⟩ := attempt_cases environment machine .open_ path
    (.create path file.stat.mode)
  · simp only [works, Bool.not_true, Bool.false_eq_true, if_false, Machine.issue]
    cases environment.reply opened.clock .open_ path with
    | failed errno => exact .of_false
    | ok count =>
      refine (copyLoop_performs environment path file.stat.st_size _ 0 file.content
        (opened.log ⟨.open_, path, .ok count⟩) (Nat.lt_succ_self _) (by omega)).after
        [.create path file.stat.mode] same ?_
      rintro more ⟨writes, whole, rfl⟩
      exact .regular writes nonempty regular whole
  · simp only [fails, Bool.not_false, if_true]
    exact .of_false

theorem CopySymlinkSynchronously_performs (environment : Environment) {path : Path} {file : File}
    (machine : Machine) (nonempty : path ≠ []) (symlink : file.stat.type = .S_IFLNK) :
    Performs machine (Creates path file)
      (some (CopySymlinkSynchronously environment path file machine)) := by
  simp only [CopySymlinkSynchronously, Machine.issue]
  cases environment.reply machine.clock .readlink path with
  | failed errno => exact .of_false
  | ok count =>
    dsimp only
    split
    · exact attempt_performs environment (machine.log ⟨.readlink, path, .ok count⟩) .symlink path
        (.symlink nonempty symlink)
    · exact .of_false

theorem createFile_performs (environment : Environment) {path : Path} {file : File}
    (machine : Machine) (nonempty : path ≠ []) (noDirectory : file.stat.type ≠ .S_IFDIR)
    (sized : file.stat.type = .S_IFREG → file.stat.st_size = file.content.length) :
    Performs machine (Creates path file) (createFile environment path file machine) := by
  rw [createFile]
  split
  · next regular =>
    exact CopyFileSynchronously_performs environment machine nonempty regular (sized regular)
  · next symlink => exact CopySymlinkSynchronously_performs environment machine nonempty symlink
  all_goals try next special =>
    exact attempt_performs environment machine .mknod path (.node nonempty (by simp [special]))
  · next directory => exact (noDirectory directory).elim

theorem setAttributes_performs (environment : Environment) (path : Path) (file : File)
    (machine : Machine) :
    Performs machine (· = attributeCalls path file)
      (some (setAttributes environment path file machine)) := by
  rw [setAttributes, attributeCalls]
  by_cases symlink : file.stat.type = .S_IFLNK
  · simp only [symlink, if_true]
    exact attempt_performs environment machine .lchown path rfl
  · simp only [symlink, if_false]
    obtain ⟨after, ⟨works, same⟩ | fails⟩ := attempt_cases environment machine .chmod path
      (.chmod path file.stat.mode)
    · simp only [works, if_true]
      have owned : Performs after (· = [.lchown path file.stat.st_uid file.stat.st_gid]) _ :=
        attempt_performs environment after .lchown path rfl
      exact owned.after _ same fun more made => congrArg _ made
    · simp only [fails, Bool.false_eq_true, if_false]
      exact .of_false

end CopyFile

section Loop

/-- The paths that are not to be copied. -/
abbrev Skipped (path : Path) : Prop := isExcluded [kCopyExclusionPrefix] path = true

/-- The inode numbers of files with several links are those of one device. The copier does not look
at the device. -/
def OneDevice (tree : SourceTree) : Prop :=
  ∀ path other, (tree.file path).stat.type ≠ .S_IFDIR → (tree.file other).stat.type ≠ .S_IFDIR →
    1 < (tree.file path).stat.st_nlink → 1 < (tree.file other).stat.st_nlink →
    (tree.file path).stat.st_ino = (tree.file other).stat.st_ino →
    (tree.file path).stat.st_dev = (tree.file other).stat.st_dev

/-- What a further link may be made to. -/
structure Linkable (tree : SourceTree) (link : ℕ × Path) : Prop where
  inode : (tree.file link.2).stat.st_ino = link.1
  several : 1 < (tree.file link.2).stat.st_nlink
  noDirectory : (tree.file link.2).stat.type ≠ .S_IFDIR

theorem Linkable.same_file {tree : SourceTree} {link : ℕ × Path} {path : Path}
    (linkable : Linkable tree link) (oneDevice : OneDevice tree)
    (current : Linkable tree (link.1, path)) : tree.file link.2 = tree.file path := by
  have sameInode := linkable.inode.trans current.inode.symm
  exact tree.linked _ _ linkable.noDirectory (oneDevice _ _ linkable.noDirectory current.noDirectory
    linkable.several current.several sameInode) sameInode

/-- The loop keeps: every entry that is not skipped is copied, current, or still to come, and every
path to link to was created. -/
structure CopyInvariant (tree : SourceTree) (copying : Copying) : Prop where
  errEnds : copying.iter.is_err_ = true → copying.iter.is_end_ = true
  ready : copying.iter.is_end_ = false →
    copying.iter.Ready tree ∧ ¬ Skipped copying.iter.names_
  covered : copying.iter.is_err_ = false → ∀ target, tree.Entry target → ¬ Skipped target →
    Copied tree target copying.machine.calls ∨
      copying.iter.is_end_ = false ∧
        (target = copying.iter.names_ ∨ copying.iter.Pending tree target)
  links : ∀ link ∈ copying.hard_links,
    Linkable tree link ∧ CopiedAfresh tree link.2 copying.machine.calls

variable {tree : SourceTree} {environment : Environment}

theorem currentFile_of_fresh {iter : FilesystemIterator}
    (fresh : iter.stbuf_ = (tree.file iter.names_).stat) :
    currentFile tree iter = tree.file iter.names_ := by
  rw [currentFile, fresh]

private theorem mem_of_lookup {links : List (ℕ × Path)} {inode : ℕ} {path : Path}
    (found : links.lookup inode = some path) : (inode, path) ∈ links := by
  obtain ⟨before, after, rfl, -⟩ := List.lookup_eq_some_iff.mp found
  simp

/-- The two ways an entry gets its place in the destination. -/
inductive Placed (tree : SourceTree) (copying next : Copying) : Prop
  | afresh (made : List DestinationCall) :
      Creates copying.iter.names_ (tree.file copying.iter.names_) made →
      next.machine.calls = copying.machine.calls ++ made →
      (∀ link ∈ next.hard_links, link ∈ copying.hard_links ∨
        link.2 = copying.iter.names_ ∧ Linkable tree link) → Placed tree copying next
  | linked (old_path : Path) : tree.file old_path = tree.file copying.iter.names_ →
      CopiedAfresh tree old_path copying.machine.calls →
      next.machine.calls = copying.machine.calls ++ [.link old_path copying.iter.names_] →
      next.hard_links = copying.hard_links → Placed tree copying next

theorem createEntry_places (environment : Environment) {copying : Copying} (oneDevice : OneDevice tree)
    (fresh : copying.iter.stbuf_ = (tree.file copying.iter.names_).stat)
    (links : ∀ link ∈ copying.hard_links,
      Linkable tree link ∧ CopiedAfresh tree link.2 copying.machine.calls) :
    ∃ success next, createEntry tree environment copying = some (success, next) ∧
      next.iter = copying.iter ∧ (success = true → Placed tree copying next) := by
  simp only [createEntry, currentFile_of_fresh fresh]
  split
  · next root =>
    refine ⟨true, copying, rfl, rfl, fun _ => ?_⟩
    exact .afresh [] (.root (partialPath_eq_empty.mp root)) (List.append_nil _).symm
      fun link mem => .inl mem
  · next below =>
    have nonempty : copying.iter.names_ ≠ [] := mt partialPath_eq_empty.mpr below
    split
    · next directory =>
      obtain ⟨after, ⟨works, same⟩ | fails⟩ := attempt_cases environment copying.machine .mkdir
        copying.iter.names_ (.mkdir copying.iter.names_ (tree.file copying.iter.names_).stat.mode)
      · rw [works]
        exact ⟨_, _, rfl, rfl, fun _ =>
          .afresh _ (.directory nonempty directory) same fun link mem => .inl mem⟩
      · rw [fails]
        exact ⟨_, _, rfl, rfl, by simp⟩
    · next noDirectory =>
      have current (several : 1 < (tree.file copying.iter.names_).stat.st_nlink) :
          Linkable tree ((tree.file copying.iter.names_).stat.st_ino, copying.iter.names_) :=
        ⟨rfl, several, noDirectory⟩
      split
      · next old_path known =>
        obtain ⟨several, found⟩ := Option.ite_none_right_eq_some.mp known
        obtain ⟨linkable, created⟩ := links _ (mem_of_lookup found)
        obtain ⟨after, ⟨works, same⟩ | fails⟩ := attempt_cases environment copying.machine .link
          copying.iter.names_ (.link old_path copying.iter.names_)
        · rw [works]
          exact ⟨_, _, rfl, rfl, fun _ => .linked old_path
            (linkable.same_file oneDevice (current several)) created same rfl⟩
        · rw [fails]
          exact ⟨_, _, rfl, rfl, by simp⟩
      · obtain ⟨success, after, created, works⟩ := createFile_performs environment copying.machine
          nonempty noDirectory (tree.sized copying.iter.names_)
        rw [created]
        refine ⟨success, _, rfl, rfl, fun succeeded => ?_⟩
        obtain ⟨made, creates, same⟩ := works succeeded
        refine .afresh made creates same fun link mem => ?_
        dsimp only at mem
        split at mem
        · next several =>
          rcases List.mem_cons.mp mem with rfl | mem
          · exact .inr ⟨rfl, current several⟩
          · exact .inl mem
        · exact .inl mem

section Placed

variable {copying next : Copying} {calls : List DestinationCall} (placed : Placed tree copying next)
  (attributes : calls = next.machine.calls ++
    attributeCalls copying.iter.names_ (tree.file copying.iter.names_))

include placed attributes

theorem Placed.grows : copying.machine.calls <+: calls := by
  rw [attributes]
  cases placed with
  | afresh made creates same fromBefore =>
    rw [same, List.append_assoc]
    exact List.prefix_append _ _
  | linked old_path sameFile created same sameLinks =>
    rw [same, List.append_assoc]
    exact List.prefix_append _ _

theorem Placed.copied : Copied tree copying.iter.names_ calls := by
  rw [attributes]
  cases placed with
  | afresh made creates same fromBefore =>
    refine .inl ⟨copying.machine.calls, made, [], creates, ?_⟩
    rw [same, List.append_nil, List.append_assoc]
  | linked old_path sameFile created same sameLinks =>
    refine .inr ⟨copying.machine.calls, old_path, [], sameFile, created, ?_⟩
    rw [same, List.append_nil, List.append_assoc, List.singleton_append]

theorem Placed.links (known : ∀ link ∈ copying.hard_links,
    Linkable tree link ∧ CopiedAfresh tree link.2 copying.machine.calls) :
    ∀ link ∈ next.hard_links, Linkable tree link ∧ CopiedAfresh tree link.2 calls := by
  obtain ⟨more, grown⟩ := placed.grows attributes
  have old {link : ℕ × Path} (mem : link ∈ copying.hard_links) :
      Linkable tree link ∧ CopiedAfresh tree link.2 calls :=
    ⟨(known link mem).1, grown ▸ (known link mem).2.append more⟩
  intro link mem
  cases placed with
  | afresh made creates same fromBefore =>
    rcases fromBefore link mem with before | ⟨isCurrent, linkable⟩
    · exact old before
    · refine ⟨linkable, copying.machine.calls, made, [], isCurrent ▸ creates, ?_⟩
      rw [attributes, same, isCurrent, List.append_nil, List.append_assoc]
  | linked old_path sameFile created same sameLinks => exact old (sameLinks ▸ mem)

end Placed

/-- The exclusion check does not fail on what the iterator yields. -/
theorem partialPath_ne_of_not_skipped {path : Path} (kept : ¬ Skipped path) :
    partialPath path ≠ kCopyExclusionPrefix := by
  intro same
  refine kept (List.any_eq_true.mpr ⟨kCopyExclusionPrefix, List.mem_singleton_self _, ?_⟩)
  rw [StringHasPrefix, same]
  exact List.isPrefixOf_iff_prefix.mpr List.prefix_rfl

/-- One turn of the loop, with an iterator that is not at its end. -/
theorem copyEntry_keeps {copying : Copying} {depth : ℕ} (oneDevice : OneDevice tree)
    (clean : FilesystemIterator.SkipsCleanly environment [kCopyExclusionPrefix])
    (opens : FilesystemIterator.OpensAll environment [kCopyExclusionPrefix])
    (invariant : CopyInvariant tree copying) (running : copying.iter.is_end_ = false)
    (enough : copying.iter.pendingWeight tree < depth) :
    ∃ success next, copyEntry tree environment depth copying = some (success, next) ∧
      (success = true → CopyInvariant tree next ∧ (next.iter.is_end_ = false →
        next.iter.pendingWeight tree < copying.iter.pendingWeight tree)) := by
  obtain ⟨ready, kept⟩ := invariant.ready running
  have noError : copying.iter.is_err_ = false := by rw [← ready.ends, running]
  have fresh := ready.fresh noError
  obtain ⟨created, placedIn, creates, sameIter, places⟩ :=
    createEntry_places environment oneDevice fresh invariant.links
  simp only [copyEntry, partialPath_ne_of_not_skipped kept, if_false, creates,
    currentFile_of_fresh fresh, Option.bind_eq_bind, Option.bind_some]
  cases created with
  | false => exact ⟨false, _, rfl, by simp⟩
  | true =>
    have placed := places rfl
    obtain ⟨success, attributed, set, sets⟩ := setAttributes_performs environment
      copying.iter.names_ (tree.file copying.iter.names_) placedIn.machine
    rw [Option.some.injEq] at set
    rw [set]
    cases success with
    | false => exact ⟨false, _, rfl, by simp⟩
    | true =>
      obtain ⟨_, rfl, attributes⟩ := sets rfl
      obtain ⟨iter, after, incremented, unchanged, advanced⟩ := copying.iter.Increment_advanced
        clean opens rfl depth attributed ready enough
      rw [← unchanged] at attributes
      simp only [sameIter, incremented]
      refine ⟨true, _, rfl, fun _ => ⟨⟨advanced.errEnds, fun goesOn => ?_, ?_,
        placed.links attributes invariant.links⟩, fun goesOn => (advanced.ready goesOn).2.2⟩⟩
      · obtain ⟨readyThen, keptThen, -⟩ := advanced.ready goesOn
        exact ⟨readyThen, Bool.eq_false_iff.mp keptThen⟩
      · intro clean target entry wanted
        obtain ⟨more, grown⟩ := placed.grows attributes
        rcases invariant.covered noError target entry wanted with copied | ⟨-, rfl | pending⟩
        · exact .inl (grown ▸ copied.append more)
        · exact .inl (placed.copied attributes)
        · exact .inr (advanced.covers clean target (Bool.eq_false_iff.mpr wanted) pending)

/-- The states in which the copy comes to the head of its loop. -/
inductive LoopHead (tree : SourceTree) (environment : Environment) : Copying → Prop
  | first : LoopHead tree environment (startCopying tree environment)
  | again {copying next : Copying} : LoopHead tree environment copying →
      (copying.machine.poll environment).1 = false → copying.iter.is_end_ = false →
      copyEntry tree environment (tree.weight [])
        { copying with machine := copying.machine.tick } = some (true, next) →
      LoopHead tree environment next

/-- The exit flag is not found set at the head of the loop, except at the end of the iteration. -/
def FlagUnseen (tree : SourceTree) (environment : Environment) : Prop :=
  ∀ copying, LoopHead tree environment copying → copying.iter.is_end_ = false →
    (copying.machine.poll environment).1 = false

theorem CopyInvariant.tick {copying : Copying} (invariant : CopyInvariant tree copying) :
    CopyInvariant tree { copying with machine := copying.machine.tick } :=
  ⟨invariant.errEnds, invariant.ready, invariant.covered, invariant.links⟩

/-- The loop, given as many turns as there are paths to come. -/
theorem copyFiles_copies (oneDevice : OneDevice tree)
    (clean : FilesystemIterator.SkipsCleanly environment [kCopyExclusionPrefix])
    (opens : FilesystemIterator.OpensAll environment [kCopyExclusionPrefix])
    (unseen : FlagUnseen tree environment) (turns : ℕ) (copying : Copying)
    (head : LoopHead tree environment copying) (invariant : CopyInvariant tree copying)
    (shallow : copying.iter.is_end_ = false → copying.iter.pendingWeight tree < tree.weight [])
    (positive : 0 < turns)
    (enough : copying.iter.is_end_ = false → copying.iter.pendingWeight tree + 1 < turns) :
    ∃ success last, copyFiles tree environment (tree.weight []) turns copying = some (success, last) ∧
      (success = true → ∀ path, tree.Entry path → ¬ Skipped path →
        Copied tree path last.machine.calls) := by
  induction turns generalizing copying with
  | zero => omega
  | succ turns ih =>
    simp only [copyFiles]
    cases isEnd : copying.iter.is_end_ with
    | true =>
      rw [Bool.or_true, if_pos rfl]
      refine ⟨_, _, rfl, fun succeeded path entry kept => ?_⟩
      have noError : copying.iter.is_err_ = false := by simpa using succeeded
      rcases invariant.covered noError path entry kept with copied | ⟨running, -⟩
      · exact copied
      · simp [isEnd] at running
    | false =>
      have flag := unseen copying head isEnd
      have deep := shallow isEnd
      have many := enough isEnd
      obtain ⟨success, next, copied, keeps⟩ :=
        copyEntry_keeps oneDevice clean opens invariant.tick isEnd deep
      rw [flag, Bool.or_false, if_neg Bool.false_ne_true]
      have ticked : (copying.machine.poll environment).2 = copying.machine.tick := rfl
      rw [ticked, copied]
      cases success with
      | false => exact ⟨false, next, rfl, by simp⟩
      | true =>
        obtain ⟨invariantThen, lighter⟩ := keeps rfl
        refine ih next (head.again flag isEnd copied) invariantThen (fun running => ?_) (by omega)
          fun running => ?_
        · exact Nat.lt_trans (lighter running) deep
        · have := lighter running
          dsimp only at this
          omega

variable (tree environment) in
theorem startCopying_invariant : CopyInvariant tree (startCopying tree environment) ∧
    ((startCopying tree environment).iter.is_end_ = false →
      (startCopying tree environment).iter.pendingWeight tree < tree.weight []) := by
  simp only [startCopying, FilesystemIterator.new, Machine.issue]
  cases environment.reply 0 .lstat [] with
  | failed errno =>
    exact ⟨⟨fun _ => rfl, by simp [FilesystemIterator.fail], by simp [FilesystemIterator.fail],
      by simp⟩, by simp [FilesystemIterator.fail]⟩
  | ok count =>
    refine ⟨⟨by simp, fun _ => ⟨⟨rfl, rfl, fun _ => rfl⟩, ?_⟩, fun _ target entry kept => ?_, by simp⟩,
      fun _ => ?_⟩
    · exact Bool.eq_false_iff.mp rfl
    · cases entry with
      | here => exact .inr ⟨rfl, .inl rfl⟩
      | inside descends mem notSelf notParent below =>
        exact .inr ⟨rfl, .inr (.inl ⟨descends, _, mem, notSelf, notParent, below⟩)⟩
    · rw [SourceTree.weight_eq, FilesystemIterator.pendingWeight]
      simp only [remainingWeight, awaitedWeight]
      omega

/-- A copy that works has copied every entry that is not skipped. -/
theorem CopySynchronously_copies (oneDevice : OneDevice tree)
    (clean : FilesystemIterator.SkipsCleanly environment [kCopyExclusionPrefix])
    (opens : FilesystemIterator.OpensAll environment [kCopyExclusionPrefix])
    (unseen : FlagUnseen tree environment) :
    ∃ success last, CopySynchronously tree environment = some (success, last) ∧
      (success = true → ∀ path, tree.Entry path → ¬ Skipped path →
        Copied tree path last.machine.calls) := by
  obtain ⟨invariant, shallow⟩ := startCopying_invariant tree environment
  exact copyFiles_copies oneDevice clean opens unseen _ _ .first invariant shallow
    (Nat.succ_pos _) fun running => Nat.succ_lt_succ (shallow running)

end Loop

namespace FilesystemCopierAction

variable (tree : SourceTree) (steps : CopierSteps)

/-- Whether the thread is started: there is a plan for a delta update, and no marker of an earlier
copy was found. -/
def threadStarted : Bool :=
  steps.hasInputObject && !steps.is_full_update &&
    (!steps.probeMount || steps.probeUnmount && !steps.markerExists)

/-- Every entry that is not skipped was copied. -/
def AllCopied (copying : Copying) : Prop :=
  ∀ path, tree.Entry path → ¬ Skipped path → Copied tree path copying.machine.calls

/-- What a reported success stands for. Without the thread it is a plan that needs no copy, or a copy
made before, with the destination unmounted again. -/
def Succeeded (last : FilesystemCopierAction) : Prop :=
  if threadStarted steps then
    steps.exec = true ∧ steps.return_code = 0 ∧ steps.mount = true ∧
      (∃ copying, last.copied = some (true, copying) ∧ AllCopied tree copying) ∧ steps.unmount = true
  else steps.hasInputObject = true ∧ (steps.is_full_update = true ∨ steps.probeUnmount = true)

/-- No `CHECK` fails, the marker is created for complete copies only, and exactly one completion is
reported, which says whether all steps worked. -/
def CompletionSafe : Prop :=
  ∃ last, run tree steps = some last ∧
    (last.marker = true → ∃ copying, last.copied = some (true, copying) ∧ AllCopied tree copying) ∧
    ∃ success, last.completions = [success] ∧ (success = true ↔ Succeeded tree steps last)

/-- What the thread does not cope with: that formatting, mounting or unmounting fails, that the exit
flag is set between two files, that an excluded directory cannot be read or closed, that a directory
is taken for missing, and that files of two devices have one inode number. -/
structure Undisturbed : Prop where
  formatted : steps.exec = true ∧ steps.return_code = 0
  mounted : steps.mount = true
  unmounted : steps.unmount = true
  unseen : FlagUnseen tree steps.copy
  clean : FilesystemIterator.SkipsCleanly steps.copy [kCopyExclusionPrefix]
  opens : FilesystemIterator.OpensAll steps.copy [kCopyExclusionPrefix]
  oneDevice : OneDevice tree

variable {tree steps}

theorem beforeThread_of_started (started : threadStarted steps = true) :
    ∃ action, beforeThread steps (new steps) = some (true, action) ∧ action.is_mounted_ = false ∧
      action.completions = [] := by
  simp only [threadStarted, Bool.and_eq_true, Bool.or_eq_true, Bool.not_eq_true'] at started
  obtain ⟨⟨hasInput, delta⟩, probe⟩ := started
  simp only [beforeThread, hasInput, delta, Mount, new]
  rcases probe with notMounted | ⟨unmounted, notMarked⟩
  · simp [notMounted]
  · cases mounted : steps.probeMount <;> simp [Unmount, unmounted, notMarked]

theorem beforeThread_of_not_started (idle : threadStarted steps = false) :
    ∃ action, beforeThread steps (new steps) = some (false, action) ∧ action.marker = false ∧
      action.completions = [steps.hasInputObject && (steps.is_full_update || steps.probeUnmount)] := by
  rw [beforeThread]
  cases hasInput : steps.hasInputObject with
  | false => exact ⟨_, rfl, rfl, rfl⟩
  | true =>
    cases full : steps.is_full_update with
    | true => exact ⟨_, rfl, rfl, rfl⟩
    | false =>
      simp only [threadStarted, hasInput, full, Bool.not_false, Bool.and_true, Bool.true_and,
        Bool.or_eq_false_iff, Bool.not_eq_false'] at idle
      obtain ⟨mounted, notFresh⟩ := idle
      cases unmounted : steps.probeUnmount with
      | false => cases steps.markerExists <;> simp [mounted, Mount, Unmount, new, SetOutputObject, ActionComplete]
      | true =>
        have marked : steps.markerExists = true := by simpa [unmounted] using notFresh
        simp [mounted, marked, Mount, Unmount, new, SetOutputObject, ActionComplete]

theorem HelperThreadMain_of_undisturbed {action : FilesystemCopierAction}
    (undisturbed : Undisturbed tree steps) (unmounted : action.is_mounted_ = false) :
    ∃ success copying, action.HelperThreadMain tree steps =
        some (success, { action.SetOutputObject steps.install_plan_ with
          is_mounted_ := false
          copied := some (success, copying)
          marker := success && steps.createMarker }) ∧
      (success = true → AllCopied tree copying) := by
  obtain ⟨success, copying, copied, copies⟩ := CopySynchronously_copies undisturbed.oneDevice
    undisturbed.clean undisturbed.opens undisturbed.unseen
  refine ⟨success, copying, ?_, copies⟩
  simp [HelperThreadMain, formatAndCopy, undisturbed.formatted, copyMounted, Mount, unmounted,
    undisturbed.mounted, copied, Unmount, undisturbed.unmounted, SetOutputObject]

/-- A root with an excluded directory and one file of three bytes. -/
def smallTree : SourceTree where
  file path :=
    let stat : Stat :=
      { type := .S_IFDIR, mode := 0o755, st_dev := 1, st_ino := 2, st_nlink := 3, st_uid := 0,
        st_gid := 0, st_rdev := 0, st_size := 0 }
    if path = [] then { stat, content := [], entries := [".", "..", "lost+found", "motd"] }
    else if path = ["motd"] then
      { stat := { stat with type := .S_IFREG, mode := 0o644, st_ino := 12, st_nlink := 1, st_size := 3 },
        content := [104, 105, 10], entries := [] }
    else { stat := { stat with st_ino := 11, st_nlink := 2 }, content := [], entries := [] }
  depth := 1
  bounded path deep := by
    have nonempty : path ≠ [] := List.ne_nil_of_length_pos deep
    dsimp only
    rw [if_neg nonempty]
    split <;> rfl
  sized path := by
    dsimp only
    split
    · simp
    · split <;> simp
  linked path other := by
    dsimp only
    repeat' split
    all_goals simp_all

/-- A delta update whose steps all work. -/
def calmSteps : CopierSteps :=
  { in_pipe_ := some { InstallPlan.empty with download_url := "http://127.0.0.1:8080/delta" }
    hasOutputPipe := true, probeMount := false, markerExists := false, probeUnmount := false,
    exec := true, return_code := 0, mount := true, createMarker := true, unmount := true,
    copy := { reply := fun _ _ _ => .ok 0, exitAt := none } }

end FilesystemCopierAction

end ChromiumOS.UpdateEngine
