import ChromiumOS.Model.UpdateEngine.RecursiveUnlinkDir

/-! # Recursive deletion removes exactly the subtree

While entries are being removed, the path of a call leads where it led before or nowhere. So every call below
a directory is about an entry of that directory, and whatever is removed is below the location of the path at
the start, even when links on the path itself lead into the subtree.
-/

namespace ChromiumOS.UpdateEngine.FileSystemCalls

open PathWalk

variable {system : FileSystemCalls}

section Paths

variable {tree after : Tree} {follow : Bool} {path : List Char} {location : Location} {name : Name}

theorem splitOn_child (path : List Char) (isName : IsName name) :
    (path ++ '/' :: name).splitOn '/' = path.splitOn '/' ++ [name] := by
  obtain ⟨-, -, -, clear⟩ := isName
  rw [List.splitOn_append_cons_self, List.splitOn_eq_singleton clear]

theorem errnoOf_eq_ENOENT {error : WalkError} : errnoOf error = .ENOENT ↔ error = .missing := by
  cases error <;> simp [errnoOf]

theorem locate_within (within : Within after tree) (follow : Bool) (path : List Char) :
    system.locate after follow path = system.locate tree follow path ∨
      system.locate after follow path = .error .ENOENT := by
  rw [locate, locate]
  split
  · exact .inl rfl
  · rcases resolve_within within follow system.maxLinks (system.start path)
      (path.splitOn '/') with same | gone
    · exact .inl (by rw [same])
    · exact .inr (by rw [gone]; rfl)

theorem locate_eq_ok : system.locate tree follow path = .ok location ↔ path ≠ [] ∧
    resolve tree follow system.maxLinks (system.start path) (path.splitOn '/') =
      .ok location := by
  rw [locate]
  split
  · next empty => exact iff_of_false nofun fun both => both.1 empty
  · next nonempty =>
    rw [and_iff_right nonempty]
    cases resolve tree follow system.maxLinks (system.start path)
      (path.splitOn '/') <;> simp [Except.mapError]

theorem locate_followed (noLink : ∀ target, tree.lookup location ≠ some (.symlink target))
    (located : system.locate tree false path = .ok location) : system.locate tree true path = .ok location := by
  obtain ⟨nonempty, resolved⟩ := locate_eq_ok.mp located
  exact locate_eq_ok.mpr ⟨nonempty, resolve_followed noLink _ resolved⟩

theorem isDirectory_iff : isDirectory tree location = true ↔
    tree.lookup location = none ∨ tree.lookup location = some .directory := by
  rw [isDirectory, decide_eq_true_eq]

theorem start_descends (descends : Descends tree system.cwd) (path : List Char) :
    Descends tree (system.start path) := by
  rw [start]
  split
  · exact descends_root
  · exact descends

/-- The last step of a walk in terms of errors. -/
def lastStepOf (tree : Tree) (name : Name) (location : Location) : Except Errno Location :=
  (lastStep tree name location).mapError errnoOf

theorem locate_child (descends : Descends tree system.cwd) (nonempty : path ≠ []) (isName : IsName name) :
    system.locate tree false (path ++ '/' :: name) = (system.locate tree true path).bind (lastStepOf tree name) := by
  have same : system.start (path ++ '/' :: name) = system.start path := by
    cases path with
    | nil => exact absurd rfl nonempty
    | cons head path => rfl
  rw [locate, locate, if_neg (by simp), if_neg nonempty, same, splitOn_child path isName,
    resolve_concat isName _ (start_descends descends path)]
  cases resolve tree true system.maxLinks (system.start path)
    (path.splitOn '/') with
  | error error => rfl
  | ok location => rfl

theorem lookup_of_lastStep {next : Location} (stepped : lastStep tree name location = .ok next) :
    tree.lookup next ≠ none := by
  rw [lastStep] at stepped
  split at stepped
  · split at stepped
    · cases stepped
    · next found =>
      cases stepped
      exact found
  · cases stepped

theorem locate_child_of_directory (descends : Descends tree system.cwd) (isName : IsName name)
    (located : system.locate tree true path = .ok location) (directory : isDirectory tree location = true) :
    system.locate tree false (path ++ '/' :: name) =
      if tree.lookup (location ++ [name]) = none then .error .ENOENT else .ok (location ++ [name]) := by
  have nonempty := (locate_eq_ok.mp located).1
  rw [locate_child descends nonempty isName, located]
  change lastStepOf tree name location = _
  rw [lastStepOf, lastStep, if_pos (isDirectory_iff.mp directory)]
  split <;> rfl

theorem path_cases (path : List Char) :
    '/' ∉ path ∨ ∃ front last, path = front ++ '/' :: last ∧ '/' ∉ last := by
  induction path using List.reverseRecOn with
  | nil => exact .inl List.not_mem_nil
  | append_singleton path char ih =>
    by_cases slash : char = '/'
    · exact .inr ⟨path, [], by rw [slash], List.not_mem_nil⟩
    · rcases ih with clear | ⟨front, last, rfl, clear⟩
      · exact .inl (by simp [clear, Ne.symm slash])
      · exact .inr ⟨front, last ++ [char], by simp, by simp [clear, Ne.symm slash]⟩

/-- The last component of a path that does not end with a slash is a name, or one of the two dots. -/
theorem splitOn_lastComponent (nonempty : path ≠ []) (noSlash : path.getLast? ≠ some '/') :
    lastComponent path ≠ [] ∧ '/' ∉ lastComponent path ∧
      ∃ front, path.splitOn '/' = front ++ [lastComponent path] := by
  rcases path_cases path with clear | ⟨front, last, rfl, clear⟩
  · have whole : lastComponent path = path := by
      rw [lastComponent, List.splitOn_eq_singleton clear]
      rfl
    rw [whole]
    exact ⟨nonempty, clear, [], List.splitOn_eq_singleton clear⟩
  · have split : (front ++ '/' :: last).splitOn '/' = front.splitOn '/' ++ [last] := by
      rw [List.splitOn_append_cons_self, List.splitOn_eq_singleton clear]
    have end_ : lastComponent (front ++ '/' :: last) = last := by
      rw [lastComponent, split]
      simp
    rw [end_]
    refine ⟨?_, clear, _, split⟩
    rintro rfl
    simp at noSlash

theorem located_exists (descends : Descends tree system.cwd) (noSlash : path.getLast? ≠ some '/')
    (noDots : lastComponent path ≠ ['.'] ∧ lastComponent path ≠ ['.', '.'])
    (located : system.locate tree false path = .ok location) : tree.lookup location ≠ none := by
  obtain ⟨nonempty, resolved⟩ := locate_eq_ok.mp located
  obtain ⟨notEmpty, clear, front, split⟩ := splitOn_lastComponent nonempty noSlash
  rw [split, resolve_concat ⟨notEmpty, noDots.1, noDots.2, clear⟩ _ (start_descends descends path)] at resolved
  cases walked : resolve tree true system.maxLinks (system.start path) front with
  | error error =>
    rw [walked] at resolved
    cases resolved
  | ok directory =>
    rw [walked] at resolved
    exact lookup_of_lastStep resolved

end Paths

section Calls

variable (system) {Answer : Type}

/-- A call replies what the tree says, or fails otherwise than with `ENOENT`. -/
theorem answer_cases (disk : Disk) (reply : Except Errno Answer) :
    system.answer disk reply = reply ∨ ∃ errno ≠ .ENOENT, system.answer disk reply = .error errno := by
  rw [answer]
  cases failed : system.fault disk.log.length with
  | none => exact .inl rfl
  | some errno =>
    refine .inr ⟨errno, ?_, rfl⟩
    rintro rfl
    exact system.known _ failed

variable {system}

theorem of_answer_ok {disk : Disk} {reply : Except Errno Answer} {value : Answer}
    (answered : system.answer disk reply = .ok value) : reply = .ok value := by
  rcases answer_cases system disk reply with same | ⟨errno, -, failed⟩
  · exact same.symm.trans answered
  · rw [failed] at answered
    cases answered

theorem of_answer_ENOENT {disk : Disk} {reply : Except Errno Answer}
    (answered : system.answer disk reply = .error .ENOENT) : reply = .error .ENOENT := by
  rcases answer_cases system disk reply with same | ⟨errno, known, failed⟩
  · exact same.symm.trans answered
  · rw [failed] at answered
    cases answered
    exact absurd rfl known

variable (system) in
/-- A call that removes an entry removed it, or failed and left the tree as it was. -/
theorem removal_cases (disk : Disk) (reply : Except Errno Location) :
    (∃ location, reply = .ok location ∧ system.removal disk reply = (.ok location, disk.tree.remove location)) ∨
      ∃ errno, system.removal disk reply = (.error errno, disk.tree) ∧
        (errno = .ENOENT → reply = .error .ENOENT) := by
  rw [removal]
  cases answered : system.answer disk reply with
  | ok location => exact .inl ⟨location, of_answer_ok answered, rfl⟩
  | error errno =>
    refine .inr ⟨errno, rfl, ?_⟩
    rintro rfl
    exact of_answer_ENOENT answered

end Calls

/-- No call failed, or some call failed otherwise than with `ENOENT`. -/
def NoneFailed (calls : List MadeCall) : Prop := ∀ call ∈ calls, call.errno = none

def SomeFailed (calls : List MadeCall) : Prop := ∃ call ∈ calls, ∃ errno ≠ .ENOENT, call.errno = some errno

/-- What holds after the deletion of a path has returned. -/
structure Unlinked (system : FileSystemCalls) (path : List Char) (disk after : Disk) (unlinked : Bool)
    (calls : List MadeCall) : Prop where
  log : after.log = disk.log ++ calls
  within : Within after.tree disk.tree
  inside : ∀ entry ∈ disk.tree.entries, entry ∉ after.tree.entries →
    ∃ location, system.locate disk.tree false path = .ok location ∧ location <+: entry.1
  gone : unlinked = true → system.locate after.tree false path = .error .ENOENT
  clean : NoneFailed calls → ∃ location, system.locate disk.tree false path = .ok location ∧
    ∀ entry ∈ after.tree.entries, ¬ location <+: entry.1
  reports : SomeFailed calls → unlinked = false
  blamed : unlinked = false → ¬ NoneFailed calls

/-- What holds after the loop over the entries of a directory, or some turns of it. -/
structure Emptied (location : Location) (disk after : Disk) (unlinked : Bool)
    (calls : List MadeCall) : Prop where
  log : after.log = disk.log ++ calls
  within : Within after.tree disk.tree
  inside : ∀ entry ∈ disk.tree.entries, entry ∉ after.tree.entries → location <+: entry.1
  reports : SomeFailed calls → unlinked = false
  blamed : unlinked = false → ¬ NoneFailed calls

theorem noneFailed_cons {call : MadeCall} {calls : List MadeCall} :
    NoneFailed (call :: calls) ↔ call.errno = none ∧ NoneFailed calls := List.forall_mem_cons

theorem noneFailed_append {calls later : List MadeCall} :
    NoneFailed (calls ++ later) ↔ NoneFailed calls ∧ NoneFailed later := List.forall_mem_append

theorem someFailed_cons {call : MadeCall} {calls : List MadeCall} :
    SomeFailed (call :: calls) ↔ (∃ errno ≠ .ENOENT, call.errno = some errno) ∨ SomeFailed calls :=
  List.exists_mem_cons_iff ..

theorem someFailed_append {calls later : List MadeCall} :
    SomeFailed (calls ++ later) ↔ SomeFailed calls ∨ SomeFailed later := by
  simp only [SomeFailed, List.mem_append, or_and_right, exists_or]

section Loop

variable {path : List Char} {location : Location} {tree : Tree}

/-- What is known during the loop over the entries of a directory. -/
structure Reading (system : FileSystemCalls) (path : List Char) (location : Location) (tree : Tree) (bound k : ℕ)
    (disk : Disk) : Prop where
  descends : Descends tree system.cwd
  located : system.locate tree true path = .ok location
  directory : isDirectory tree location = true
  bounded : ∀ entry ∈ tree.entries, entry.1.length ≤ bound
  measured : bound - location.length ≤ k
  within : Within disk.tree tree

variable {bound k : ℕ} {disk : Disk}

/-- The path of an entry leads to the entry, if it still leads anywhere. -/
theorem Reading.child (reading : Reading system path location tree bound k disk) {name : Name} (isName : IsName name)
    {child : Location} (located : system.locate disk.tree false (path ++ '/' :: name) = .ok child) :
    child = location ++ [name] ∧ disk.tree.lookup child ≠ none := by
  have descends := reading.descends.within reading.within
  rcases locate_within reading.within true path with same | gone
  · have directory : isDirectory disk.tree location = true := by
      rw [isDirectory_iff]
      rcases reading.within.lookup_eq location with same | gone
      · rw [same]
        exact isDirectory_iff.mp reading.directory
      · exact .inl gone
    rw [locate_child_of_directory descends isName (same.trans reading.located) directory] at located
    split at located
    · cases located
    · next found =>
      cases located
      exact ⟨rfl, found⟩
  · have nonempty := (locate_eq_ok.mp reading.located).1
    rw [locate_child descends nonempty isName, gone] at located
    cases located

theorem Reading.later (reading : Reading system path location tree bound k disk) {after : Disk}
    (within : Within after.tree disk.tree) : Reading system path location tree bound k after :=
  { reading with within := within.trans reading.within }

variable (system) in
/-- The deletion of a path to an entry that is not far from the deepest one. -/
def Deletes (bound k : ℕ) : Prop :=
  ∀ path disk, Descends disk.tree system.cwd → path.getLast? ≠ some '/' →
    (∀ entry ∈ disk.tree.entries, entry.1.length ≤ bound) →
    (∀ location, system.locate disk.tree false path = .ok location → bound - location.length ≤ k) →
    ∃ unlinked after calls, (∀ depth, k < depth → system.RecursiveUnlinkDir depth path disk = some (unlinked, after)) ∧
      Unlinked system path disk after unlinked calls

theorem child_getLast? {name : Name} (isName : IsName name) : (path ++ '/' :: name).getLast? ≠ some '/' := by
  obtain ⟨notEmpty, -, -, clear⟩ := isName
  rcases List.eq_nil_or_concat' name with rfl | ⟨front, last, rfl⟩
  · exact absurd rfl notEmpty
  · rw [← List.cons_append, ← List.append_assoc, List.getLast?_concat]
    rintro same
    cases same
    simp at clear

/-- A name that `readdir_r` returned goes on the loop, or ends it. -/
theorem Reading.entry (reading : Reading system path location tree bound k disk)
    (deletes : ∀ j < k, Deletes system bound j) {name : Name} (member : name ∈ tree.names location) :
    ∃ unlinked after calls,
      (∀ depth, k ≤ depth → system.RecursiveUnlinkDir depth (path ++ '/' :: name) disk = some (unlinked, after)) ∧
      Emptied location disk after unlinked calls := by
  have isName := Tree.isName_of_mem_names member
  obtain ⟨node, inside⟩ := Tree.mem_names.mp member
  have deep := reading.bounded _ inside
  have measured := reading.measured
  have bounded : ∀ entry ∈ disk.tree.entries, entry.1.length ≤ bound :=
    fun entry left => reading.bounded entry (reading.within.subset left)
  rw [List.length_append, List.length_singleton] at deep
  obtain ⟨unlinked, after, calls, runs, done⟩ := deletes (k - 1) (by omega) (path ++ '/' :: name) disk
    (reading.descends.within reading.within) (child_getLast? isName) bounded (by
      intro child located
      rw [(reading.child isName located).1, List.length_append, List.length_singleton]
      omega)
  refine ⟨unlinked, after, calls, fun depth enough => runs depth (by omega), done.log, done.within, ?_, done.reports,
    done.blamed⟩
  intro entry there removed
  obtain ⟨child, located, below⟩ := done.inside entry there removed
  rw [(reading.child isName located).1] at below
  exact (List.prefix_append _ _).trans below

/-- The loop goes on after an entry that was deleted. -/
theorem Emptied.append {after last : Disk} {unlinked : Bool} {calls later : List MadeCall}
    (first : Emptied location disk after true calls) (rest : Emptied location after last unlinked later) :
    Emptied location disk last unlinked (calls ++ later) := by
  refine ⟨?_, rest.within.trans first.within, ?_, ?_, ?_⟩
  · rw [rest.log, first.log, List.append_assoc]
  · intro entry there removed
    by_cases kept : entry ∈ after.tree.entries
    · exact rest.inside entry kept removed
    · exact first.inside entry there kept
  · intro failed
    rcases someFailed_append.mp failed with failed | failed
    · cases first.reports failed
    · exact rest.reports failed
  · intro stopped none
    exact rest.blamed stopped (noneFailed_append.mp none).2

/-- A call of `readdir_r` comes before what follows. -/
theorem Emptied.read {after : Disk} {unlinked : Bool} {calls : List MadeCall}
    (rest : Emptied location (disk.made .readdir_r path none disk.tree) after unlinked calls) :
    Emptied location disk after unlinked (⟨.readdir_r, path, none⟩ :: calls) := by
  refine ⟨?_, rest.within, rest.inside, ?_, ?_⟩
  · rw [rest.log, Disk.made, List.append_assoc, List.singleton_append]
  · intro failed
    rcases someFailed_cons.mp failed with ⟨errno, -, wrong⟩ | failed
    · cases wrong
    · exact rest.reports failed
  · exact fun stopped none => rest.blamed stopped (noneFailed_cons.mp none).2

variable (path) in
/-- The loop ends when `readdir_r` fails. -/
theorem Emptied.unread (errno : Errno) :
    Emptied location disk (disk.made .readdir_r path (some errno) disk.tree) false
      [⟨.readdir_r, path, some errno⟩] := by
  have failed : ¬ NoneFailed [⟨.readdir_r, path, some errno⟩] := fun none =>
    nomatch (noneFailed_cons.mp none).1
  exact ⟨rfl, .refl _, fun _ there removed => absurd there removed, fun _ => rfl, fun _ => failed⟩

theorem Emptied.nothing : Emptied location disk disk true [] := by
  refine ⟨(List.append_nil _).symm, .refl _, fun _ there removed => absurd there removed, ?_, nofun⟩
  rintro ⟨call, absurd, -⟩
  cases absurd

/-- The loop over what is still to be read of a directory. -/
theorem unlinkEntries_emptied (deletes : ∀ j < k, Deletes system bound j) (names : List Name)
    (known : ∀ name ∈ names, name = ['.'] ∨ name = ['.', '.'] ∨ name ∈ tree.names location)
    (reading : Reading system path location tree bound k disk) :
    ∃ unlinked after calls,
      (∀ depth, k ≤ depth → system.unlinkEntries (system.RecursiveUnlinkDir depth) path names disk =
        some (unlinked, after)) ∧
      Emptied location disk after unlinked calls := by
  induction names generalizing disk with
  | nil =>
    cases answered : system.answer disk (.ok ()) with
    | error errno =>
      refine ⟨_, _, _, fun depth _ => ?_, .unread path errno⟩
      rw [unlinkEntries, answered]
      rfl
    | ok =>
      refine ⟨true, disk.made .readdir_r path none disk.tree, _, fun depth _ => ?_, .read .nothing⟩
      rw [unlinkEntries, answered]
      rfl
  | cons name names ih =>
    obtain ⟨knownFirst, knownRest⟩ := List.forall_mem_cons.mp known
    cases answered : system.answer disk (.ok ()) with
    | error errno =>
      refine ⟨_, _, _, fun depth _ => ?_, .unread path errno⟩
      rw [unlinkEntries, answered]
      rfl
    | ok =>
      have reading : Reading system path location tree bound k (disk.made .readdir_r path none disk.tree) :=
        reading.later (.refl _)
      by_cases dots : name = ['.'] ∨ name = ['.', '.']
      · obtain ⟨unlinked, after, calls, runs, rest⟩ := ih knownRest reading
        refine ⟨unlinked, after, _, fun depth enough => ?_, .read rest⟩
        simp only [unlinkEntries, answered, errnoOfReply, if_pos dots, runs depth enough]
      · have member : name ∈ tree.names location := (or_assoc.mpr knownFirst).resolve_left dots
        obtain ⟨unlinked, after, calls, runs, first⟩ := reading.entry deletes member
        cases unlinked with
        | false =>
          refine ⟨false, after, _, fun depth enough => ?_, .read first⟩
          simp only [unlinkEntries, answered, errnoOfReply, if_neg dots, runs depth enough, Option.bind_some,
            if_neg Bool.false_ne_true]
        | true =>
          obtain ⟨unlinked, last, later, goes, rest⟩ := ih knownRest (reading.later first.within)
          refine ⟨unlinked, last, _, fun depth enough => ?_, .read (first.append rest)⟩
          simp only [unlinkEntries, answered, errnoOfReply, if_neg dots, runs depth enough, Option.bind_some,
            if_true, goes depth enough]

end Loop

section Deletion

variable {path : List Char} {location : Location} {disk : Disk}

theorem locate_of_removed (descends : Descends disk.tree system.cwd) (noSlash : path.getLast? ≠ some '/')
    (noDots : lastComponent path ≠ ['.'] ∧ lastComponent path ≠ ['.', '.']) (below : location ≠ [])
    (childless : disk.tree.names location = []) (located : system.locate disk.tree false path = .ok location) :
    system.locate (disk.tree.remove location) false path = .error .ENOENT := by
  have within : Within (disk.tree.remove location) disk.tree := Tree.remove_within location
  rcases @locate_within system _ _ within false path with same | gone
  · exact absurd (Tree.lookup_remove below childless)
      (located_exists (descends.within within) noSlash noDots (same.trans located))
  · exact gone

theorem not_someFailed_single {call : FileCall} : ¬ SomeFailed [⟨call, path, none⟩] := by
  rintro ⟨made, member, errno, -, failed⟩
  rw [List.mem_singleton.mp member] at failed
  cases failed

theorem someFailed_single {call : FileCall} {errno : Errno} (failed : SomeFailed [⟨call, path, some errno⟩]) :
    errno ≠ .ENOENT := by
  obtain ⟨made, member, other, known, same⟩ := failed
  rw [List.mem_singleton.mp member] at same
  cases same
  exact known

theorem not_noneFailed_single {call : FileCall} {errno : Errno} : ¬ NoneFailed [⟨call, path, some errno⟩] :=
  fun none => nomatch none _ (List.mem_singleton.mpr rfl)

/-- The deletion of something whose status is unknown. -/
theorem unlinked_of_lstat {errno : Errno}
    (answered : system.answer disk ((system.locate disk.tree false path).map (isDirectory disk.tree)) = .error errno) :
    Unlinked system path disk (disk.made .lstat path (some errno) disk.tree) (decide (errno = .ENOENT))
      [⟨.lstat, path, some errno⟩] := by
  refine ⟨rfl, .refl _, fun _ there removed => absurd there removed, ?_, fun none => ?_, fun failed => ?_, ?_⟩
  · intro missing
    rw [of_decide_eq_true missing] at answered
    have replied := of_answer_ENOENT answered
    change system.locate disk.tree false path = _
    cases located : system.locate disk.tree false path with
    | ok location =>
      rw [located] at replied
      cases replied
    | error other =>
      rw [located] at replied
      cases replied
      rfl
  · exact absurd none not_noneFailed_single
  · exact decide_eq_false (someFailed_single failed)
  · exact fun _ => not_noneFailed_single

/-- A first call that succeeded comes before what follows. -/
theorem Unlinked.after {call : FileCall} {last : Disk} {unlinked : Bool} {calls : List MadeCall}
    (rest : Unlinked system path (disk.made call path none disk.tree) last unlinked calls) :
    Unlinked system path disk last unlinked (⟨call, path, none⟩ :: calls) := by
  refine ⟨?_, rest.within, rest.inside, rest.gone, fun none => rest.clean (noneFailed_cons.mp none).2, ?_, ?_⟩
  · rw [rest.log, Disk.made, List.append_assoc, List.singleton_append]
  · intro failed
    rcases someFailed_cons.mp failed with ⟨errno, -, wrong⟩ | failed
    · cases wrong
    · exact rest.reports failed
  · exact fun stopped none => rest.blamed stopped (noneFailed_cons.mp none).2

/-- A call that removes the entry of a path removed it. -/
theorem unlinked_of_removed {call : FileCall} (descends : Descends disk.tree system.cwd)
    (noSlash : path.getLast? ≠ some '/')
    (noDots : lastComponent path ≠ ['.'] ∧ lastComponent path ≠ ['.', '.']) (below : location ≠ [])
    (childless : disk.tree.names location = []) (located : system.locate disk.tree false path = .ok location) :
    Unlinked system path disk (disk.made call path none (disk.tree.remove location)) true [⟨call, path, none⟩] := by
  refine ⟨rfl, Tree.remove_within location, ?_, ?_, ?_, ?_, nofun⟩
  · intro entry there removed
    refine ⟨location, located, ?_⟩
    by_contra kept
    apply removed
    refine (Tree.mem_remove childless).mpr ⟨there, ?_⟩
    rintro same
    exact kept (same ▸ List.prefix_rfl)
  · exact fun _ => locate_of_removed descends noSlash noDots below childless located
  · exact fun _ => ⟨location, located, fun entry left => Tree.not_isPrefix_of_mem_remove childless left⟩
  · exact fun failed => absurd failed not_someFailed_single

/-- A call that was to remove the entry of a path failed. -/
theorem unlinked_of_failed {call : FileCall} {errno : Errno}
    (missing : errno = .ENOENT → system.locate disk.tree false path = .error .ENOENT) :
    Unlinked system path disk (disk.made call path (some errno) disk.tree) (decide (errno = .ENOENT))
      [⟨call, path, some errno⟩] := by
  refine ⟨rfl, .refl _, fun _ there removed => absurd there removed, ?_, fun none => ?_, fun failed => ?_, ?_⟩
  · exact fun gone => missing (of_decide_eq_true gone)
  · exact absurd none not_noneFailed_single
  · exact decide_eq_false (someFailed_single failed)
  · exact fun _ => not_noneFailed_single

variable (path disk) in
theorem unlinked_of_stopped (call : FileCall) (errno : Errno) :
    Unlinked system path disk (disk.made call path (some errno) disk.tree) false [⟨call, path, some errno⟩] :=
  ⟨rfl, .refl _, fun _ there removed => absurd there removed, nofun, fun none => absurd none not_noneFailed_single,
    fun _ => rfl, fun _ => not_noneFailed_single⟩

variable (system) in
theorem unlink_unlinked (disk : Disk) (descends : Descends disk.tree system.cwd) (noSlash : path.getLast? ≠ some '/') :
    ∃ calls, Unlinked system path disk (system.unlink disk path).2
      (succeededOrMissing (system.unlink disk path).1) calls := by
  rw [unlink]
  rcases removal_cases system disk ((system.locate disk.tree false path).bind fun location =>
    if lastComponent path = ['.'] ∨ lastComponent path = ['.', '.'] then .error (.other 21)
    else if isDirectory disk.tree location then .error (.other 21)
    else .ok location) with ⟨location, replied, removed⟩ | ⟨errno, failed, missing⟩
  · rw [removed]
    cases located : system.locate disk.tree false path with
    | error errno =>
      rw [located] at replied
      cases replied
    | ok found =>
      rw [located, Except.bind] at replied
      split at replied
      · cases replied
      next noDots =>
      split at replied
      · cases replied
      next noDirectory =>
      cases replied
      rw [isDirectory_iff, not_or] at noDirectory
      refine ⟨_, unlinked_of_removed descends noSlash (not_or.mp noDots) ?_ (Tree.names_eq_nil noDirectory.2) located⟩
      rintro rfl
      exact noDirectory.2 rfl
  · rw [failed]
    refine ⟨_, unlinked_of_failed fun gone => ?_⟩
    have replied := missing gone
    cases located : system.locate disk.tree false path with
    | error errno =>
      rw [located] at replied
      cases replied
      rfl
    | ok found =>
      rw [located, Except.bind] at replied
      split_ifs at replied
      all_goals cases replied

variable (system) in
theorem rmdir_unlinked (disk : Disk) (descends : Descends disk.tree system.cwd) (noSlash : path.getLast? ≠ some '/') :
    ∃ calls, Unlinked system path disk (system.rmdir disk path).2
      (succeededOrMissing (system.rmdir disk path).1) calls := by
  rw [rmdir]
  rcases removal_cases system disk ((system.locate disk.tree false path).bind fun location =>
    if lastComponent path = ['.'] then .error (.other 22)
    else if lastComponent path = ['.', '.'] then .error (.other 39)
    else if location = [] then .error (.other 16)
    else if isDirectory disk.tree location then
      if disk.tree.names location = [] then .ok location else .error (.other 39)
    else .error .ENOTDIR) with ⟨location, replied, removed⟩ | ⟨errno, failed, missing⟩
  · rw [removed]
    cases located : system.locate disk.tree false path with
    | error errno =>
      rw [located] at replied
      cases replied
    | ok found =>
      rw [located, Except.bind] at replied
      split_ifs at replied with noDot noDots root directory childless
      all_goals try cases replied
      exact ⟨_, unlinked_of_removed descends noSlash ⟨noDot, noDots⟩ root childless located⟩
  · rw [failed]
    refine ⟨_, unlinked_of_failed fun gone => ?_⟩
    have replied := missing gone
    cases located : system.locate disk.tree false path with
    | error errno =>
      rw [located] at replied
      cases replied
      rfl
    | ok found =>
      rw [located, Except.bind] at replied
      split_ifs at replied
      all_goals cases replied

/-- The entries of a directory are gone, and then the directory is or is not. -/
theorem Emptied.unlinked {after last : Disk} {unlinked : Bool} {calls later : List MadeCall}
    (located : system.locate disk.tree false path = .ok location) (emptied : Emptied location disk after true calls)
    (rest : Unlinked system path after last unlinked later) :
    Unlinked system path disk last unlinked (calls ++ later) := by
  have back {found : Location} (again : system.locate after.tree false path = .ok found) : found = location := by
    rcases @locate_within system _ _ emptied.within false path with same | gone
    · rw [same, located] at again
      exact (Except.ok.inj again).symm
    · rw [gone] at again
      cases again
  refine ⟨?_, rest.within.trans emptied.within, ?_, rest.gone, ?_, ?_, ?_⟩
  · rw [rest.log, emptied.log, List.append_assoc]
  · intro entry there removed
    refine ⟨location, located, ?_⟩
    by_cases kept : entry ∈ after.tree.entries
    · obtain ⟨found, again, below⟩ := rest.inside entry kept removed
      rwa [back again] at below
    · exact emptied.inside entry there kept
  · intro none
    obtain ⟨found, again, empty⟩ := rest.clean (noneFailed_append.mp none).2
    rw [back again] at empty
    exact ⟨location, located, empty⟩
  · intro failed
    rcases someFailed_append.mp failed with failed | failed
    · cases emptied.reports failed
    · exact rest.reports failed
  · exact fun stopped none => rest.blamed stopped (noneFailed_append.mp none).2

/-- The loop over the entries of a directory failed. -/
theorem Emptied.failed {after : Disk} {calls : List MadeCall}
    (located : system.locate disk.tree false path = .ok location) (emptied : Emptied location disk after false calls) :
    Unlinked system path disk after false calls := by
  refine ⟨emptied.log, emptied.within, ?_, nofun, ?_, fun _ => rfl, emptied.blamed⟩
  · exact fun entry there removed => ⟨location, located, emptied.inside entry there removed⟩
  · exact fun none => absurd none (emptied.blamed rfl)

/-- The deletion of a directory, given that of what is further down. -/
theorem unlinkDirectory_unlinked {bound k : ℕ} (deletes : ∀ j < k, Deletes system bound j)
    (descends : Descends disk.tree system.cwd) (noSlash : path.getLast? ≠ some '/')
    (bounded : ∀ entry ∈ disk.tree.entries, entry.1.length ≤ bound) (measured : bound - location.length ≤ k)
    (located : system.locate disk.tree false path = .ok location) (directory : isDirectory disk.tree location = true) :
    ∃ unlinked after calls,
      (∀ depth, k ≤ depth →
        system.unlinkDirectory (system.RecursiveUnlinkDir depth) path disk = some (unlinked, after)) ∧
      Unlinked system path disk after unlinked calls := by
  have followed : system.locate disk.tree true path = .ok location := by
    apply locate_followed _ located
    intro target found
    rw [isDirectory_iff, found] at directory
    rcases directory with wrong | wrong <;> cases wrong
  have replied : (system.locate disk.tree true path).bind (fun location =>
      if isDirectory disk.tree location then
        .ok (system.listing disk.log.length (disk.tree.names location))
      else .error .ENOTDIR) = .ok (system.listing disk.log.length (disk.tree.names location)) := by
    rw [followed, Except.bind, if_pos directory]
  cases opened : system.answer disk ((system.locate disk.tree true path).bind fun location =>
      if isDirectory disk.tree location then
        .ok (system.listing disk.log.length (disk.tree.names location))
      else .error .ENOTDIR) with
  | error errno =>
    refine ⟨false, _, _, fun depth _ => ?_, unlinked_of_stopped path disk .opendir errno⟩
    simp only [unlinkDirectory, opendir, opened, errnoOfReply]
  | ok names =>
    obtain rfl := Except.ok.inj (replied.symm.trans (of_answer_ok opened))
    have reading : Reading system path location disk.tree bound k (disk.made .opendir path none disk.tree) :=
      ⟨descends, followed, directory, bounded, measured, .refl _⟩
    obtain ⟨unlinked, after, calls, runs, emptied⟩ := unlinkEntries_emptied deletes
      (system.listing disk.log.length (disk.tree.names location)) (system.sound _ _) reading
    cases unlinked with
    | false =>
      refine ⟨false, after, _, fun depth enough => ?_, .after (emptied.failed located)⟩
      simp only [unlinkDirectory, opendir, opened, errnoOfReply, runs depth enough, Option.bind_some,
        if_neg Bool.false_ne_true]
    | true =>
      obtain ⟨later, done⟩ := rmdir_unlinked system after (descends.within emptied.within) noSlash
      refine ⟨_, _, _, fun depth enough => ?_, .after (emptied.unlinked located done)⟩
      simp only [unlinkDirectory, opendir, opened, errnoOfReply, runs depth enough, Option.bind_some, if_true]

/-- The induction is on how far the deepest entry is below the path. -/
theorem deletes (bound k : ℕ) : Deletes system bound k := by
  induction k using Nat.strongRec with
  | ind k ih =>
    intro path disk descends noSlash bounded measured
    cases status : system.answer disk ((system.locate disk.tree false path).map (isDirectory disk.tree)) with
    | error errno =>
      refine ⟨_, _, _, fun depth enough => ?_, unlinked_of_lstat status⟩
      obtain ⟨depth, rfl⟩ := Nat.exists_eq_succ_of_ne_zero (Nat.ne_of_gt (Nat.zero_lt_of_lt enough))
      simp only [RecursiveUnlinkDir, lstat, status, errnoOfReply]
    | ok directory =>
      obtain ⟨location, located, found⟩ : ∃ location, system.locate disk.tree false path = .ok location ∧
          isDirectory disk.tree location = directory := by
        have replied := of_answer_ok status
        cases located : system.locate disk.tree false path with
        | error errno =>
          rw [located] at replied
          cases replied
        | ok location =>
          rw [located] at replied
          exact ⟨location, rfl, Except.ok.inj replied⟩
      cases directory with
      | false =>
        obtain ⟨calls, done⟩ := unlink_unlinked system (disk.made .lstat path none disk.tree) descends noSlash
        refine ⟨_, _, _, fun depth enough => ?_, done.after⟩
        obtain ⟨depth, rfl⟩ := Nat.exists_eq_succ_of_ne_zero (Nat.ne_of_gt (Nat.zero_lt_of_lt enough))
        simp only [RecursiveUnlinkDir, lstat, status, errnoOfReply]
      | true =>
        have descends : Descends (disk.made .lstat path none disk.tree).tree system.cwd := descends
        obtain ⟨unlinked, after, calls, runs, done⟩ :=
          unlinkDirectory_unlinked ih descends noSlash bounded (measured location located) located found
        refine ⟨unlinked, after, _, fun depth enough => ?_, done.after⟩
        obtain ⟨depth, rfl⟩ := Nat.exists_eq_succ_of_ne_zero (Nat.ne_of_gt (Nat.zero_lt_of_lt enough))
        simp only [RecursiveUnlinkDir, lstat, status, errnoOfReply]
        exact runs depth (Nat.le_of_lt_succ enough)

/-- The deletion of a path ends, and removes nothing but the subtree. -/
theorem RecursiveUnlinkDir_unlinks (system : FileSystemCalls) (disk : Disk) (descends : Descends disk.tree system.cwd)
    (noSlash : path.getLast? ≠ some '/') :
    ∃ unlinked after calls,
      (∃ enough, ∀ depth, enough < depth → system.RecursiveUnlinkDir depth path disk = some (unlinked, after)) ∧
      Unlinked system path disk after unlinked calls := by
  have bounded : ∀ entry ∈ disk.tree.entries, entry.1.length ≤ (disk.tree.entries.map fun entry => entry.1.length).sum :=
    fun entry member => List.le_sum_of_mem (List.mem_map_of_mem member)
  obtain ⟨unlinked, after, calls, runs, done⟩ := deletes _ _ path disk descends noSlash bounded
    (fun location _ => Nat.sub_le _ location.length)
  exact ⟨unlinked, after, calls, ⟨_, runs⟩, done⟩

/-- Calls that never fail, with directories read in the order of the tree. -/
def plainCalls : FileSystemCalls where
  cwd := []
  maxLinks := 40
  listing _ names := names
  complete _ _ _ member := member
  sound _ _ _ member := .inr (.inr member)
  fault _ := none
  known _ := nofun

/-- A directory with a link to the root in it. -/
def loopedTree : Tree where
  entries := [(["d".toList], .directory), (["d".toList, "l".toList], .symlink "/".toList)]
  distinct := by decide
  rooted := by
    rw [List.forall_mem_cons, List.forall_mem_singleton]
    exact ⟨⟨[], "d".toList, rfl, by decide, .inl rfl⟩, ⟨["d".toList], "l".toList, rfl, by decide, .inr (by decide)⟩⟩

theorem RecursiveUnlinkDir_unlinks_looped : ∃ unlinked after calls,
    (∃ enough, ∀ depth, enough < depth →
      plainCalls.RecursiveUnlinkDir depth "/d".toList ⟨loopedTree, []⟩ = some (unlinked, after)) ∧
    Unlinked plainCalls "/d".toList ⟨loopedTree, []⟩ after unlinked calls :=
  RecursiveUnlinkDir_unlinks plainCalls ⟨loopedTree, []⟩ descends_root (by decide)

example : (plainCalls.RecursiveUnlinkDir 3 "/d".toList ⟨loopedTree, []⟩).map
    (fun result => (result.1, result.2.tree.entries)) = some (true, []) := by
  decide +kernel

end Deletion

end ChromiumOS.UpdateEngine.FileSystemCalls
