import ChromiumOS.Proofs.UpdateEngine.FilesystemErrors

/-! # The order in which the file system iterator visits a tree

The tree is listed with each directory before what is in it. The open directories say which part of the list is
still to come, and an increment goes to the first path in it that is not excluded.
-/

namespace ChromiumOS.UpdateEngine

/-- The names that stand for files of their own. -/
def IsEntry (name : String) : Prop := name ≠ "." ∧ name ≠ ".."

instance (name : String) : Decidable (IsEntry name) := inferInstanceAs (Decidable (_ ∧ _))

/-- A tree whose directories name no file twice, with names that are none of several directories. -/
structure DirectoryTree extends SourceTree where
  distinct : ∀ path, (file path).entries.Nodup
  separated : ∀ path, ∀ name ∈ (file path).entries, '/' ∉ name.toList

namespace SourceTree

variable (tree : SourceTree)

instance (path : Path) : Decidable (tree.Descends path) := inferInstanceAs (Decidable (_ ∧ _))

/-- A path and all that is below it, as far as so many levels. -/
def listWithin : ℕ → Path → List Path
  | 0, path => [path]
  | levels + 1, path =>
    path :: if tree.Descends path then
      ((tree.file path).entries.filter IsEntry).flatMap fun name => listWithin levels (path ++ [name])
    else []

/-- A path and all that is below it. -/
def listing (path : Path) : List Path := tree.listWithin (tree.depth - path.length) path

/-- All that is below some names in a directory. -/
def inside (names : List String) (path : Path) : List Path :=
  (names.filter IsEntry).flatMap fun name => tree.listing (path ++ [name])

theorem listing_eq (path : Path) : tree.listing path =
    path :: if tree.Descends path then tree.inside (tree.file path).entries path else [] := by
  rw [listing]
  cases left : tree.depth - path.length with
  | zero => simp [listWithin, inside, tree.bounded path (by omega)]
  | succ levels =>
    have child (name : String) : tree.listing (path ++ [name]) = tree.listWithin levels (path ++ [name]) := by
      rw [listing, List.length_append, List.length_singleton]
      congr 1
      omega
    simp only [listWithin, inside, child]

variable {tree}

/-- What is listed below a path extends it. -/
theorem listWithin_extends {levels : ℕ} {path target : Path} (listed : target ∈ tree.listWithin levels path) :
    path <+: target := by
  induction levels generalizing path with
  | zero =>
    rw [List.mem_singleton.mp listed]
  | succ levels ih =>
    rw [listWithin] at listed
    rcases List.mem_cons.mp listed with rfl | below
    · exact List.prefix_rfl
    · split at below
      · obtain ⟨name, -, listed⟩ := List.mem_flatMap.mp below
        exact (List.prefix_append _ _).trans (ih listed)
      · cases below

/-- No path is listed after one that extends it. -/
theorem listWithin_ordered (distinct : ∀ path, (tree.file path).entries.Nodup) (levels : ℕ) (path : Path) :
    (tree.listWithin levels path).Pairwise fun earlier later => ¬ later <+: earlier := by
  induction levels generalizing path with
  | zero => exact List.pairwise_singleton _ _
  | succ levels ih =>
    rw [listWithin, List.pairwise_cons]
    constructor
    · intro target below before
      split at below
      · obtain ⟨name, -, listed⟩ := List.mem_flatMap.mp below
        have longer := ((listWithin_extends listed).trans before).length_le
        rw [List.length_append, List.length_singleton] at longer
        omega
      · cases below
    · split
      · rw [List.pairwise_flatMap]
        refine ⟨fun name _ => ih (path ++ [name]), ?_⟩
        apply ((distinct path).filter _).imp
        intro first second different earlier listed later listed' before
        have inside := (listWithin_extends listed').trans before
        have same := (List.prefix_of_prefix_length_le (listWithin_extends listed) inside (by simp)).eq_of_length
          (by simp)
        simp only [List.append_cancel_left_eq, List.cons.injEq, and_true] at same
        exact different same
      · exact List.Pairwise.nil

/-- What is listed is what is below. -/
theorem mem_listing {path target : Path} : target ∈ tree.listing path ↔ tree.Below path target := by
  constructor
  · rw [listing]
    generalize tree.depth - path.length = levels
    intro listed
    induction levels generalizing path with
    | zero =>
      rw [List.mem_singleton.mp listed]
      exact .here path
    | succ levels ih =>
      rw [listWithin] at listed
      rcases List.mem_cons.mp listed with rfl | below
      · exact .here target
      · split at below
        · next descends =>
          obtain ⟨name, named, listed⟩ := List.mem_flatMap.mp below
          obtain ⟨member, entry⟩ := List.mem_filter.mp named
          have isEntry : IsEntry name := by simpa using entry
          exact .inside descends member isEntry.1 isEntry.2 (ih listed)
        · cases below
  · intro below
    induction below with
    | here path =>
      rw [listing_eq]
      exact List.mem_cons_self
    | @inside path target name descends member notSelf notParent below ih =>
      rw [listing_eq, if_pos descends]
      apply List.mem_cons_of_mem
      exact List.mem_flatMap.mpr ⟨name, List.mem_filter.mpr ⟨member, by simp [IsEntry, notSelf, notParent]⟩, ih⟩

end SourceTree

namespace FilesystemIterator

variable (tree : SourceTree)

/-- What the open directories still have to yield, in order; the innermost one is given. -/
def remaining : List (List String) → Path → List Path
  | [], _ => []
  | names :: outer, path => tree.inside names path ++ remaining outer path.dropLast

/-- What comes after the current path, in order. -/
def pending (iter : FilesystemIterator) : List Path :=
  (if tree.Descends iter.names_ then tree.inside (tree.file iter.names_).entries iter.names_ else []) ++
    remaining tree iter.dirs_ iter.names_.dropLast

/-- The paths that are not excluded. -/
def visible (excl_prefixes_ : List String) (paths : List Path) : List Path :=
  paths.filter fun path => !isExcluded excl_prefixes_ path

variable {tree} {environment : Environment} {excl_prefixes_ : List String}

theorem inside_cons {name : String} (more : List String) (path : Path) (entry : IsEntry name) :
    tree.inside (name :: more) path = tree.listing (path ++ [name]) ++ tree.inside more path := by
  rw [SourceTree.inside, List.filter_cons_of_pos (by simpa using entry), List.flatMap_cons]
  rfl

theorem inside_skip {name : String} (more : List String) (path : Path) (skip : ¬ IsEntry name) :
    tree.inside (name :: more) path = tree.inside more path := by
  rw [SourceTree.inside, List.filter_cons_of_neg (by simpa using skip)]
  rfl

/-- How the search through a directory ends, when no call fails: at its first entry, or its end. -/
inductive Listed (tree : SourceTree) (names : List String) (iter : FilesystemIterator) :
    ScanStatus → FilesystemIterator → Prop
  | found (more : List String) (name : String) :
      tree.inside names iter.names_ = tree.listing (iter.names_ ++ [name]) ++ tree.inside more iter.names_ →
      Listed tree names iter .found
        { iter with
          dirs_ := more :: iter.dirs_.tail
          names_ := iter.names_ ++ [name]
          stbuf_ := (tree.file (iter.names_ ++ [name])).stat }
  | exhausted (dirs_ : List (List String)) (stbuf_ : Stat) : tree.inside names iter.names_ = [] →
      Listed tree names iter .exhausted { iter with dirs_, stbuf_ }
  | failed {next : FilesystemIterator} : next.is_err_ = true → Listed tree names iter .failed next

theorem Listed.cons {names more : List String} {name : String} {stbuf_ : Stat}
    {iter next : FilesystemIterator} {status : ScanStatus} (skip : ¬ IsEntry name)
    (listed : Listed tree more { iter with dirs_ := names :: iter.dirs_.tail, stbuf_ } status next) :
    Listed tree (name :: more) iter status next := by
  cases listed with
  | found later other same => exact .found later other ((inside_skip more iter.names_ skip).trans same)
  | exhausted dirs_ stbuf_ nothing => exact .exhausted dirs_ stbuf_ ((inside_skip more iter.names_ skip).trans nothing)
  | failed isErr => exact .failed isErr

theorem scan_listed {names : List String} {iter next : FilesystemIterator} {machine after : Machine}
    {status : ScanStatus} (scanned : scan tree environment names iter machine = (status, next, after)) :
    Listed tree names iter status next := by
  induction names generalizing iter machine with
  | nil =>
    simp only [scan, Machine.issue] at scanned
    split at scanned
    · cases scanned
      exact .failed rfl
    · cases scanned
      exact .exhausted _ _ rfl
  | cons name more ih =>
    simp only [scan, Machine.issue] at scanned
    split at scanned
    · cases scanned
      exact .failed rfl
    · split at scanned
      · cases scanned
        exact .failed rfl
      · split at scanned
        · next entry =>
          cases scanned
          exact .found more name (inside_cons more iter.names_ entry)
        · next skip =>
          rw [List.dropLast_concat] at scanned
          exact .cons skip (ih scanned)

/-- Where the search through the open directories comes to, when no call fails. -/
inductive Reached (tree : SourceTree) (dirs : List (List String)) (iter next : FilesystemIterator) : Prop
  | path : next.Ready tree → iter.is_err_ = false → remaining tree dirs iter.names_ = next.names_ :: pending tree next →
      Reached tree dirs iter next
  | nowhere : next.names_ = [] → next.is_end_ = true → iter.is_err_ = false →
      remaining tree dirs iter.names_ = [] → Reached tree dirs iter next

theorem climb_reached {dirs : List (List String)} {iter next : FilesystemIterator} {machine after : Machine}
    (same : iter.dirs_ = dirs) (length : dirs.length = iter.names_.length + 1) (ends : iter.is_end_ = iter.is_err_)
    (climbed : climb tree environment dirs iter machine = some (next, after)) (clean : next.is_err_ = false) :
    Reached tree dirs iter next := by
  induction dirs generalizing iter machine with
  | nil => cases climbed
  | cons names outer ih =>
    rw [List.length_cons, Nat.add_right_cancel_iff] at length
    generalize scanned : scan tree environment names iter machine = result at climbed
    obtain ⟨status, middle, between⟩ := result
    simp only [climb, scanned] at climbed
    cases scan_listed scanned with
    | found more name whole =>
      cases climbed
      refine .path ⟨?_, ends, fun _ => rfl⟩ clean ?_
      · rw [Aligned, List.length_append, List.length_singleton, ← length, same]
        rfl
      · rw [remaining, whole, SourceTree.listing_eq, pending]
        dsimp only
        rw [same, List.dropLast_concat, List.tail_cons, remaining, List.cons_append, List.cons_append,
          List.append_assoc]
    | exhausted dirs_ stbuf_ nothing =>
      simp only [Machine.issue] at climbed
      split at climbed
      · cases climbed
        cases clean
      · split at climbed
        · next last =>
          split at climbed
          · cases climbed
          · next root =>
            cases climbed
            refine .nowhere (not_not.mp root) rfl clean ?_
            rw [remaining, nothing, last]
            rfl
        · next more =>
          split at climbed
          · cases climbed
          · next deeper =>
            have positive := List.length_pos_iff.mpr deeper
            have inner := @ih { iter with dirs_ := outer, names_ := iter.names_.dropLast, stbuf_ } _ rfl (by
              rw [List.length_dropLast]
              omega) ends climbed
            cases inner with
            | path ready cleanIter whole =>
              refine .path ready cleanIter ?_
              rw [remaining, nothing]
              exact whole
            | nowhere root isEnd cleanIter whole =>
              refine .nowhere root isEnd cleanIter ?_
              rw [remaining, nothing]
              exact whole
    | failed isErr =>
      cases climbed
      rw [isErr] at clean
      cases clean

/-- An error stays, and none comes without a call that fails. -/
def KeepsError (environment : Environment) (iter next : FilesystemIterator) : Prop :=
  next.is_err_ = iter.is_err_ ∨ next.is_err_ = true ∧ ∃ clock call path errno,
    call ∈ [Syscall.lstat, .opendir, .readdir_r, .closedir] ∧ environment.reply clock call path = .failed errno

theorem KeepsError.trans {iter middle next : FilesystemIterator} (first : KeepsError environment iter middle)
    (second : KeepsError environment middle next) : KeepsError environment iter next := by
  rcases second with same | failed
  · rcases first with same' | ⟨isErr, failed⟩
    · exact .inl (same.trans same')
    · exact .inr ⟨same.trans isErr, failed⟩
  · exact .inr failed

theorem climb_keepsError {dirs : List (List String)} {iter next : FilesystemIterator} {machine after : Machine}
    (climbed : climb tree environment dirs iter machine = some (next, after)) : KeepsError environment iter next := by
  cases isErr : iter.is_err_ with
  | false =>
    obtain ⟨-, -, -, ⟨clean, -⟩ | ⟨-, isErr', clock, call, errno, search, failed⟩⟩ :=
      climb_searched dirs iter machine isErr climbed
    · exact .inl (clean.trans isErr.symm)
    · exact .inr ⟨isErr', clock, call, next.names_, errno, by simp at search ⊢; tauto, failed⟩
  | true =>
    left
    rw [isErr]
    induction dirs generalizing iter machine with
    | nil => cases climbed
    | cons names outer ih =>
      obtain ⟨status, middle, between, scanned, -, outcome⟩ := scan_scanned tree environment names iter machine
      simp only [climb, scanned] at climbed
      cases outcome with
      | found skipped split skips =>
        cases climbed
        exact isErr
      | unread dirs_ stbuf_ failed =>
        cases climbed
        rfl
      | unknown stbuf_ skipped split =>
        cases climbed
        rfl
      | exhausted dirs_ stbuf_ skipped =>
        simp only [Machine.issue] at climbed
        split at climbed
        · cases climbed
          rfl
        · split at climbed
          · split at climbed
            · cases climbed
            · cases climbed
              exact isErr
          · split at climbed
            · cases climbed
            · exact @ih { iter with dirs_ := outer, names_ := iter.names_.dropLast, stbuf_ } _ climbed isErr

/-- No directory is taken for one that is not there. -/
def OpensThere (tree : SourceTree) (environment : Environment) : Prop :=
  ∀ clock path, (tree.file path).stat.type = .S_IFDIR →
    environment.reply clock .opendir path ≠ .failed .ENOENT ∧
      environment.reply clock .opendir path ≠ .failed .ENOTDIR

/-- A directory that is taken for missing. -/
def Missing (tree : SourceTree) (environment : Environment) (path : Path) : Prop :=
  (tree.file path).stat.type = .S_IFDIR → ∃ clock errno, (errno = Errno.ENOENT ∨ errno = .ENOTDIR) ∧
    environment.reply clock .opendir path = .failed errno

/-- Where an increment starts to search: in the directory that it opened, or in the one around the path. -/
inductive Enters (tree : SourceTree) (environment : Environment) (iter : FilesystemIterator) :
    FilesystemIterator → Prop
  | opened : iter.descends tree = true →
      Enters tree environment iter { iter with dirs_ := (tree.file iter.names_).entries :: iter.dirs_ }
  | skipped : (iter.descends tree = true → Missing tree environment iter.names_) → iter.names_ ≠ [] →
      Enters tree environment iter { iter with names_ := iter.names_.dropLast }

/-- The ways an increment goes: it comes to a path, from an excluded one it goes on, or there is no search. -/
inductive Goes (tree : SourceTree) (environment : Environment) (excl_prefixes_ : List String) (depth : ℕ)
    (iter next : FilesystemIterator) (machine after : Machine) : Prop
  | here {inner : FilesystemIterator} {before : Machine} : Enters tree environment iter inner →
      before.calls = machine.calls → inner.dirs_.length = inner.names_.length + 1 →
      climb tree environment inner.dirs_ inner before = some (next, after) →
      isExcluded excl_prefixes_ next.names_ = false →
      Goes tree environment excl_prefixes_ depth iter next machine after
  | again {inner middle : FilesystemIterator} {before later : Machine} : Enters tree environment iter inner →
      before.calls = machine.calls → inner.dirs_.length = inner.names_.length + 1 →
      climb tree environment inner.dirs_ inner before = some (middle, later) →
      isExcluded excl_prefixes_ middle.names_ = true →
      middle.Increment tree environment excl_prefixes_ depth later = some (next, after) →
      Goes tree environment excl_prefixes_ depth iter next machine after
  | root : (iter.descends tree = true → Missing tree environment iter.names_) → iter.names_ = [] →
      next = { iter with is_end_ := true } → after.calls = machine.calls →
      Goes tree environment excl_prefixes_ depth iter next machine after
  | refused {clock number : ℕ} : environment.reply clock .opendir iter.names_ = .failed (.other number) →
      next = iter.fail → after.calls = machine.calls →
      Goes tree environment excl_prefixes_ depth iter next machine after

theorem Goes.of_enters {depth : ℕ} {iter inner next : FilesystemIterator} {machine before after : Machine}
    (enters : Enters tree environment iter inner) (unchanged : before.calls = machine.calls)
    (searched : ((inner.IncrementInternal tree environment before).bind fun found =>
      if isExcluded excl_prefixes_ found.1.names_ then
        found.1.Increment tree environment excl_prefixes_ depth found.2
      else some found) = some (next, after)) :
    Goes tree environment excl_prefixes_ depth iter next machine after := by
  obtain ⟨⟨middle, later⟩, climbed, rest⟩ := Option.bind_eq_some_iff.mp searched
  rw [IncrementInternal] at climbed
  split at climbed
  · cases climbed
  · next length =>
    dsimp only at rest
    split at rest
    · next excluded => exact .again enters unchanged (not_not.mp length) climbed excluded rest
    · next shown =>
      cases rest
      exact .here enters unchanged (not_not.mp length) climbed (Bool.eq_false_iff.mpr shown)

theorem Goes.of_skip {depth : ℕ} {iter next : FilesystemIterator} {machine before after : Machine}
    (unchanged : before.calls = machine.calls) (missing : iter.descends tree = true → Missing tree environment iter.names_)
    (searched : (if iter.names_ = [] then some ({ iter with is_end_ := true }, before)
      else (IncrementInternal tree environment { iter with names_ := iter.names_.dropLast } before).bind fun found =>
        if isExcluded excl_prefixes_ found.1.names_ then
          found.1.Increment tree environment excl_prefixes_ depth found.2
        else some found) = some (next, after)) :
    Goes tree environment excl_prefixes_ depth iter next machine after := by
  split at searched
  · next root =>
    cases searched
    exact .root missing root rfl unchanged
  · next deeper => exact .of_enters (.skipped missing deeper) unchanged searched

theorem Increment_goes {depth : ℕ} {iter next : FilesystemIterator} {machine after : Machine}
    (incremented : iter.Increment tree environment excl_prefixes_ (depth + 1) machine = some (next, after)) :
    Goes tree environment excl_prefixes_ depth iter next machine after := by
  simp only [Increment] at incremented
  cases descends : iter.descends tree with
  | false =>
    rw [descends, if_neg Bool.false_ne_true] at incremented
    apply Goes.of_skip rfl _ incremented
    intro descends'
    rw [descends] at descends'
    cases descends'
  | true =>
    rw [descends, if_pos rfl] at incremented
    have missing {before : Machine} {errno : Errno}
        (opened : iter.opendir tree environment machine = (.failed errno, before))
        (known : errno = .ENOENT ∨ errno = .ENOTDIR) : Missing tree environment iter.names_ := by
      intro directory
      rw [opendir, if_pos directory, Machine.issue] at opened
      exact ⟨machine.clock, errno, known, (Prod.mk.inj opened).1⟩
    have unchanged : (iter.opendir tree environment machine).2.calls = machine.calls := by
      rw [opendir]
      split <;> rfl
    generalize opened : iter.opendir tree environment machine = result at incremented unchanged
    obtain ⟨reply, before⟩ := result
    cases reply with
    | ok count => exact .of_enters (.opened descends) unchanged incremented
    | failed errno =>
      cases errno with
      | ENOTDIR => exact .of_skip unchanged (fun _ => missing opened (.inr rfl)) incremented
      | ENOENT => exact .of_skip unchanged (fun _ => missing opened (.inl rfl)) incremented
      | other number =>
        cases incremented
        rw [opendir] at opened
        split at opened
        · rw [Machine.issue] at opened
          exact .refused (Prod.mk.inj opened).1 rfl unchanged
        · cases opened

theorem Enters.is_err_ {iter inner : FilesystemIterator} (enters : Enters tree environment iter inner) :
    inner.is_err_ = iter.is_err_ := by
  cases enters with
  | opened => rfl
  | skipped => rfl

theorem Enters.keepsError {iter inner : FilesystemIterator} (enters : Enters tree environment iter inner) :
    KeepsError environment iter inner := .inl enters.is_err_

theorem Enters.is_end_ {iter inner : FilesystemIterator} (enters : Enters tree environment iter inner) :
    inner.is_end_ = iter.is_end_ := by
  cases enters with
  | opened => rfl
  | skipped => rfl

theorem Increment_keepsError {depth : ℕ} {iter next : FilesystemIterator} {machine after : Machine}
    (incremented : iter.Increment tree environment excl_prefixes_ depth machine = some (next, after)) :
    KeepsError environment iter next := by
  induction depth generalizing iter machine with
  | zero => cases incremented
  | succ depth ih =>
    cases Increment_goes incremented with
    | here enters unchanged length climbed shown => exact enters.keepsError.trans (climb_keepsError climbed)
    | again enters unchanged length climbed excluded later =>
      exact (enters.keepsError.trans (climb_keepsError climbed)).trans (ih later)
    | root missing root same unchanged =>
      subst same
      exact .inl rfl
    | @refused clock number failed same unchanged =>
      subst same
      exact .inr ⟨rfl, clock, .opendir, iter.names_, .other number, by simp, failed⟩

theorem visible_cons {path : Path} (shown : isExcluded excl_prefixes_ path = false) (more : List Path) :
    visible excl_prefixes_ (path :: more) = path :: visible excl_prefixes_ more := by
  rw [visible, List.filter_cons_of_pos (by rw [shown]; rfl)]
  rfl

theorem visible_skip {path : Path} (excluded : isExcluded excl_prefixes_ path = true) (more : List Path) :
    visible excl_prefixes_ (path :: more) = visible excl_prefixes_ more := by
  rw [visible, List.filter_cons_of_neg (by rw [excluded]; simp)]
  rfl

theorem descends_iff {iter : FilesystemIterator} (ready : iter.Ready tree) (clean : iter.is_err_ = false) :
    iter.descends tree = true ↔ tree.Descends iter.names_ := by
  rw [descends, ready.fresh clean, Bool.and_eq_true, beq_iff_eq, beq_iff_eq]
  rfl

/-- No directory is taken for missing. -/
theorem pending_of_missing {iter : FilesystemIterator} (opens : OpensThere tree environment)
    (ready : iter.Ready tree) (clean : iter.is_err_ = false)
    (missing : iter.descends tree = true → Missing tree environment iter.names_) :
    pending tree iter = remaining tree iter.dirs_ iter.names_.dropLast := by
  have stays : ¬ tree.Descends iter.names_ := by
    intro descends
    obtain ⟨clock, errno, known, failed⟩ := missing ((descends_iff ready clean).mpr descends) descends.1
    obtain ⟨notMissing, notOther⟩ := opens clock iter.names_ descends.1
    rcases known with rfl | rfl
    · exact notMissing failed
    · exact notOther failed
  rw [pending, if_neg stays, List.nil_append]

/-- The search starts with what comes after the current path. -/
theorem Enters.remaining {iter inner : FilesystemIterator} (opens : OpensThere tree environment)
    (ready : iter.Ready tree) (clean : iter.is_err_ = false) (enters : Enters tree environment iter inner) :
    remaining tree inner.dirs_ inner.names_ = pending tree iter := by
  cases enters with
  | opened descends =>
    rw [pending, if_pos ((descends_iff ready clean).mp descends)]
    rfl
  | skipped missing deeper => exact (pending_of_missing opens ready clean missing).symm

/-- Where an increment comes to, when no call fails: the next path that is not excluded, or the end. -/
inductive Came (tree : SourceTree) (excl_prefixes_ : List String) (iter next : FilesystemIterator) : Prop
  | path : next.Ready tree → isExcluded excl_prefixes_ next.names_ = false →
      visible excl_prefixes_ (pending tree iter) = next.names_ :: visible excl_prefixes_ (pending tree next) →
      Came tree excl_prefixes_ iter next
  | nowhere : next.is_end_ = true → visible excl_prefixes_ (pending tree iter) = [] →
      Came tree excl_prefixes_ iter next

theorem Increment_came (opens : OpensThere tree environment)
    (rootVisible : isExcluded excl_prefixes_ [] = false) {depth : ℕ} {iter next : FilesystemIterator}
    {machine after : Machine} (ready : iter.Ready tree)
    (incremented : iter.Increment tree environment excl_prefixes_ depth machine = some (next, after))
    (clean : next.is_err_ = false) : Came tree excl_prefixes_ iter next := by
  induction depth generalizing iter machine with
  | zero => cases incremented
  | succ depth ih =>
    have cleanIter : iter.is_err_ = false := by
      rcases Increment_keepsError incremented with same | ⟨isErr, -⟩
      · exact same.symm.trans clean
      · rw [clean] at isErr
        cases isErr
    cases Increment_goes incremented with
    | here enters unchanged length climbed shown =>
      have whole := enters.remaining opens ready cleanIter
      have ends := (enters.is_end_.trans ready.ends).trans enters.is_err_.symm
      cases climb_reached rfl length ends climbed clean with
      | path readyNext _ same =>
        refine .path readyNext shown ?_
        rw [← whole, same, visible_cons shown]
      | nowhere root isEnd _ same =>
        refine .nowhere isEnd ?_
        rw [← whole, same]
        rfl
    | @again inner middle before later enters unchanged length climbed excluded further =>
      have whole := enters.remaining opens ready cleanIter
      have ends := (enters.is_end_.trans ready.ends).trans enters.is_err_.symm
      have cleanMiddle : middle.is_err_ = false := by
        rcases Increment_keepsError further with same | ⟨isErr, -⟩
        · exact same.symm.trans clean
        · rw [clean] at isErr
          cases isErr
      cases climb_reached rfl length ends climbed cleanMiddle with
      | path readyMiddle _ same =>
        have skipped : visible excl_prefixes_ (pending tree iter) = visible excl_prefixes_ (pending tree middle) := by
          rw [← whole, same, visible_skip excluded]
        cases ih readyMiddle further with
        | path readyNext shown same => exact .path readyNext shown (skipped.trans same)
        | nowhere isEnd same => exact .nowhere isEnd (skipped.trans same)
      | nowhere root _ _ _ =>
        rw [root, rootVisible] at excluded
        cases excluded
    | root missing root same unchanged =>
      subst same
      refine .nowhere rfl ?_
      have none_open : iter.dirs_ = [] := by
        rw [← List.length_eq_zero_iff, ready.aligned, root, List.length_nil]
      rw [pending_of_missing opens ready cleanIter missing, none_open]
      rfl
    | refused failed same unchanged =>
      subst same
      cases clean

theorem climb_calls {dirs : List (List String)} {iter next : FilesystemIterator} {machine after : Machine}
    (climbed : climb tree environment dirs iter machine = some (next, after)) : after.calls = machine.calls := by
  induction dirs generalizing iter machine with
  | nil => cases climbed
  | cons names outer ih =>
    obtain ⟨status, middle, between, scanned, same, -⟩ := scan_scanned tree environment names iter machine
    simp only [climb, scanned, Machine.issue] at climbed
    cases status with
    | found =>
      cases climbed
      exact same
    | failed =>
      cases climbed
      exact same
    | exhausted =>
      dsimp only at climbed
      cases closed : environment.reply between.clock .closedir middle.names_ with
      | failed errno =>
        rw [closed] at climbed
        cases climbed
        exact same
      | ok count =>
        rw [closed] at climbed
        dsimp only at climbed
        split at climbed
        · split at climbed
          · cases climbed
          · cases climbed
            exact same
        · split at climbed
          · cases climbed
          · exact (ih climbed).trans same

/-- The destination is not changed by an increment. -/
theorem Increment_calls {depth : ℕ} {iter next : FilesystemIterator} {machine after : Machine}
    (incremented : iter.Increment tree environment excl_prefixes_ depth machine = some (next, after)) :
    after.calls = machine.calls := by
  induction depth generalizing iter machine with
  | zero => cases incremented
  | succ depth ih =>
    cases Increment_goes incremented with
    | here enters unchanged length climbed shown => exact (climb_calls climbed).trans unchanged
    | again enters unchanged length climbed excluded later =>
      exact ((ih later).trans (climb_calls climbed)).trans unchanged
    | root missing root same unchanged => exact unchanged
    | refused failed same unchanged => exact unchanged

/-- No system call of the iterator fails. -/
def NoFailures (environment : Environment) : Prop :=
  ∀ clock path, ∀ call ∈ [Syscall.lstat, .opendir, .readdir_r, .closedir],
    ∃ count, environment.reply clock call path = .ok count

theorem NoFailures.not_failed (calm : NoFailures environment) {clock : ℕ} {call : Syscall} {path : Path}
    {errno : Errno} (search : call ∈ [Syscall.lstat, .opendir, .readdir_r, .closedir]) :
    environment.reply clock call path ≠ .failed errno := by
  intro failed
  obtain ⟨count, worked⟩ := calm clock path call search
  rw [worked] at failed
  cases failed

theorem NoFailures.outside (calm : NoFailures environment) : FailsOutside environment excl_prefixes_ := by
  intro clock call path errno search failed
  refine absurd failed (calm.not_failed ?_)
  simp only [List.mem_cons, List.not_mem_nil, or_false] at search ⊢
  tauto

theorem NoFailures.opensThere (calm : NoFailures environment) : OpensThere tree environment :=
  fun _ _ _ => ⟨calm.not_failed (by simp), calm.not_failed (by simp)⟩

theorem KeepsError.clean (calm : NoFailures environment) {iter next : FilesystemIterator}
    (keeps : KeepsError environment iter next) (clean : iter.is_err_ = false) : next.is_err_ = false := by
  rcases keeps with same | ⟨-, clock, call, path, errno, search, failed⟩
  · exact same.trans clean
  · exact absurd failed (calm.not_failed search)

/-- Where a loop over an iterator is: at the path whose turn it is, or at the end after the last one. -/
inductive At (tree : SourceTree) (iter : FilesystemIterator) (paths : List Path) (excl_prefixes_ : List String) : Prop
  | path : iter.Ready tree → iter.is_end_ = false →
      paths = iter.names_ :: visible excl_prefixes_ (pending tree iter) → At tree iter paths excl_prefixes_
  | nowhere : iter.is_end_ = true → paths = [] → At tree iter paths excl_prefixes_

variable (tree) in
theorem walk_at (calm : NoFailures environment) (rootVisible : isExcluded excl_prefixes_ [] = false)
    (index : ℕ) : ∃ iter machine,
    walk tree environment excl_prefixes_ (tree.weight []) index = some (iter, machine) ∧
      iter.is_err_ = false ∧
      At tree iter ((visible excl_prefixes_ (tree.listing [])).drop index) excl_prefixes_ := by
  induction index with
  | zero =>
    obtain ⟨count, known⟩ := calm 0 [] .lstat (by simp)
    refine ⟨_, _, rfl, ?_, ?_⟩
    · simp only [Machine.issue, known]
    · simp only [Machine.issue, known]
      refine .path ⟨rfl, rfl, fun _ => rfl⟩ rfl ?_
      rw [List.drop_zero, SourceTree.listing_eq, visible_cons rootVisible, pending]
      simp only [remaining, List.append_nil]
  | succ index ih =>
    obtain ⟨iter, machine, walked, clean, here⟩ := ih
    obtain ⟨next, after, walked', -⟩ := walk_walked tree calm.outside rootVisible (index + 1)
    refine ⟨next, after, walked', ?_⟩
    rw [walk, walked] at walked'
    simp only [Option.bind_eq_bind, Option.bind_some] at walked'
    rw [← List.tail_drop]
    cases here with
    | path ready running whole =>
      rw [running, if_neg Bool.false_ne_true] at walked'
      have cleanNext := (Increment_keepsError walked').clean calm clean
      refine ⟨cleanNext, ?_⟩
      rw [whole, List.tail_cons]
      cases Increment_came calm.opensThere rootVisible ready walked' cleanNext with
      | path readyNext shown same => exact .path readyNext (readyNext.ends.trans cleanNext) same
      | nowhere isEnd same => exact .nowhere isEnd same
    | nowhere isEnd whole =>
      rw [isEnd, if_pos rfl] at walked'
      cases walked'
      rw [whole]
      exact ⟨clean, .nowhere isEnd rfl⟩

end FilesystemIterator

section Visits

theorem append_separator_inj {before after last last' : List Char} {separator : Char}
    (absent : separator ∉ last) (absent' : separator ∉ last')
    (same : before ++ separator :: last = after ++ separator :: last') : before = after ∧ last = last' := by
  obtain ⟨between, rfl, rest⟩ | ⟨between, rfl, rest⟩ := List.append_eq_append_iff.mp same
  · cases between with
    | nil =>
      rw [List.nil_append, List.cons.injEq] at rest
      exact ⟨(List.append_nil _).symm, rest.2⟩
    | cons head tail =>
      rw [List.cons_append, List.cons.injEq] at rest
      refine absurd ?_ absent
      rw [rest.2]
      simp
  · cases between with
    | nil =>
      rw [List.nil_append, List.cons.injEq] at rest
      exact ⟨List.append_nil _, rest.2.symm⟩
    | cons head tail =>
      rw [List.cons_append, List.cons.injEq] at rest
      refine absurd ?_ absent'
      rw [rest.2]
      simp

/-- The text of a path tells it from others, when no name holds a separator. -/
theorem partialPath_injective {path other : Path} (separated : ∀ name ∈ path, '/' ∉ name.toList)
    (separated' : ∀ name ∈ other, '/' ∉ name.toList) (same : partialPath path = partialPath other) :
    path = other := by
  induction path using List.reverseRecOn generalizing other with
  | nil => exact (partialPath_eq_empty.mp same.symm).symm
  | append_singleton path name ih =>
    rcases List.eq_nil_or_concat other with rfl | ⟨others, last, rfl⟩
    · exact partialPath_eq_empty.mp same
    · rw [List.concat_eq_append] at separated' same ⊢
      rw [partialPath_append, partialPath_append] at same
      have texts := congrArg String.toList same
      simp only [String.toList_append, List.append_assoc] at texts
      obtain ⟨outer, names⟩ := append_separator_inj (separated name (by simp)) (separated' last (by simp)) texts
      have paths : path = others := by
        apply ih _ _ (String.toList_inj.mp outer)
        · exact fun each inside => separated each (List.mem_append_left _ inside)
        · exact fun each inside => separated' each (List.mem_append_left _ inside)
      rw [paths, String.toList_inj.mp names]

/-- The names of a path below another one are those that its directories list. -/
theorem SourceTree.Below.separated {tree : SourceTree}
    (separated : ∀ path, ∀ name ∈ (tree.file path).entries, '/' ∉ name.toList) {path target : Path}
    (below : tree.Below path target) (outer : ∀ name ∈ path, '/' ∉ name.toList) :
    ∀ name ∈ target, '/' ∉ name.toList := by
  induction below with
  | here path => exact outer
  | @inside path target name descends member notSelf notParent below ih =>
    apply ih
    intro each inside
    rcases List.mem_append.mp inside with before | last
    · exact outer each before
    · rw [List.mem_singleton.mp last]
      exact separated path name member

namespace FilesystemIterator

/-- What a loop over an iterator should do: visit each entry once that is not excluded, the root first and each
directory before what is in it, and say of each its path and what `lstat` said. -/
structure Visits (tree : SourceTree) (environment : Environment) (excl_prefixes_ : List String) (depth : ℕ)
    (visited : List Path) : Prop where
  root : visited.head? = some []
  all : ∀ path, path ∈ visited ↔ tree.Entry path ∧ isExcluded excl_prefixes_ path = false
  once : (visited.map partialPath).Nodup
  outer_first : visited.Pairwise fun earlier later => ¬ later <+: earlier
  current : ∀ index path, visited[index]? = some path → ∃ iter machine,
    walk tree environment excl_prefixes_ depth index = some (iter, machine) ∧ iter.is_end_ = false ∧
      iter.is_err_ = false ∧ partialPath iter.names_ = partialPath path ∧ iter.stbuf_ = (tree.file path).stat
  ends : ∀ index, visited.length ≤ index → ∃ iter machine,
    walk tree environment excl_prefixes_ depth index = some (iter, machine) ∧ iter.is_end_ = true ∧
      iter.is_err_ = false

/-- When no call fails, a loop over an iterator visits the right files once. -/
theorem walk_visits {tree : DirectoryTree} {environment : Environment} {excl_prefixes_ : List String}
    (nonempty : ∀ start ∈ excl_prefixes_, start ≠ "") (calm : NoFailures environment) :
    ∃ depth visited, Visits tree.toSourceTree environment excl_prefixes_ depth visited := by
  have rootVisible := isExcluded_root nonempty
  have ordered : (visible excl_prefixes_ (tree.listing [])).Pairwise fun earlier later => ¬ later <+: earlier :=
    (SourceTree.listWithin_ordered tree.distinct _ []).filter _
  have entries {path : Path} : path ∈ visible excl_prefixes_ (tree.listing []) ↔
      tree.Entry path ∧ isExcluded excl_prefixes_ path = false := by
    rw [visible, List.mem_filter, SourceTree.mem_listing, Bool.not_eq_true']
    rfl
  refine ⟨tree.weight [], visible excl_prefixes_ (tree.listing []), ?_, fun path => entries, ?_, ordered, ?_, ?_⟩
  · rw [SourceTree.listing_eq, visible_cons rootVisible]
    rfl
  · rw [List.Nodup, List.pairwise_map]
    apply ordered.imp_of_mem
    intro earlier later first second extends_ same
    have separated {path : Path} (inside : path ∈ visible excl_prefixes_ (tree.listing [])) :
        ∀ name ∈ path, '/' ∉ name.toList :=
      (entries.mp inside).1.separated tree.separated (by simp)
    rw [partialPath_injective (separated first) (separated second) same] at extends_
    exact extends_ List.prefix_rfl
  · intro index path here
    obtain ⟨iter, machine, walked, clean, position⟩ := walk_at tree.toSourceTree calm rootVisible index
    rw [← List.head?_drop] at here
    cases position with
    | path ready running whole =>
      rw [whole, List.head?_cons, Option.some.injEq] at here
      refine ⟨iter, machine, walked, running, clean, congrArg partialPath here, ?_⟩
      rw [ready.fresh clean, here]
    | nowhere isEnd whole =>
      rw [whole] at here
      cases here
  · intro index beyond
    obtain ⟨iter, machine, walked, clean, position⟩ := walk_at tree.toSourceTree calm rootVisible index
    cases position with
    | path ready running whole =>
      rw [List.drop_of_length_le beyond] at whole
      cases whole
    | nowhere isEnd whole => exact ⟨iter, machine, walked, isEnd, clean⟩

example : visible ["/lost+found"] (FilesystemCopierAction.smallTree.listing []) = [[], ["motd"]] := by
  decide +kernel

/-- The root with the excluded directory and the file. -/
def smallDirectory : DirectoryTree where
  toSourceTree := FilesystemCopierAction.smallTree
  distinct path := by
    simp only [FilesystemCopierAction.smallTree]
    repeat' split
    all_goals simp
  separated path name member := by
    simp only [FilesystemCopierAction.smallTree] at member
    split at member
    · simp only [List.mem_cons, List.not_mem_nil, or_false] at member
      rcases member with rfl | rfl | rfl | rfl <;> decide +kernel
    · split at member
      · cases member
      · cases member

theorem walk_visits_small : ∃ depth visited,
    Visits smallDirectory.toSourceTree FilesystemCopierAction.calmSteps.copy ["/lost+found"] depth visited := by
  apply walk_visits
  · simp
  · exact fun clock path call search => ⟨0, rfl⟩

end FilesystemIterator

end Visits

end ChromiumOS.UpdateEngine
