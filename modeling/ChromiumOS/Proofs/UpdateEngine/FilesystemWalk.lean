import ChromiumOS.Model.UpdateEngine.FilesystemIterator

/-! # What the file system iterator visits

The open directories say which paths are still to come. An increment goes to the first of them that
is not excluded; it misses none, unless a directory outside the excluded paths cannot be opened, and
it trips over no `CHECK`, unless reading or closing an excluded directory fails.
-/

namespace ChromiumOS.UpdateEngine

namespace SourceTree

variable (tree : SourceTree)

/-- The directories that the iterator looks into: those on the device of the root. -/
def Descends (path : Path) : Prop :=
  (tree.file path).stat.type = .S_IFDIR ∧ (tree.file path).stat.st_dev = (tree.file []).stat.st_dev

/-- A path is below itself, and what is below a child of a directory is below the directory. -/
inductive Below (tree : SourceTree) : Path → Path → Prop
  | here (path : Path) : Below tree path path
  | inside {path target : Path} {name : String} : tree.Descends path →
      name ∈ (tree.file path).entries → name ≠ "." → name ≠ ".." →
      Below tree (path ++ [name]) target → Below tree path target

/-- The entries of the tree: all that is below its root. -/
def Entry (path : Path) : Prop := tree.Below [] path

theorem weight_eq (path : Path) :
    tree.weight path =
      1 + ((tree.file path).entries.map fun name => tree.weight (path ++ [name])).sum := by
  rw [weight]
  cases left : tree.depth - path.length with
  | zero => simp [weightWithin, tree.bounded path (by omega)]
  | succ levels =>
    have child (name : String) :
        tree.weight (path ++ [name]) = tree.weightWithin levels (path ++ [name]) := by
      rw [weight, List.length_append, List.length_singleton]
      congr 1
      omega
    simp only [weightWithin, child]

end SourceTree

theorem partialPath_append (path : Path) (name : String) :
    partialPath (path ++ [name]) = partialPath path ++ "/" ++ name := by
  simp [partialPath]

theorem partialPath_eq_empty {path : Path} : partialPath path = "" ↔ path = [] := by
  constructor
  · intro empty
    rcases List.eq_nil_or_concat path with nil | ⟨outer, name, rfl⟩
    · exact nil
    · rw [List.concat_eq_append, partialPath_append] at empty
      have := congrArg String.length empty
      simp at this
  · rintro rfl
    rfl

theorem isExcluded_append {excl_prefixes_ : List String} {path : Path} {name : String}
    (excluded : isExcluded excl_prefixes_ path = true) :
    isExcluded excl_prefixes_ (path ++ [name]) = true := by
  obtain ⟨start, mem, starts⟩ := List.any_eq_true.mp excluded
  refine List.any_eq_true.mpr ⟨start, mem, ?_⟩
  rw [StringHasPrefix, List.isPrefixOf_iff_prefix] at starts ⊢
  rw [partialPath_append, String.toList_append, String.toList_append, List.append_assoc]
  exact starts.trans (List.prefix_append _ _)

/-- What is below an excluded path is excluded. -/
theorem SourceTree.Below.isExcluded {tree : SourceTree} {excl_prefixes_ : List String}
    {path target : Path} (below : tree.Below path target)
    (excluded : isExcluded excl_prefixes_ path = true) :
    UpdateEngine.isExcluded excl_prefixes_ target = true := by
  induction below with
  | here path => exact excluded
  | inside descends mem notSelf notParent below ih => exact ih (isExcluded_append excluded)

section Stack

variable (tree : SourceTree)

/-- The paths that one directory still has to yield, given the names left to read. -/
def Awaited (names : List String) (path target : Path) : Prop :=
  ∃ name ∈ names, name ≠ "." ∧ name ≠ ".." ∧ tree.Below (path ++ [name]) target

/-- The paths that the open directories still have to yield; the innermost one is given. -/
def Remaining : List (List String) → Path → Path → Prop
  | [], _, _ => False
  | names :: outer, path, target =>
    Awaited tree names path target ∨ Remaining outer path.dropLast target

/-- How many paths one directory still has to yield, with nothing left out. -/
def awaitedWeight (names : List String) (path : Path) : ℕ :=
  (names.map fun name => tree.weight (path ++ [name])).sum

/-- How many paths the open directories still have to yield. -/
def remainingWeight : List (List String) → Path → ℕ
  | [], _ => 0
  | names :: outer, path => awaitedWeight tree names path + remainingWeight outer path.dropLast

/-- The paths that come after the current one. -/
def FilesystemIterator.Pending (iter : FilesystemIterator) (target : Path) : Prop :=
  (tree.Descends iter.names_ ∧ Awaited tree (tree.file iter.names_).entries iter.names_ target) ∨
    Remaining tree iter.dirs_ iter.names_.dropLast target

/-- How many paths come after the current one, if all directories are descended into. -/
def FilesystemIterator.pendingWeight (iter : FilesystemIterator) : ℕ :=
  awaitedWeight tree (tree.file iter.names_).entries iter.names_ +
    remainingWeight tree iter.dirs_ iter.names_.dropLast

variable {tree}

theorem not_awaited_of_skipped {names : List String} {path target : Path}
    (skipped : ∀ other ∈ names, other = "." ∨ other = "..") : ¬ Awaited tree names path target := by
  rintro ⟨name, mem, notSelf, notParent, -⟩
  exact (skipped name mem).elim notSelf notParent

theorem awaited_append_cons {skipped more : List String} {name : String} {path target : Path}
    (skips : ∀ other ∈ skipped, other = "." ∨ other = "..")
    (awaited : Awaited tree (skipped ++ name :: more) path target) :
    tree.Below (path ++ [name]) target ∨ Awaited tree more path target := by
  obtain ⟨other, mem, notSelf, notParent, below⟩ := awaited
  rcases List.mem_append.mp mem with before | after
  · exact ((skips other before).elim notSelf notParent).elim
  · rcases List.mem_cons.mp after with rfl | later
    · exact .inl below
    · exact .inr ⟨other, later, notSelf, notParent, below⟩

variable (tree) in
theorem awaitedWeight_append_cons (skipped more : List String) (name : String) (path : Path) :
    tree.weight (path ++ [name]) + awaitedWeight tree more path ≤
      awaitedWeight tree (skipped ++ name :: more) path := by
  simp only [awaitedWeight, List.map_append, List.map_cons, List.sum_append, List.sum_cons]
  omega

end Stack

namespace FilesystemIterator

variable {tree : SourceTree} {environment : Environment}

/-- How the search through a directory ends: at an entry, at its end, or at a call that fails. -/
inductive Scanned (tree : SourceTree) (environment : Environment) (names : List String)
    (iter : FilesystemIterator) : ScanStatus → FilesystemIterator → Prop
  | found (skipped : List String) {more : List String} {name : String} :
      names = skipped ++ name :: more → (∀ other ∈ skipped, other = "." ∨ other = "..") →
      Scanned tree environment names iter .found
        { iter with
          dirs_ := more :: iter.dirs_.tail
          names_ := iter.names_ ++ [name]
          stbuf_ := (tree.file (iter.names_ ++ [name])).stat }
  | exhausted (dirs_ : List (List String)) (stbuf_ : Stat) :
      (∀ other ∈ names, other = "." ∨ other = "..") →
      Scanned tree environment names iter .exhausted { iter with dirs_, stbuf_ }
  | unread (dirs_ : List (List String)) (stbuf_ : Stat) {clock : ℕ} {errno : Errno} :
      environment.reply clock .readdir_r iter.names_ = .failed errno →
      Scanned tree environment names iter .failed (fail { iter with dirs_, stbuf_ })
  | unknown (stbuf_ : Stat) (skipped : List String) {more : List String} {name : String} :
      names = skipped ++ name :: more →
      Scanned tree environment names iter .failed
        (fail { iter with
          dirs_ := more :: iter.dirs_.tail
          names_ := iter.names_ ++ [name]
          stbuf_ })

/-- Skipping a name that is no entry does not change how the search ends. -/
private theorem Scanned.cons {names more : List String} {name : String} {stbuf_ : Stat}
    {iter next : FilesystemIterator} {status : ScanStatus} (skips : name = "." ∨ name = "..")
    (scanned : Scanned tree environment names
      { iter with dirs_ := more :: iter.dirs_.tail, stbuf_ } status next) :
    Scanned tree environment (name :: names) iter status next := by
  cases scanned with
  | found skipped split skipsAll =>
    exact .found (name :: skipped) (congrArg (name :: ·) split)
      (List.forall_mem_cons.mpr ⟨skips, skipsAll⟩)
  | exhausted dirs_ stbuf_ skipped =>
    exact .exhausted dirs_ stbuf_ (List.forall_mem_cons.mpr ⟨skips, skipped⟩)
  | unread dirs_ stbuf_ failed => exact .unread dirs_ stbuf_ failed
  | unknown stbuf_ skipped split =>
    exact .unknown stbuf_ (name :: skipped) (congrArg (name :: ·) split)

variable (tree environment) in
theorem scan_scanned (names : List String) (iter : FilesystemIterator) (machine : Machine) :
    ∃ status next after, scan tree environment names iter machine = (status, next, after) ∧
      after.calls = machine.calls ∧ Scanned tree environment names iter status next := by
  induction names generalizing iter machine with
  | nil =>
    simp only [scan, Machine.issue]
    cases read : environment.reply machine.clock .readdir_r iter.names_ with
    | ok count => exact ⟨_, _, _, rfl, rfl, .exhausted _ _ (by simp)⟩
    | failed errno => exact ⟨_, _, _, rfl, rfl, .unread _ _ read⟩
  | cons name more ih =>
    simp only [scan, Machine.issue]
    cases read : environment.reply machine.clock .readdir_r iter.names_ with
    | failed errno => exact ⟨_, _, _, rfl, rfl, .unread _ _ read⟩
    | ok count =>
      dsimp only
      cases environment.reply (machine.log ⟨.readdir_r, iter.names_, .ok count⟩).clock .lstat
        (iter.names_ ++ [name]) with
      | failed errno => exact ⟨_, _, _, rfl, rfl, .unknown iter.stbuf_ [] rfl⟩
      | ok found =>
        dsimp only
        split
        · exact ⟨_, _, _, rfl, rfl, .found [] rfl (by simp)⟩
        · next skips =>
          rw [List.dropLast_concat]
          obtain ⟨status, next, after, scanned, same, outcome⟩ := ih
            { iter with
              dirs_ := more :: iter.dirs_.tail
              stbuf_ := (tree.file (iter.names_ ++ [name])).stat }
            ((machine.log ⟨.readdir_r, iter.names_, .ok count⟩).log
              ⟨.lstat, iter.names_ ++ [name], .ok found⟩)
          exact ⟨status, next, after, scanned, same, outcome.cons (by tauto)⟩

/-- Reading and closing an excluded directory works. The iterator goes on after such a failure, with
one open directory too many. -/
def SkipsCleanly (environment : Environment) (excl_prefixes_ : List String) : Prop :=
  ∀ clock path errno, isExcluded excl_prefixes_ path = true →
    environment.reply clock .readdir_r path ≠ .failed errno ∧
      environment.reply clock .closedir path ≠ .failed errno

/-- No directory outside the excluded paths is taken for one that is not there. -/
def OpensAll (environment : Environment) (excl_prefixes_ : List String) : Prop :=
  ∀ clock path, isExcluded excl_prefixes_ path = false →
    environment.reply clock .opendir path ≠ .failed .ENOENT ∧
      environment.reply clock .opendir path ≠ .failed .ENOTDIR

/-- There is one open directory for each name. -/
def Aligned (iter : FilesystemIterator) : Prop := iter.dirs_.length = iter.names_.length

/-- What the search through the open directories leaves: the next entry, an entry whose `lstat`
failed, a failure outside the excluded paths, or the end. -/
inductive Climbed (tree : SourceTree) (excl_prefixes_ : List String) (dirs : List (List String))
    (iter next : FilesystemIterator) : Prop
  | moved : next.Aligned → next.stbuf_ = (tree.file next.names_).stat → next.is_end_ = iter.is_end_ →
      next.is_err_ = iter.is_err_ → next.pendingWeight tree < remainingWeight tree dirs iter.names_ →
      (∀ target, Remaining tree dirs iter.names_ target →
        target = next.names_ ∨ next.Pending tree target) →
      Climbed tree excl_prefixes_ dirs iter next
  | strayed : next.Aligned → next.is_end_ = true → next.is_err_ = true →
      next.pendingWeight tree < remainingWeight tree dirs iter.names_ →
      Climbed tree excl_prefixes_ dirs iter next
  | stopped : next.is_end_ = true → next.is_err_ = true →
      isExcluded excl_prefixes_ next.names_ = false → Climbed tree excl_prefixes_ dirs iter next
  | ended : next.names_ = [] → next.is_end_ = true → next.is_err_ = iter.is_err_ →
      (∀ target, ¬ Remaining tree dirs iter.names_ target) → Climbed tree excl_prefixes_ dirs iter next

/-- What is not found in one directory is looked for in the next one. -/
private theorem Climbed.outer {excl_prefixes_ names : List String} {outer : List (List String)}
    {iter next : FilesystemIterator} {stbuf_ : Stat}
    (skipped : ∀ other ∈ names, other = "." ∨ other = "..")
    (climbed : Climbed tree excl_prefixes_ outer
      { iter with dirs_ := outer, names_ := iter.names_.dropLast, stbuf_ } next) :
    Climbed tree excl_prefixes_ (names :: outer) iter next := by
  have inOuter {target : Path} (remaining : Remaining tree (names :: outer) iter.names_ target) :
      Remaining tree outer iter.names_.dropLast target :=
    remaining.resolve_left (not_awaited_of_skipped skipped)
  have heavier : remainingWeight tree outer iter.names_.dropLast ≤
      remainingWeight tree (names :: outer) iter.names_ := by
    simp [remainingWeight]
  cases climbed with
  | moved aligned fresh sameEnd sameErr lighter covers =>
    exact .moved aligned fresh sameEnd sameErr (Nat.lt_of_lt_of_le lighter heavier)
      fun target remaining => covers target (inOuter remaining)
  | strayed aligned isEnd isErr lighter =>
    exact .strayed aligned isEnd isErr (Nat.lt_of_lt_of_le lighter heavier)
  | stopped isEnd isErr visible => exact .stopped isEnd isErr visible
  | ended root isEnd sameErr nothing =>
    exact .ended root isEnd sameErr fun target remaining => nothing target (inOuter remaining)

/-- The entry a directory yields weighs more than what then comes after it. -/
private theorem pendingWeight_entry_lt {iter next : FilesystemIterator}
    {skipped more : List String} {name : String} {outer : List (List String)}
    (names : next.names_ = iter.names_ ++ [name]) (dirs : next.dirs_ = more :: outer) :
    next.pendingWeight tree <
      remainingWeight tree ((skipped ++ name :: more) :: outer) iter.names_ := by
  have entry := awaitedWeight_append_cons tree skipped more name iter.names_
  rw [SourceTree.weight_eq] at entry
  rw [pendingWeight, names, dirs, List.dropLast_concat]
  simp only [remainingWeight, awaitedWeight] at entry ⊢
  omega

/-- What a directory has to yield is the entry it yields, what comes after it, or below it. -/
private theorem eq_or_pending_of_remaining {iter next : FilesystemIterator}
    {skipped more : List String} {name : String} {outer : List (List String)} {target : Path}
    (names : next.names_ = iter.names_ ++ [name]) (dirs : next.dirs_ = more :: outer)
    (skips : ∀ other ∈ skipped, other = "." ∨ other = "..")
    (remaining : Remaining tree ((skipped ++ name :: more) :: outer) iter.names_ target) :
    target = next.names_ ∨ next.Pending tree target := by
  rw [Pending, names, dirs, List.dropLast_concat]
  rcases remaining with awaited | outside
  · rcases awaited_append_cons skips awaited with below | later
    · cases below with
      | here => exact .inl rfl
      | inside descends mem notSelf notParent below =>
        exact .inr (.inl ⟨descends, _, mem, notSelf, notParent, below⟩)
    · exact .inr (.inr (.inl later))
  · exact .inr (.inr (.inr outside))

variable (tree) in
theorem climb_climbed {excl_prefixes_ : List String} (clean : SkipsCleanly environment excl_prefixes_)
    (dirs : List (List String)) (iter : FilesystemIterator) (machine : Machine)
    (same : iter.dirs_ = dirs) (length : dirs.length = iter.names_.length + 1) :
    ∃ next after, climb tree environment dirs iter machine = some (next, after) ∧
      after.calls = machine.calls ∧ Climbed tree excl_prefixes_ dirs iter next := by
  induction dirs generalizing iter machine with
  | nil => simp at length
  | cons names outer ih =>
    obtain ⟨status, next, after, scanned, unchanged, outcome⟩ :=
      scan_scanned tree environment names iter machine
    simp only [climb, scanned]
    cases outcome with
    | found skipped split skips =>
      refine ⟨_, _, rfl, unchanged, .moved ?_ rfl rfl rfl ?_ ?_⟩
      · simpa [Aligned, same] using length
      · rw [split]
        exact pendingWeight_entry_lt rfl (by rw [same, List.tail_cons])
      · rw [split]
        exact fun target => eq_or_pending_of_remaining rfl (by rw [same, List.tail_cons]) skips
    | exhausted dirs_ stbuf_ skipped =>
      simp only [Machine.issue]
      cases closed : environment.reply after.clock .closedir iter.names_ with
      | failed errno =>
        refine ⟨_, _, rfl, unchanged, .stopped rfl rfl ?_⟩
        exact Bool.eq_false_iff.mpr fun excluded => (clean _ _ _ excluded).2 closed
      | ok count =>
        rw [List.length_cons] at length
        dsimp only
        split
        · next last =>
          have empty : iter.names_ = [] := by
            rw [last] at length
            exact List.length_eq_zero_iff.mp (by simpa using length.symm)
          rw [if_neg (not_not_intro empty)]
          refine ⟨_, _, rfl, unchanged, .ended empty rfl rfl fun target remaining => ?_⟩
          rw [last] at remaining
          exact remaining.elim (not_awaited_of_skipped skipped) id
        · next more =>
          have positive := List.length_pos_iff.mpr more
          rw [if_neg (List.ne_nil_of_length_pos (by omega))]
          obtain ⟨next, later, climbed, unchanged', outcome⟩ := ih
            { iter with dirs_ := outer, names_ := iter.names_.dropLast, stbuf_ }
            (after.log ⟨.closedir, iter.names_, .ok count⟩) rfl
            (by rw [List.length_dropLast]; omega)
          exact ⟨next, later, climbed, unchanged'.trans unchanged, outcome.outer skipped⟩
    | unread dirs_ stbuf_ failed =>
      refine ⟨_, _, rfl, unchanged, .stopped rfl rfl ?_⟩
      exact Bool.eq_false_iff.mpr fun excluded => (clean _ _ _ excluded).1 failed
    | unknown stbuf_ skipped split =>
      refine ⟨_, _, rfl, unchanged, .strayed ?_ rfl rfl ?_⟩
      · simpa [Aligned, fail, same] using length
      · rw [split]
        exact pendingWeight_entry_lt rfl (by rw [fail, same, List.tail_cons])

section Increment

variable {excl_prefixes_ : List String}

/-- What an increment can start from. After an error the iterator is at its end, and only then may
`stbuf_` be that of another file. -/
structure Ready (tree : SourceTree) (iter : FilesystemIterator) : Prop where
  aligned : iter.Aligned
  ends : iter.is_end_ = iter.is_err_
  fresh : iter.is_err_ = false → iter.stbuf_ = (tree.file iter.names_).stat

/-- What an increment does: it comes to a path that is not excluded, or to the end; errors stay, and
without one nothing that is not excluded is left out. -/
structure Advanced (tree : SourceTree) (excl_prefixes_ : List String)
    (iter next : FilesystemIterator) : Prop where
  errKept : iter.is_err_ = true → next.is_err_ = true
  errEnds : next.is_err_ = true → next.is_end_ = true
  ready : next.is_end_ = false → next.Ready tree ∧ isExcluded excl_prefixes_ next.names_ = false ∧
    next.pendingWeight tree < iter.pendingWeight tree
  covers : next.is_err_ = false → ∀ target, isExcluded excl_prefixes_ target = false →
    iter.Pending tree target →
      next.is_end_ = false ∧ (target = next.names_ ∨ next.Pending tree target)

private theorem Advanced.of_err {iter next : FilesystemIterator} (isEnd : next.is_end_ = true)
    (isErr : next.is_err_ = true) : Advanced tree excl_prefixes_ iter next where
  errKept _ := isErr
  errEnds _ := isEnd
  ready running := by simp [isEnd] at running
  covers clean := by simp [isErr] at clean

/-- How `IncrementInternal` is entered: one open directory more than names, and with what the current
path still had to yield. -/
structure Entered (tree : SourceTree) (excl_prefixes_ : List String)
    (iter inner : FilesystemIterator) : Prop where
  length : inner.dirs_.length = inner.names_.length + 1
  sameEnd : inner.is_end_ = iter.is_end_
  sameErr : inner.is_err_ = iter.is_err_
  lighter : remainingWeight tree inner.dirs_ inner.names_ ≤ iter.pendingWeight tree
  covers : iter.is_err_ = false → ∀ target, isExcluded excl_prefixes_ target = false →
    iter.Pending tree target → Remaining tree inner.dirs_ inner.names_ target

/-- The first path that is not excluded ends the increment. -/
private theorem Entered.advanced {iter inner next : FilesystemIterator}
    (entered : Entered tree excl_prefixes_ iter inner) (ready : iter.Ready tree)
    (visible : isExcluded excl_prefixes_ next.names_ = false)
    (climbed : Climbed tree excl_prefixes_ inner.dirs_ inner next) :
    Advanced tree excl_prefixes_ iter next := by
  cases climbed with
  | moved aligned fresh sameEnd sameErr lighter covers =>
    rw [entered.sameEnd] at sameEnd
    rw [entered.sameErr] at sameErr
    have ends : next.is_end_ = next.is_err_ := by rw [sameEnd, sameErr, ready.ends]
    refine ⟨fun err => by rw [sameErr, err], fun err => by rw [ends, err], fun running => ?_,
      fun clean target kept pending => ?_⟩
    · exact ⟨⟨aligned, ends, fun _ => fresh⟩, visible, Nat.lt_of_lt_of_le lighter entered.lighter⟩
    · refine ⟨by rw [ends, clean], covers target (entered.covers ?_ target kept pending)⟩
      rw [← sameErr, clean]
  | strayed aligned isEnd isErr lighter => exact .of_err isEnd isErr
  | stopped isEnd isErr visible => exact .of_err isEnd isErr
  | ended root isEnd sameErr nothing =>
    rw [entered.sameErr] at sameErr
    refine ⟨fun err => by rw [sameErr, err], fun _ => isEnd, fun running => ?_,
      fun clean target kept pending => ?_⟩
    · simp [isEnd] at running
    · exact (nothing target (entered.covers (by rw [← sameErr, clean]) target kept pending)).elim

/-- After an excluded path the increment goes on, with less before it. -/
private theorem Entered.excluded {iter inner middle : FilesystemIterator}
    (entered : Entered tree excl_prefixes_ iter inner) (ready : iter.Ready tree)
    (rootVisible : isExcluded excl_prefixes_ [] = false)
    (excluded : isExcluded excl_prefixes_ middle.names_ = true)
    (climbed : Climbed tree excl_prefixes_ inner.dirs_ inner middle) :
    middle.Ready tree ∧ middle.pendingWeight tree < iter.pendingWeight tree ∧
      ∀ next, Advanced tree excl_prefixes_ middle next → Advanced tree excl_prefixes_ iter next := by
  cases climbed with
  | moved aligned fresh sameEnd sameErr lighter covers =>
    rw [entered.sameEnd] at sameEnd
    rw [entered.sameErr] at sameErr
    have lighter' := Nat.lt_of_lt_of_le lighter entered.lighter
    refine ⟨⟨aligned, by rw [sameEnd, sameErr, ready.ends], fun _ => fresh⟩, lighter', fun next later => ?_⟩
    refine ⟨fun err => later.errKept (by rw [sameErr, err]), later.errEnds, fun running => ?_,
      fun clean target kept pending => ?_⟩
    · obtain ⟨readyNext, visible, lighterNext⟩ := later.ready running
      exact ⟨readyNext, visible, Nat.lt_trans lighterNext lighter'⟩
    · have cleanHere : iter.is_err_ = false := by
        rw [← sameErr]
        exact Bool.eq_false_iff.mpr fun err => by simp [later.errKept err] at clean
      rcases covers target (entered.covers cleanHere target kept pending) with rfl | pending
      · simp [excluded] at kept
      · exact later.covers clean target kept pending
  | strayed aligned isEnd isErr lighter =>
    refine ⟨⟨aligned, by rw [isEnd, isErr], fun clean => by simp [isErr] at clean⟩,
      Nat.lt_of_lt_of_le lighter entered.lighter, fun next later => ?_⟩
    have err := later.errKept isErr
    exact .of_err (later.errEnds err) err
  | stopped isEnd isErr visible => simp [excluded] at visible
  | ended root isEnd sameErr nothing => simp [root, rootVisible] at excluded

private theorem Entered.opened {iter : FilesystemIterator} (ready : iter.Ready tree) :
    Entered tree excl_prefixes_ iter
      { iter with dirs_ := (tree.file iter.names_).entries :: iter.dirs_ } where
  length := congrArg (· + 1) ready.aligned
  sameEnd := rfl
  sameErr := rfl
  lighter := Nat.le_refl _
  covers _ _ _ pending := pending.imp_left And.right

/-- Nothing is lost by not descending into an excluded directory. -/
private theorem remaining_of_skips {iter : FilesystemIterator} {target : Path}
    (skips : tree.Descends iter.names_ → isExcluded excl_prefixes_ iter.names_ = true)
    (kept : isExcluded excl_prefixes_ target = false) (pending : iter.Pending tree target) :
    Remaining tree iter.dirs_ iter.names_.dropLast target := by
  refine pending.resolve_left ?_
  rintro ⟨descends, name, -, -, -, below⟩
  simp [below.isExcluded (isExcluded_append (skips descends))] at kept

private theorem Entered.skipped {iter : FilesystemIterator} (ready : iter.Ready tree)
    (nonempty : iter.names_ ≠ [])
    (skips : iter.is_err_ = false → tree.Descends iter.names_ →
      isExcluded excl_prefixes_ iter.names_ = true) :
    Entered tree excl_prefixes_ iter { iter with names_ := iter.names_.dropLast } where
  length := by
    have positive := List.length_pos_iff.mpr nonempty
    have aligned : iter.dirs_.length = iter.names_.length := ready.aligned
    rw [List.length_dropLast, aligned]
    omega
  sameEnd := rfl
  sameErr := rfl
  lighter := Nat.le_add_left _ _
  covers clean _ kept pending := remaining_of_skips (skips clean) kept pending

/-- A root that is not descended into is all there is. -/
private theorem Advanced.root {iter : FilesystemIterator} (ready : iter.Ready tree)
    (root : iter.names_ = []) (skips : iter.is_err_ = false → tree.Descends iter.names_ →
      isExcluded excl_prefixes_ iter.names_ = true) :
    Advanced tree excl_prefixes_ iter { iter with is_end_ := true } where
  errKept err := err
  errEnds _ := rfl
  ready running := by simp at running
  covers clean target kept pending := by
    have none_open : iter.dirs_ = [] := by
      rw [← List.length_eq_zero_iff, ready.aligned, root, List.length_nil]
    have remaining := remaining_of_skips (skips clean) kept pending
    rw [none_open] at remaining
    exact remaining.elim

/-- A directory that is taken for missing is excluded. -/
private theorem skips_of_opendir {iter : FilesystemIterator} {machine after : Machine}
    {errno : Errno} (opens : OpensAll environment excl_prefixes_)
    (opened : iter.opendir tree environment machine = (.failed errno, after))
    (missing : errno = .ENOTDIR ∨ errno = .ENOENT)
    (descends : tree.Descends iter.names_) : isExcluded excl_prefixes_ iter.names_ = true := by
  rw [opendir, if_pos descends.1, Machine.issue, Prod.mk.injEq] at opened
  by_contra visible
  obtain ⟨notMissing, notOther⟩ := opens machine.clock iter.names_ (Bool.eq_false_iff.mpr visible)
  rcases missing with rfl | rfl
  · exact notOther opened.1
  · exact notMissing opened.1

private theorem skips_of_not_descends {iter : FilesystemIterator} (ready : iter.Ready tree)
    (stays : iter.descends tree = false) (clean : iter.is_err_ = false)
    (descends : tree.Descends iter.names_) : isExcluded excl_prefixes_ iter.names_ = true := by
  simp [FilesystemIterator.descends, ready.fresh clean, descends.1, descends.2] at stays

/-- One increment, given as many turns as there are paths to come. -/
theorem Increment_advanced (clean : SkipsCleanly environment excl_prefixes_)
    (opens : OpensAll environment excl_prefixes_)
    (rootVisible : isExcluded excl_prefixes_ [] = false) (depth : ℕ) (iter : FilesystemIterator)
    (machine : Machine) (ready : iter.Ready tree) (enough : iter.pendingWeight tree < depth) :
    ∃ next after, iter.Increment tree environment excl_prefixes_ depth machine = some (next, after) ∧
      after.calls = machine.calls ∧ Advanced tree excl_prefixes_ iter next := by
  induction depth generalizing iter machine with
  | zero => omega
  | succ depth ih =>
    have goesOn {inner : FilesystemIterator} (before : Machine)
        (entered : Entered tree excl_prefixes_ iter inner) : ∃ next after,
        ((inner.IncrementInternal tree environment before).bind fun found =>
          if isExcluded excl_prefixes_ found.1.names_ then
            found.1.Increment tree environment excl_prefixes_ depth found.2
          else some found) = some (next, after) ∧
        after.calls = before.calls ∧ Advanced tree excl_prefixes_ iter next := by
      obtain ⟨middle, later, climbed, unchanged, outcome⟩ :=
        climb_climbed tree clean inner.dirs_ inner before rfl entered.length
      rw [IncrementInternal, if_neg (not_not_intro entered.length), climbed, Option.bind_some]
      cases excluded : isExcluded excl_prefixes_ middle.names_ with
      | false => exact ⟨middle, later, rfl, unchanged, entered.advanced ready excluded outcome⟩
      | true =>
        obtain ⟨readyMiddle, lighter, compose⟩ :=
          entered.excluded ready rootVisible excluded outcome
        obtain ⟨next, after, incremented, unchanged', advanced⟩ :=
          ih middle later readyMiddle (by omega)
        exact ⟨next, after, incremented, unchanged'.trans unchanged, compose next advanced⟩
    have skipsOver (before : Machine) (skips : iter.is_err_ = false → tree.Descends iter.names_ →
        isExcluded excl_prefixes_ iter.names_ = true) : ∃ next after,
        (if iter.names_ = [] then some ({ iter with is_end_ := true }, before)
          else (IncrementInternal tree environment
              { iter with names_ := iter.names_.dropLast } before).bind fun found =>
            if isExcluded excl_prefixes_ found.1.names_ then
              found.1.Increment tree environment excl_prefixes_ depth found.2
            else some found) = some (next, after) ∧
        after.calls = before.calls ∧ Advanced tree excl_prefixes_ iter next := by
      by_cases root : iter.names_ = []
      · rw [if_pos root]
        exact ⟨_, _, rfl, rfl, .root ready root skips⟩
      · rw [if_neg root]
        exact goesOn before (.skipped ready root skips)
    simp only [Increment]
    cases descends : iter.descends tree with
    | false => exact skipsOver machine (skips_of_not_descends ready descends)
    | true =>
      obtain ⟨reply, before, opened⟩ : ∃ reply before,
        iter.opendir tree environment machine = (reply, before) := ⟨_, _, rfl⟩
      have unchanged : before.calls = machine.calls := by
        rw [opendir] at opened
        split at opened <;> simp only [Machine.issue, Prod.mk.injEq] at opened <;> rw [← opened.2] <;> rfl
      rw [if_pos rfl, opened, ← unchanged]
      match reply with
      | .ok _ => exact goesOn before (.opened ready)
      | .failed .ENOTDIR =>
        exact skipsOver before fun _ => skips_of_opendir opens opened (.inl rfl)
      | .failed .ENOENT =>
        exact skipsOver before fun _ => skips_of_opendir opens opened (.inr rfl)
      | .failed (.other _) => exact ⟨_, _, rfl, rfl, .of_err rfl rfl⟩

end Increment

end FilesystemIterator

end ChromiumOS.UpdateEngine
