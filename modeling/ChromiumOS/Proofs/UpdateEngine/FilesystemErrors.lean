import ChromiumOS.Proofs.UpdateEngine.FilesystemCopy

/-! # How the file system iterator fails

The calls that were made are in order: those that worked, and after one that failed no directory is opened
any more. A failure leaves the iterator at its end. This needs that no call on an excluded path fails: the
iterator goes on from there as from any excluded path.
-/

namespace ChromiumOS.UpdateEngine

/-- A failure of a call; a directory that is not there is none. -/
def IssuedCall.Failed (issued : IssuedCall) : Prop :=
  ∃ errno, issued.reply = .failed errno ∧
    ¬ (issued.call = .opendir ∧ (errno = .ENOENT ∨ errno = .ENOTDIR))

def IssuedCall.Opened (issued : IssuedCall) : Prop := issued.call = .opendir ∧ ∃ count, issued.reply = .ok count

theorem IssuedCall.Failed.not_ok {call : Syscall} {path : Path} {count : ℕ} :
    ¬ IssuedCall.Failed ⟨call, path, .ok count⟩ := by
  rintro ⟨errno, failed, -⟩
  cases failed

namespace FilesystemIterator

variable (tree : SourceTree) (environment : Environment) (excl_prefixes_ : List String)

/-- A loop over an iterator: so many increments, or as many as there are to its end. -/
def walk (depth : ℕ) : ℕ → Option (FilesystemIterator × Machine)
  | 0 => some (new tree environment { clock := 0, calls := [] })
  | count + 1 => do
    let (iter, machine) ← walk depth count
    if iter.is_end_ then some (iter, machine) else iter.Increment tree environment excl_prefixes_ depth machine

/-- After a failure the iterator is at its end with an error, and no directory was opened. -/
structure FailsCleanly (iter : FilesystemIterator) (machine : Machine) : Prop where
  sticks : (∃ issued ∈ machine.issued, issued.Failed) → iter.is_end_ = true ∧ iter.is_err_ = true
  stops : machine.issued.Pairwise fun earlier later => earlier.Failed → ¬ later.Opened

/-- No call of the search fails on an excluded path. -/
def FailsOutside : Prop :=
  ∀ clock call path errno, call ∈ [Syscall.lstat, .readdir_r, .closedir] →
    environment.reply clock call path = .failed errno → isExcluded excl_prefixes_ path = false

variable {tree environment excl_prefixes_}

theorem FailsOutside.skipsCleanly (outside : FailsOutside environment excl_prefixes_) :
    SkipsCleanly environment excl_prefixes_ := by
  intro clock path errno excluded
  constructor
  · intro failed
    have visible := outside clock .readdir_r path errno (by simp) failed
    rw [excluded] at visible
    cases visible
  · intro failed
    have visible := outside clock .closedir path errno (by simp) failed
    rw [excluded] at visible
    cases visible

section Searching

variable (environment) in
/-- The calls of a search, which opens nothing: all work, or the last one fails on the current path. -/
def Searched (next : FilesystemIterator) (machine after : Machine) : Prop :=
  ∃ issued, after.issued = machine.issued ++ issued ∧ (∀ call ∈ issued, call.call ≠ .opendir) ∧
    (next.is_err_ = false ∧ (∀ call ∈ issued, ¬ call.Failed) ∨
      next.is_end_ = true ∧ next.is_err_ = true ∧ ∃ clock call errno,
        call ∈ [Syscall.lstat, .readdir_r, .closedir] ∧ environment.reply clock call next.names_ = .failed errno)

theorem Searched.nothing {next : FilesystemIterator} {machine : Machine} (clean : next.is_err_ = false) :
    Searched environment next machine machine :=
  ⟨[], (List.append_nil _).symm, by simp, .inl ⟨clean, by simp⟩⟩

theorem Searched.worked {next : FilesystemIterator} {machine : Machine} {call : Syscall} {path : Path}
    {count : ℕ} (search : call ∈ [Syscall.lstat, .readdir_r, .closedir]) (clean : next.is_err_ = false) :
    Searched environment next machine (machine.log ⟨call, path, .ok count⟩) := by
  refine ⟨[⟨call, path, .ok count⟩], rfl, ?_, .inl ⟨clean, ?_⟩⟩
  · rw [List.forall_mem_singleton]
    rintro rfl
    simp at search
  · rw [List.forall_mem_singleton]
    exact IssuedCall.Failed.not_ok

theorem Searched.failed {next : FilesystemIterator} {machine : Machine} {call : Syscall} {errno : Errno}
    {clock : ℕ} (search : call ∈ [Syscall.lstat, .readdir_r, .closedir]) (isEnd : next.is_end_ = true)
    (isErr : next.is_err_ = true) (failed : environment.reply clock call next.names_ = .failed errno) :
    Searched environment next machine (machine.log ⟨call, next.names_, .failed errno⟩) := by
  refine ⟨[⟨call, next.names_, .failed errno⟩], rfl, ?_, .inr ⟨isEnd, isErr, clock, call, errno, search, failed⟩⟩
  rw [List.forall_mem_singleton]
  rintro rfl
  simp at search

theorem Searched.trans {middle next : FilesystemIterator} {machine between after : Machine}
    (first : Searched environment middle machine between) (clean : middle.is_err_ = false)
    (second : Searched environment next between after) : Searched environment next machine after := by
  obtain ⟨issued, same, closed, ⟨-, fine⟩ | ⟨-, isErr, -⟩⟩ := first
  · obtain ⟨more, same', closed', outcome⟩ := second
    refine ⟨issued ++ more, ?_, ?_, ?_⟩
    · rw [same', same, List.append_assoc]
    · exact List.forall_mem_append.mpr ⟨closed, closed'⟩
    · rcases outcome with ⟨clean', fine'⟩ | failed
      · exact .inl ⟨clean', List.forall_mem_append.mpr ⟨fine, fine'⟩⟩
      · exact .inr failed
  · rw [clean] at isErr
    cases isErr

variable (tree) in
theorem scan_searched (names : List String) (iter : FilesystemIterator) (machine : Machine)
    (clean : iter.is_err_ = false) {status : ScanStatus} {next : FilesystemIterator} {after : Machine}
    (scanned : scan tree environment names iter machine = (status, next, after)) :
    Searched environment next machine after := by
  induction names generalizing iter machine with
  | nil =>
    simp only [scan, Machine.issue] at scanned
    cases read : environment.reply machine.clock .readdir_r iter.names_ with
    | ok count =>
      rw [read] at scanned
      cases scanned
      exact .worked (by simp) clean
    | failed errno =>
      rw [read] at scanned
      cases scanned
      exact .failed (by simp) rfl rfl read
  | cons name more ih =>
    simp only [scan, Machine.issue] at scanned
    cases read : environment.reply machine.clock .readdir_r iter.names_ with
    | failed errno =>
      rw [read] at scanned
      cases scanned
      exact .failed (by simp) rfl rfl read
    | ok count =>
      rw [read] at scanned
      dsimp only at scanned
      have first : Searched environment iter machine (machine.log ⟨.readdir_r, iter.names_, .ok count⟩) :=
        .worked (by simp) clean
      apply first.trans clean
      generalize machine.log ⟨.readdir_r, iter.names_, .ok count⟩ = between at scanned
      cases known : environment.reply between.clock .lstat (iter.names_ ++ [name]) with
      | failed errno =>
        rw [known] at scanned
        cases scanned
        exact .failed (by simp) rfl rfl known
      | ok found =>
        rw [known] at scanned
        dsimp only at scanned
        split at scanned
        · cases scanned
          exact .worked (by simp) clean
        · have second : Searched environment iter between
              (between.log ⟨.lstat, iter.names_ ++ [name], .ok found⟩) := .worked (by simp) clean
          refine second.trans clean (ih _ _ ?_ scanned)
          exact clean

theorem climb_searched (dirs : List (List String)) (iter : FilesystemIterator) (machine : Machine)
    (clean : iter.is_err_ = false) {next : FilesystemIterator} {after : Machine}
    (climbed : climb tree environment dirs iter machine = some (next, after)) :
    Searched environment next machine after := by
  induction dirs generalizing iter machine with
  | nil => cases climbed
  | cons names outer ih =>
    obtain ⟨status, middle, between, scanned, -, outcome⟩ := scan_scanned tree environment names iter machine
    have first := scan_searched tree names iter machine clean scanned
    simp only [climb, scanned] at climbed
    cases outcome with
    | found skipped split skips =>
      cases climbed
      exact first
    | unread dirs_ stbuf_ failed =>
      cases climbed
      exact first
    | unknown stbuf_ skipped split =>
      cases climbed
      exact first
    | exhausted dirs_ stbuf_ skipped =>
      simp only [Machine.issue] at climbed
      apply first.trans clean
      cases closed : environment.reply between.clock .closedir iter.names_ with
      | failed errno =>
        rw [closed] at climbed
        cases climbed
        exact .failed (by simp) rfl rfl closed
      | ok count =>
        rw [closed] at climbed
        dsimp only at climbed
        have second : Searched environment iter between (between.log ⟨.closedir, iter.names_, .ok count⟩) :=
          .worked (by simp) clean
        split at climbed
        · split at climbed
          · cases climbed
          · cases climbed
            exact .worked (by simp) clean
        · split at climbed
          · cases climbed
          · apply second.trans clean
            exact ih { iter with dirs_ := outer, names_ := iter.names_.dropLast, stbuf_ } _ clean climbed

end Searching

section Increment

/-- The calls that were made: they worked, and only after an error others came, which opened nothing. -/
def Made (next : FilesystemIterator) (issued : List IssuedCall) : Prop :=
  ∃ calm rest, issued = calm ++ rest ∧ (∀ call ∈ calm, ¬ call.Failed) ∧ (∀ call ∈ rest, ¬ call.Opened) ∧
    (next.is_err_ = false → rest = [])

theorem Made.append {next : FilesystemIterator} {before issued : List IssuedCall}
    (fine : ∀ call ∈ before, ¬ call.Failed) (made : Made next issued) : Made next (before ++ issued) := by
  obtain ⟨calm, rest, rfl, calm_fine, closed, clean⟩ := made
  refine ⟨before ++ calm, rest, ?_, ?_, closed, clean⟩
  · rw [List.append_assoc]
  · exact List.forall_mem_append.mpr ⟨fine, calm_fine⟩

/-- Without an error every call worked. -/
theorem Made.fine {next : FilesystemIterator} {issued : List IssuedCall} (made : Made next issued)
    (clean : next.is_err_ = false) : ∀ call ∈ issued, ¬ call.Failed := by
  obtain ⟨calm, rest, rfl, calm_fine, -, nothing⟩ := made
  rw [nothing clean, List.append_nil]
  exact calm_fine

theorem Made.failsCleanly {next : FilesystemIterator} {machine : Machine} (made : Made next machine.issued)
    (errEnds : next.is_err_ = true → next.is_end_ = true) : next.FailsCleanly machine := by
  constructor
  · rintro ⟨issued, inside, failed⟩
    cases isErr : next.is_err_ with
    | true => exact ⟨errEnds isErr, rfl⟩
    | false => exact absurd failed (made.fine isErr issued inside)
  · obtain ⟨calm, rest, same, calm_fine, closed, -⟩ := made
    rw [same, List.pairwise_append]
    refine ⟨?_, ?_, ?_⟩
    · exact List.pairwise_of_forall_mem_list fun earlier inside _ _ failed =>
        absurd failed (calm_fine earlier inside)
    · exact List.pairwise_of_forall_mem_list fun _ _ later inside _ => closed later inside
    · intro earlier inside later _ failed
      exact absurd failed (calm_fine earlier inside)

/-- What an increment does, errors included, with so many paths to come before it. -/
structure Progressed (tree : SourceTree) (weight : ℕ) (next : FilesystemIterator) (machine after : Machine) :
    Prop where
  made : ∃ issued, after.issued = machine.issued ++ issued ∧ Made next issued
  errEnds : next.is_err_ = true → next.is_end_ = true
  ready : next.is_end_ = false → next.Ready tree ∧ next.pendingWeight tree < weight

theorem Progressed.after {weight lighter : ℕ} {next : FilesystemIterator} {machine between after : Machine}
    {issued : List IssuedCall} (same : between.issued = machine.issued ++ issued)
    (fine : ∀ call ∈ issued, ¬ call.Failed) (progressed : Progressed tree lighter next between after)
    (less : lighter ≤ weight) : Progressed tree weight next machine after := by
  obtain ⟨⟨more, same', made⟩, errEnds, ready⟩ := progressed
  refine ⟨⟨issued ++ more, ?_, made.append fine⟩, errEnds, fun running => ?_⟩
  · rw [same', same, List.append_assoc]
  · obtain ⟨readyNext, fewer⟩ := ready running
    exact ⟨readyNext, Nat.lt_of_lt_of_le fewer less⟩

theorem Progressed.of_searched {weight : ℕ} {next : FilesystemIterator} {machine after : Machine}
    (searched : Searched environment next machine after) (errEnds : next.is_err_ = true → next.is_end_ = true)
    (ready : next.is_end_ = false → next.Ready tree ∧ next.pendingWeight tree < weight) :
    Progressed tree weight next machine after := by
  obtain ⟨issued, same, closed, ⟨clean, fine⟩ | ⟨-, isErr, -⟩⟩ := searched
  · exact ⟨⟨issued, same, issued, [], (List.append_nil _).symm, fine, by simp, fun _ => rfl⟩, errEnds, ready⟩
  · refine ⟨⟨issued, same, [], issued, rfl, by simp, fun call inside opened => ?_, fun clean => ?_⟩, errEnds, ready⟩
    · exact closed call inside opened.1
    · rw [isErr] at clean
      cases clean

/-- A search with an error is not on an excluded path. -/
theorem Searched.visible (outside : FailsOutside environment excl_prefixes_) {next : FilesystemIterator}
    {machine after : Machine} (searched : Searched environment next machine after) (isErr : next.is_err_ = true) :
    isExcluded excl_prefixes_ next.names_ = false := by
  obtain ⟨-, -, -, ⟨clean, -⟩ | ⟨-, -, clock, call, errno, search, failed⟩⟩ := searched
  · rw [clean] at isErr
    cases isErr
  · exact outside clock call next.names_ errno search failed

/-- One increment from a state without an error, given as many turns as there are paths to come. -/
theorem Increment_progressed (outside : FailsOutside environment excl_prefixes_)
    (rootVisible : isExcluded excl_prefixes_ [] = false) (depth : ℕ) (iter : FilesystemIterator)
    (machine : Machine) (ready : iter.Ready tree) (clean : iter.is_err_ = false)
    (enough : iter.pendingWeight tree < depth) :
    ∃ next after, iter.Increment tree environment excl_prefixes_ depth machine = some (next, after) ∧
      Progressed tree (iter.pendingWeight tree) next machine after := by
  induction depth generalizing iter machine with
  | zero => omega
  | succ depth ih =>
    have goesOn {inner : FilesystemIterator} (before : Machine)
        (length : inner.dirs_.length = inner.names_.length + 1) (running : inner.is_end_ = false)
        (cleanInner : inner.is_err_ = false)
        (lighter : remainingWeight tree inner.dirs_ inner.names_ ≤ iter.pendingWeight tree) : ∃ next after,
        ((inner.IncrementInternal tree environment before).bind fun found =>
          if isExcluded excl_prefixes_ found.1.names_ then
            found.1.Increment tree environment excl_prefixes_ depth found.2
          else some found) = some (next, after) ∧
        Progressed tree (iter.pendingWeight tree) next before after := by
      obtain ⟨middle, later, climbed, -, outcome⟩ :=
        climb_climbed tree outside.skipsCleanly inner.dirs_ inner before rfl length
      have searched := climb_searched inner.dirs_ inner before cleanInner climbed
      rw [IncrementInternal, if_neg (not_not_intro length), climbed, Option.bind_some]
      dsimp only
      cases outcome with
      | moved aligned fresh sameEnd sameErr less covers =>
        rw [running] at sameEnd
        rw [cleanInner] at sameErr
        have readyMiddle : middle.Ready tree := ⟨aligned, by rw [sameEnd, sameErr], fun _ => fresh⟩
        split
        · obtain ⟨issued, same, -, ⟨-, fine⟩ | ⟨-, isErr, -⟩⟩ := searched
          · obtain ⟨next, after, incremented, progressed⟩ := ih middle later readyMiddle sameErr (by omega)
            exact ⟨next, after, incremented, progressed.after same fine (by omega)⟩
          · rw [sameErr] at isErr
            cases isErr
        · refine ⟨middle, later, rfl, .of_searched searched (fun isErr => ?_) fun _ => ?_⟩
          · rw [sameErr] at isErr
            cases isErr
          · exact ⟨readyMiddle, Nat.lt_of_lt_of_le less lighter⟩
      | strayed aligned isEnd isErr less =>
        rw [searched.visible outside isErr]
        refine ⟨middle, later, rfl, .of_searched searched (fun _ => isEnd) fun running => ?_⟩
        rw [isEnd] at running
        cases running
      | stopped isEnd isErr visible =>
        rw [visible]
        refine ⟨middle, later, rfl, .of_searched searched (fun _ => isEnd) fun running => ?_⟩
        rw [isEnd] at running
        cases running
      | ended root isEnd sameErr nothing =>
        rw [root, rootVisible]
        refine ⟨middle, later, rfl, .of_searched searched (fun _ => isEnd) fun running => ?_⟩
        rw [isEnd] at running
        cases running
    have running : iter.is_end_ = false := ready.ends.trans clean
    have skipsOver {before : Machine} {issued : List IssuedCall} (same : before.issued = machine.issued ++ issued)
        (fine : ∀ call ∈ issued, ¬ call.Failed) : ∃ next after,
        (if iter.names_ = [] then some ({ iter with is_end_ := true }, before)
          else (IncrementInternal tree environment
              { iter with names_ := iter.names_.dropLast } before).bind fun found =>
            if isExcluded excl_prefixes_ found.1.names_ then
              found.1.Increment tree environment excl_prefixes_ depth found.2
            else some found) = some (next, after) ∧
        Progressed tree (iter.pendingWeight tree) next machine after := by
      split
      · refine ⟨_, _, rfl, ⟨issued, same, ?_⟩, fun _ => rfl, fun running => ?_⟩
        · exact ⟨issued, [], (List.append_nil _).symm, fine, by simp, fun _ => rfl⟩
        · cases running
      · next nonempty =>
        have length : iter.dirs_.length = iter.names_.dropLast.length + 1 := by
          have positive := List.length_pos_iff.mpr nonempty
          have aligned : iter.dirs_.length = iter.names_.length := ready.aligned
          rw [List.length_dropLast, aligned]
          omega
        obtain ⟨next, after, incremented, progressed⟩ :=
          @goesOn { iter with names_ := iter.names_.dropLast } before length running clean (Nat.le_add_left _ _)
        exact ⟨next, after, incremented, progressed.after same fine le_rfl⟩
    simp only [Increment]
    cases descends : iter.descends tree with
    | false => exact skipsOver (List.append_nil _).symm (by simp)
    | true =>
      rw [if_pos rfl]
      have opened : ∃ reply, iter.opendir tree environment machine =
          (reply, machine.log ⟨.opendir, iter.names_, reply⟩) := by
        rw [opendir]
        split <;> exact ⟨_, rfl⟩
      obtain ⟨reply, opened⟩ := opened
      rw [opened]
      have missing {errno : Errno} (known : errno = .ENOENT ∨ errno = .ENOTDIR) :
          ∀ call ∈ [IssuedCall.mk .opendir iter.names_ (.failed errno)], ¬ call.Failed := by
        rw [List.forall_mem_singleton]
        rintro ⟨other, same, unknown⟩
        cases same
        exact unknown ⟨rfl, known⟩
      cases reply with
      | ok count =>
        obtain ⟨next, after, incremented, progressed⟩ :=
          @goesOn { iter with dirs_ := (tree.file iter.names_).entries :: iter.dirs_ }
            (machine.log ⟨.opendir, iter.names_, .ok count⟩) (congrArg (· + 1) ready.aligned) running clean le_rfl
        refine ⟨next, after, incremented, progressed.after rfl ?_ le_rfl⟩
        rw [List.forall_mem_singleton]
        exact IssuedCall.Failed.not_ok
      | failed errno =>
        cases errno with
        | ENOTDIR => exact skipsOver rfl (missing (.inr rfl))
        | ENOENT => exact skipsOver rfl (missing (.inl rfl))
        | other number =>
          refine ⟨_, _, rfl, ⟨_, rfl, [], _, rfl, by simp, ?_, fun clean => ?_⟩, fun _ => rfl, fun running => ?_⟩
          · rw [List.forall_mem_singleton]
            rintro ⟨-, count, worked⟩
            cases worked
          · cases clean
          · cases running

end Increment

section Walk

/-- What a loop over an iterator keeps. -/
structure Walked (tree : SourceTree) (iter : FilesystemIterator) (machine : Machine) : Prop where
  made : Made iter machine.issued
  errEnds : iter.is_err_ = true → iter.is_end_ = true
  ready : iter.is_end_ = false → iter.Ready tree ∧ iter.pendingWeight tree < tree.weight []

variable (tree environment) in
theorem new_walked (machine : Machine) (first : machine.issued = []) :
    Walked tree (new tree environment machine).1 (new tree environment machine).2 := by
  rw [new, Machine.issue]
  cases known : environment.reply machine.clock .lstat [] with
  | ok count =>
    refine ⟨⟨_, [], (List.append_nil _).symm, ?_, by simp, fun _ => rfl⟩, fun isErr => ?_, fun _ => ?_⟩
    · dsimp only
      rw [Machine.log_issued, first, List.nil_append, List.forall_mem_singleton]
      exact IssuedCall.Failed.not_ok
    · cases isErr
    · refine ⟨⟨rfl, rfl, fun _ => rfl⟩, ?_⟩
      rw [SourceTree.weight_eq, pendingWeight]
      simp only [remainingWeight, awaitedWeight]
      omega
  | failed errno =>
    refine ⟨⟨[], [⟨.lstat, [], .failed errno⟩], ?_, by simp, ?_, fun clean => ?_⟩, fun _ => rfl, fun running => ?_⟩
    · dsimp only
      rw [Machine.log_issued, first]
    · rw [List.forall_mem_singleton]
      rintro ⟨-, count, worked⟩
      cases worked
    · cases clean
    · cases running

theorem isExcluded_root (nonempty : ∀ start ∈ excl_prefixes_, start ≠ "") :
    isExcluded excl_prefixes_ [] = false := by
  rw [isExcluded, List.any_eq_false]
  intro start inside starts
  rw [StringHasPrefix, List.isPrefixOf_iff_prefix] at starts
  have short : start.toList = [] := List.prefix_nil.mp starts
  exact nonempty start inside (String.toList_eq_nil_iff.mp short)

variable (tree) in
theorem walk_walked (outside : FailsOutside environment excl_prefixes_)
    (rootVisible : isExcluded excl_prefixes_ [] = false) (count : ℕ) : ∃ iter machine,
    walk tree environment excl_prefixes_ (tree.weight []) count = some (iter, machine) ∧
      Walked tree iter machine := by
  induction count with
  | zero => exact ⟨_, _, rfl, new_walked tree environment _ rfl⟩
  | succ count ih =>
    obtain ⟨iter, machine, walked, kept⟩ := ih
    rw [walk, walked]
    simp only [Option.bind_eq_bind, Option.bind_some]
    cases isEnd : iter.is_end_ with
    | true => exact ⟨iter, machine, rfl, kept⟩
    | false =>
      obtain ⟨ready, enough⟩ := kept.ready isEnd
      have clean : iter.is_err_ = false := ready.ends.symm.trans isEnd
      obtain ⟨next, after, incremented, ⟨issued, same, made⟩, errEnds, readyNext⟩ :=
        Increment_progressed outside rootVisible _ iter machine ready clean enough
      rw [if_neg Bool.false_ne_true]
      refine ⟨next, after, incremented, ?_, errEnds, fun running => ?_⟩
      · rw [same]
        exact made.append (kept.made.fine clean)
      · obtain ⟨ready', fewer⟩ := readyNext running
        exact ⟨ready', Nat.lt_trans fewer enough⟩

/-- The root cannot be read. -/
def unreadableRoot : Environment where
  reply _ call path := if call = .readdir_r ∧ path = [] then .failed (.other 5) else .ok 0
  exitAt := none

/-- An excluded directory cannot be read. -/
def unreadableExcluded : Environment where
  reply _ call path := if call = .readdir_r ∧ path = ["lost+found"] then .failed (.other 5) else .ok 0
  exitAt := none

end Walk

end FilesystemIterator

end ChromiumOS.UpdateEngine
