import ChromiumOS.Model.UpdateEngine.Subprocess
import ChromiumOS.ToMathlib.PartialRun

/-! # Callbacks of subprocesses

Every callback is called when its child exits, once, unless it has been cancelled. The records are
those of the children not collected yet as long as no other tag is cancelled: `CancelExec` looks a tag
up with `operator[]`, which leaves a record behind.
-/

namespace ChromiumOS.UpdateEngine.Session

open PartialRun

variable {session next : Session} {tag : Tag} {child : Child}

/-- The callbacks called on behalf of an `Exec`. -/
def callsOf (session : Session) (exec : ℕ) : List ExecCallback :=
  (session.called.filter fun call => call.callback_data == exec).map Invocation.callback

/-- The callback that an `Exec` came with, if it has one. -/
def callbackOf (session : Session) (exec : ℕ) : Option ExecCallback := session.execs[exec]?.join

/-- The records are those of the children not collected yet, and an `Exec` has had its callback called
once if its child exited before it was cancelled, and not at all otherwise. -/
structure Delivered (session : Session) : Prop where
  keys : ∀ tag, session.subprocess.callback_records_ tag ≠ none ↔ session.children tag ≠ none
  calls : ∀ exec, session.callsOf exec =
    if exec ∈ session.exited ∧ exec ∉ session.cancelled then (session.callbackOf exec).toList else []

/-- The record of a child holds its callback until the child is cancelled or has exited. -/
structure Recorded (session : Session) (tag : Tag) (child : Child) : Prop where
  started : child.exec < session.execs.length
  exited : child.exited = true ↔ child.exec ∈ session.exited
  callback : child.exited = false → session.subprocess.callback_records_ tag =
    some ⟨if child.exec ∈ session.cancelled then none else session.callbackOf child.exec, child.exec⟩

/-- What carries the delivery of callbacks from one event to the next. -/
structure Tracked (session : Session) : Prop extends Delivered session where
  recorded : ∀ tag child, session.children tag = some child → Recorded session tag child
  distinct : ∀ tag other child twin, session.children tag = some child →
    session.children other = some twin → child.exec = twin.exec → tag = other
  exitedBound : ∀ exec ∈ session.exited, exec < session.execs.length
  cancelledBound : ∀ exec ∈ session.cancelled, exec < session.execs.length

theorem initial_tracked : Tracked {} := by
  constructor
  · constructor <;> simp [callsOf]
  all_goals simp

/-- Only tags of children that have not been collected are cancelled. -/
def Timely (session : Session) : Event → Prop
  | .CancelExec tag => session.children tag ≠ none
  | _ => True

theorem exec_tracked {callback : Option ExecCallback} (tracked : session.Tracked) :
    Tracked { session with
      subprocess := session.subprocess.Exec tag callback session.execs.length
      children := Function.update session.children tag (some ⟨session.execs.length, false⟩)
      execs := session.execs ++ [callback] } := by
  have old : ∀ exec, exec < session.execs.length →
      ((session.execs ++ [callback])[exec]?).join = session.callbackOf exec := by
    intro exec started
    rw [callbackOf, List.getElem?_append_left started]
  refine ⟨⟨?_, ?_⟩, ?_, ?_, ?_, ?_⟩
  · intro other
    simp only [Subprocess.Exec, Function.update_apply]
    split
    · simp
    · exact tracked.keys other
  · intro exec
    refine (tracked.calls exec).trans ?_
    dsimp only
    split
    · next finished => exact congrArg Option.toList (old exec (tracked.exitedBound exec finished.1)).symm
    · rfl
  · intro other child watched
    simp only [Function.update_apply] at watched
    split at watched
    · next same =>
      cases watched
      subst same
      refine ⟨by simp, ?_, ?_⟩
      · simpa using fun finished => (tracked.exitedBound _ finished).false
      · intro _
        have fresh : session.execs.length ∉ session.cancelled :=
          fun cancelled => (tracked.cancelledBound _ cancelled).false
        simp [Subprocess.Exec, callbackOf, fresh]
    · next differs =>
      obtain ⟨started, exited, record⟩ := tracked.recorded other child watched
      refine ⟨?_, exited, ?_⟩
      · rw [List.length_append]
        exact Nat.lt_add_right _ started
      · intro running
        simp only [Subprocess.Exec, Function.update_of_ne differs, record running, callbackOf,
          old child.exec started]
  · intro first second child twin watched twinWatched same
    simp only [Function.update_apply] at watched twinWatched
    split at watched <;> split at twinWatched
    · next left right => rw [left, right]
    · cases watched
      exact absurd same.symm (tracked.recorded second twin twinWatched).started.ne
    · cases twinWatched
      exact absurd same (tracked.recorded first child watched).started.ne
    · exact tracked.distinct first second child twin watched twinWatched same
  · intro exec finished
    rw [List.length_append]
    exact Nat.lt_add_right _ (tracked.exitedBound exec finished)
  · intro exec cancelled
    rw [List.length_append]
    exact Nat.lt_add_right _ (tracked.cancelledBound exec cancelled)

/-- A lookup of a key that is there changes nothing. -/
theorem record_eq {subprocess : Subprocess} {record : SubprocessCallbackRecord}
    (found : subprocess.callback_records_ tag = some record) :
    subprocess.record tag = (record, subprocess) := by
  rw [Subprocess.record, found]

theorem childExited_tracked {exec : ℕ} (status : ℤ) (tracked : session.Tracked)
    (watched : session.children tag = some ⟨exec, false⟩) :
    Tracked { session with
      subprocess := (session.subprocess.childExited tag status).2
      children := Function.update session.children tag (some ⟨exec, true⟩)
      exited := insert exec session.exited
      called := session.called ++ (session.subprocess.childExited tag status).1.toList } := by
  obtain ⟨started, exited, record⟩ := tracked.recorded tag _ watched
  have running : exec ∉ session.exited := fun finished => nomatch exited.mpr finished
  have dispatched : session.subprocess.childExited tag status =
      ((if exec ∈ session.cancelled then none else session.callbackOf exec).map fun callback =>
        ⟨callback, status, exec⟩, session.subprocess) := by
    rw [Subprocess.childExited, record_eq (record rfl)]
  simp only [dispatched]
  refine ⟨⟨?_, ?_⟩, ?_, ?_, ?_, tracked.cancelledBound⟩
  · intro other
    simp only [Function.update_apply]
    split
    · next same => simp [same, record rfl]
    · exact tracked.keys other
  · intro other
    have before := tracked.calls other
    simp only [callsOf, callbackOf, List.filter_append, List.map_append] at before ⊢
    by_cases same : other = exec
    · subst same
      rw [if_neg fun finished => running finished.1] at before
      rw [before, List.nil_append]
      by_cases cancelled : other ∈ session.cancelled
      · simp [cancelled]
      · cases session.execs[other]?.join <;> simp [cancelled]
    · rw [before]
      have others : ((Option.map (fun callback => (⟨callback, status, exec⟩ : Invocation))
          (if exec ∈ session.cancelled then none else session.execs[exec]?.join)).toList.filter
            fun call => call.callback_data == other) = [] := by
        rw [List.filter_eq_nil_iff]
        intro call inside
        rw [Option.mem_toList, Option.map_eq_some_iff] at inside
        obtain ⟨callback, -, rfl⟩ := inside
        simpa using Ne.symm same
      rw [others]
      simp [same]
  · intro other child otherWatched
    simp only [Function.update_apply] at otherWatched
    split at otherWatched
    · cases otherWatched
      exact ⟨started, by simp, nofun⟩
    · next differs =>
      have distinct : child.exec ≠ exec := fun same =>
        differs (tracked.distinct other tag child _ otherWatched watched same)
      obtain ⟨otherStarted, otherExited, otherRecord⟩ := tracked.recorded other child otherWatched
      exact ⟨otherStarted, by simpa [distinct] using otherExited, otherRecord⟩
  · intro first second child twin firstWatched secondWatched same
    simp only [Function.update_apply] at firstWatched secondWatched
    split at firstWatched <;> split at secondWatched
    · next left right => rw [left, right]
    · next left right =>
      cases firstWatched
      rw [left]
      exact tracked.distinct tag second _ twin watched secondWatched same
    · next left right =>
      cases secondWatched
      rw [right]
      exact tracked.distinct first tag child _ firstWatched watched same
    · exact tracked.distinct first second child twin firstWatched secondWatched same
  · intro other finished
    rcases Finset.mem_insert.mp finished with rfl | earlier
    · exact started
    · exact tracked.exitedBound other earlier

theorem childCollected_tracked (tracked : session.Tracked) :
    Tracked { session with
      subprocess := session.subprocess.childCollected tag
      children := Function.update session.children tag none } := by
  refine ⟨⟨?_, tracked.calls⟩, ?_, ?_, tracked.exitedBound, tracked.cancelledBound⟩
  · intro other
    simp only [Subprocess.childCollected, Function.update_apply]
    split
    · simp
    · exact tracked.keys other
  · intro other child watched
    simp only [Function.update_apply] at watched
    split at watched
    · exact nomatch watched
    · next differs =>
      obtain ⟨started, exited, record⟩ := tracked.recorded other child watched
      refine ⟨started, exited, ?_⟩
      intro running
      simp only [Subprocess.childCollected, Function.update_of_ne differs]
      exact record running
  · intro first second child twin firstWatched secondWatched
    simp only [Function.update_apply] at firstWatched secondWatched
    split at firstWatched
    · exact nomatch firstWatched
    · split at secondWatched
      · exact nomatch secondWatched
      · exact tracked.distinct first second child twin firstWatched secondWatched

/-- Cancelling a tag that has a record clears the callback of the record. -/
theorem CancelExec_eq {subprocess : Subprocess} {record : SubprocessCallbackRecord}
    (found : subprocess.callback_records_ tag = some record) (other : Tag) :
    (subprocess.CancelExec tag).callback_records_ other =
      if other = tag then some { record with callback := none }
      else subprocess.callback_records_ other := by
  simp only [Subprocess.CancelExec, record_eq found]
  split
  · exact Function.update_apply ..
  · next unset =>
    split
    · next same =>
      rw [same, found]
      cases record with
      | mk callback data =>
        cases callback with
        | none => rfl
        | some callback => exact absurd rfl unset
    · rfl

/-- Cancelling any other tag leaves an empty record behind. -/
theorem CancelExec_stale {subprocess : Subprocess} (absent : subprocess.callback_records_ tag = none) :
    (subprocess.CancelExec tag).callback_records_ tag = some {} := by
  simp [Subprocess.CancelExec, Subprocess.record, absent]

theorem cancelExec_keys (tracked : session.Tracked) (watched : session.children tag = some child)
    (other : Tag) : (session.subprocess.CancelExec tag).callback_records_ other ≠ none ↔
      session.children other ≠ none := by
  obtain ⟨record, found⟩ := Option.ne_none_iff_exists'.mp
    ((tracked.keys tag).mpr (by rw [watched]; exact nofun))
  rw [CancelExec_eq found]
  split
  · next same => simp [same, watched]
  · exact tracked.keys other

theorem cancelExec_tracked {exec : ℕ} (tracked : session.Tracked)
    (watched : session.children tag = some ⟨exec, false⟩) :
    Tracked { session with
      subprocess := session.subprocess.CancelExec tag
      cancelled := insert exec session.cancelled } := by
  obtain ⟨started, exited, record⟩ := tracked.recorded tag _ watched
  have running : exec ∉ session.exited := fun finished => nomatch exited.mpr finished
  refine ⟨⟨cancelExec_keys tracked watched, ?_⟩, ?_, tracked.distinct, tracked.exitedBound, ?_⟩
  · intro other
    refine (tracked.calls other).trans ?_
    by_cases same : other = exec
    · subst same
      simp [running]
    · simp [same, callbackOf]
  · intro other child otherWatched
    obtain ⟨otherStarted, otherExited, otherRecord⟩ := tracked.recorded other child otherWatched
    refine ⟨otherStarted, otherExited, ?_⟩
    intro otherRunning
    simp only [CancelExec_eq (record rfl)]
    split
    · next same =>
      subst same
      cases watched.symm.trans otherWatched
      simp
    · next differs =>
      have distinct : child.exec ≠ exec := fun same =>
        differs (tracked.distinct other tag child _ otherWatched watched same)
      simpa [distinct, callbackOf] using otherRecord otherRunning
  · intro other cancelled
    rcases Finset.mem_insert.mp cancelled with rfl | earlier
    · exact started
    · exact tracked.cancelledBound other earlier

/-- Cancelling a child that has exited makes no difference: its callback has been called. -/
theorem cancelExec_exited_tracked {exec : ℕ} (tracked : session.Tracked)
    (watched : session.children tag = some ⟨exec, true⟩) :
    Tracked { session with subprocess := session.subprocess.CancelExec tag } := by
  obtain ⟨record, found⟩ := Option.ne_none_iff_exists'.mp
    ((tracked.keys tag).mpr (by rw [watched]; exact nofun))
  refine ⟨⟨cancelExec_keys tracked watched, tracked.calls⟩, ?_, tracked.distinct, tracked.exitedBound,
    tracked.cancelledBound⟩
  intro other child otherWatched
  obtain ⟨started, exited, otherRecord⟩ := tracked.recorded other child otherWatched
  refine ⟨started, exited, ?_⟩
  intro running
  simp only [CancelExec_eq found]
  split
  · next same =>
    subst same
    cases watched.symm.trans otherWatched
    exact nomatch running
  · exact otherRecord running

theorem step_tracked (event : Event) (tracked : session.Tracked) (timely : Timely session event)
    (stepped : session.step event = some next) : next.Tracked := by
  cases event with
  | Exec callback spawned =>
    cases spawned with
    | none =>
      cases stepped
      exact tracked
    | some tag =>
      simp only [step] at stepped
      split at stepped
      · cases stepped
        exact exec_tracked tracked
      · exact nomatch stepped
  | childExited tag status =>
    simp only [step] at stepped
    split at stepped
    · next watched =>
      cases stepped
      exact childExited_tracked status tracked watched
    · exact nomatch stepped
  | childCollected tag =>
    simp only [step] at stepped
    split at stepped
    · cases stepped
      exact childCollected_tracked tracked
    · exact nomatch stepped
  | CancelExec tag =>
    obtain ⟨⟨exec, exited⟩, watched⟩ := Option.ne_none_iff_exists'.mp timely
    cases exited with
    | false =>
      simp only [step, watched] at stepped
      cases stepped
      exact cancelExec_tracked tracked watched
    | true =>
      simp only [step, watched] at stepped
      cases stepped
      exact cancelExec_exited_tracked tracked watched

theorem step_stale (event : Event) (tracked : session.Tracked) (late : ¬ Timely session event) :
    ∃ next, session.step event = some next ∧ ¬ next.Delivered := by
  cases event with
  | Exec callback spawned => exact absurd trivial late
  | childExited tag status => exact absurd trivial late
  | childCollected tag => exact absurd trivial late
  | CancelExec tag =>
    have unwatched : session.children tag = none := not_not.mp late
    have absent : session.subprocess.callback_records_ tag = none := by
      by_contra present
      exact (tracked.keys tag).mp present unwatched
    refine ⟨{ session with subprocess := session.subprocess.CancelExec tag }, ?_, ?_⟩
    · simp only [step, unwatched]
    · intro delivered
      exact (delivered.keys tag).mp (by simp only [CancelExec_stale absent]; exact nofun) unwatched

/-- Callbacks are delivered and the records are those of the children not collected yet, all along,
exactly when only tags of such children are cancelled. -/
theorem delivered_iff (events : List Event) :
    Always step Delivered {} events ↔ Throughout step Timely {} events :=
  always_iff_throughout Tracked (fun _ tracked => tracked.toDelivered)
    (fun _ event _ tracked timely stepped => step_tracked event tracked timely stepped)
    (fun _ event tracked late => step_stale event tracked late) initial_tracked events

/-- Cancelling a child that has been collected leaves a record without a child. -/
theorem late_cancel_leaves_record :
    ¬ Always step Delivered {}
      [.Exec (some 1) (some 7), .childExited 7 0, .childCollected 7, .CancelExec 7] := by
  intro always
  have stale : (run step {} [.Exec (some 1) (some 7), .childExited 7 0, .childCollected 7,
      .CancelExec 7]).any (fun session => (session.subprocess.callback_records_ 7).isSome &&
        (session.children 7).isNone) = true := by decide
  obtain ⟨last, reached, left⟩ := (Option.any_eq_true _ _).mp stale
  rw [Bool.and_eq_true, Option.isSome_iff_ne_none, Option.isNone_iff_eq_none] at left
  exact ((always _ List.prefix_rfl last reached).keys 7).mp left.1 left.2

end ChromiumOS.UpdateEngine.Session
