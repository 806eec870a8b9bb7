import ChromiumOS.Model.WindowManager.MotionEventCoalescer

/-! # No final position is lost

A drag is a session from `Start` to `Stop`, with positions stored and timer ticks in between. The position
that `Start` leaves is `(-1, -1)`, so storing it first is no news to the coalescer: a drag that never leaves
that position is over without a callback.
-/

namespace ChromiumOS.WindowManager.MotionEventCoalescer

/-- What happens between `Start` and `Stop`. -/
inductive Motion where
  | StorePosition (x y : ℤ)
  | tick
deriving DecidableEq

/-- What is observed: a position stored, or the timer handled and the position that the callback saw. -/
inductive Observed where
  | stored (position : ℤ × ℤ)
  | handled (seen : Option (ℤ × ℤ))
deriving DecidableEq

def perform (coalescer : MotionEventCoalescer) : Motion → MotionEventCoalescer × Observed
  | .StorePosition x y => (coalescer.StorePosition x y, .stored (x, y))
  | .tick => (coalescer.HandleTimer.1, .handled coalescer.HandleTimer.2)

/-- The coalescer after some motions and what was observed. -/
def performAll (coalescer : MotionEventCoalescer) : List Motion → MotionEventCoalescer × List Observed
  | [] => (coalescer, [])
  | motion :: motions =>
    let (next, observed) := coalescer.perform motion
    let (last, trace) := next.performAll motions
    (last, observed :: trace)

/-- A whole drag. -/
def session (coalescer : MotionEventCoalescer) (motions : List Motion) : MotionEventCoalescer × List Observed :=
  let (moved, trace) := coalescer.Start.performAll motions
  let (stopped, seen) := moved.Stop
  (stopped, trace ++ [.handled seen])

/-- Some drags with one coalescer. -/
def sessions (coalescer : MotionEventCoalescer) : List (List Motion) → List (List Observed)
  | [] => []
  | motions :: later =>
    let (stopped, trace) := coalescer.session motions
    trace :: stopped.sessions later

section History

/-- The last position stored, the last one that the callback saw, and whether a position other than that was
stored since. -/
structure History where
  stored : Option (ℤ × ℤ)
  seen : Option (ℤ × ℤ)
  fresh : Bool

def History.note (history : History) : Observed → History
  | .stored position =>
    { history with stored := some position, fresh := history.fresh || decide (history.seen ≠ some position) }
  | .handled none => history
  | .handled (some position) => { history with seen := some position, fresh := false }

def historyOf (trace : List Observed) : History := trace.foldl History.note ⟨none, none, false⟩

@[simp] theorem historyOf_append (trace : List Observed) (observed : Observed) :
    historyOf (trace ++ [observed]) = (historyOf trace).note observed := by
  rw [historyOf, List.foldl_append]
  rfl

/-- The callback sees the last position stored, and only when something new was stored. -/
def SeesLast (trace : List Observed) : Prop :=
  ∀ before position after, trace = before ++ .handled (some position) :: after →
    (historyOf before).stored = some position ∧ (historyOf before).fresh = true

/-- Every callback sees the last position, and the position stored last was seen. -/
structure Coalesced (trace : List Observed) : Prop where
  sees : SeesLast trace
  final : (historyOf trace).seen = (historyOf trace).stored

theorem SeesLast.append {trace : List Observed} (sees : SeesLast trace) {observed : Observed}
    (last : ∀ position, observed = .handled (some position) →
      (historyOf trace).stored = some position ∧ (historyOf trace).fresh = true) :
    SeesLast (trace ++ [observed]) := by
  intro before position after same
  rcases List.eq_nil_or_concat' after with rfl | ⟨after, other, rfl⟩
  · obtain ⟨rfl, rest⟩ := List.append_inj' same rfl
    exact last position (List.singleton_inj.mp rest)
  · rw [← List.cons_append, ← List.append_assoc] at same
    exact sees before position after (List.append_inj_left' same rfl)

end History

theorem historyOf_stored_eq_none {trace : List Observed} :
    (historyOf trace).stored = none ↔ ∀ position, .stored position ∉ trace := by
  induction trace using List.reverseRecOn with
  | nil => exact iff_of_true rfl (fun _ => (nomatch ·))
  | append_singleton trace observed ih =>
    rw [historyOf_append]
    cases observed with
    | stored position => exact iff_of_false (nomatch ·) fun absent => absent position (by simp)
    | handled seen =>
      have same : ((historyOf trace).note (.handled seen)).stored = (historyOf trace).stored := by
        cases seen <;> rfl
      rw [same, ih]
      simp

/-- The position that `Start` leaves. -/
def sentinel : ℤ × ℤ := (-1, -1)

/-- Some position is stored, and none but the one that `Start` leaves. -/
def NeverLeaves (motions : List Motion) : Prop :=
  (∃ x y, Motion.StorePosition x y ∈ motions) ∧ ∀ x y, Motion.StorePosition x y ∈ motions → (x, y) = sentinel

/-- The coalescer in the middle of a drag with what was observed of it so far. -/
structure Moving (coalescer : MotionEventCoalescer) (trace : List Observed) : Prop where
  running : coalescer.running = true
  position : (coalescer.x_, coalescer.y_) = (historyOf trace).stored.getD sentinel
  queued : coalescer.have_queued_position_ = true →
    (historyOf trace).stored = some (coalescer.x_, coalescer.y_) ∧ (historyOf trace).fresh = true
  idle : coalescer.have_queued_position_ = false →
    (historyOf trace).seen.getD sentinel = (historyOf trace).stored.getD sentinel
  empty : (historyOf trace).stored = none → (historyOf trace).seen = none
  still : (historyOf trace).seen = none ∧ coalescer.have_queued_position_ = false ↔
    ∀ position, .stored position ∈ trace → position = sentinel
  sees : SeesLast trace

theorem Start_moving {coalescer : MotionEventCoalescer} (idle : coalescer.running = false) :
    Moving coalescer.Start [] := by
  rw [Start, idle, if_neg Bool.false_ne_true]
  constructor
  · rfl
  · rfl
  · exact (nomatch ·)
  · exact fun _ => rfl
  · exact fun _ => rfl
  · exact iff_of_true ⟨rfl, rfl⟩ (fun _ => (nomatch ·))
  · intro before position after same
    cases before <;> cases same

namespace Moving

variable {coalescer : MotionEventCoalescer} {trace : List Observed} (moving : Moving coalescer trace)

include moving

/-- While nothing but the position that `Start` leaves was stored, the coalescer is there. -/
theorem at_sentinel (still : ∀ position, .stored position ∈ trace → position = sentinel) :
    (coalescer.x_, coalescer.y_) = sentinel := by
  obtain ⟨unseen, unqueued⟩ := moving.still.mpr still
  rw [moving.position, ← moving.idle unqueued, unseen]
  rfl

theorem store (x y : ℤ) : Moving (coalescer.StorePosition x y) (trace ++ [.stored (x, y)]) := by
  have sees : SeesLast (trace ++ [.stored (x, y)]) := moving.sees.append (fun _ => (nomatch ·))
  have members : (∀ position, .stored position ∈ trace ++ [.stored (x, y)] → position = sentinel) ↔
      (∀ position, .stored position ∈ trace → position = sentinel) ∧ (x, y) = sentinel := by
    simp [List.mem_append, or_imp, forall_and]
  rw [StorePosition]
  split
  · next same =>
    have same : (x, y) = (coalescer.x_, coalescer.y_) := Prod.ext same.1 same.2
    rw [same] at sees members ⊢
    refine ⟨moving.running, ?_, fun queued => ?_, fun unqueued => ?_, ?_, ?_, sees⟩
    · rw [historyOf_append]
      rfl
    · rw [historyOf_append, History.note, (moving.queued queued).2]
      exact ⟨rfl, rfl⟩
    · rw [historyOf_append, History.note, moving.idle unqueued, ← moving.position]
      rfl
    · rw [historyOf_append]
      exact (nomatch ·)
    · rw [members, historyOf_append, History.note, moving.still]
      exact ⟨fun still => ⟨still, moving.at_sentinel still⟩, And.left⟩
  · next moved =>
    have moved : (x, y) ≠ (coalescer.x_, coalescer.y_) := fun same =>
      moved ⟨congrArg Prod.fst same, congrArg Prod.snd same⟩
    refine ⟨moving.running, ?_, fun _ => ?_, (nomatch ·), ?_, ?_, sees⟩
    · rw [historyOf_append]
      rfl
    · rw [historyOf_append, History.note]
      refine ⟨rfl, ?_⟩
      cases queued : coalescer.have_queued_position_ with
      | true => rw [(moving.queued queued).2, Bool.true_or]
      | false =>
        rw [decide_eq_true, Bool.or_true]
        intro seen
        have idle := moving.idle queued
        rw [seen, ← moving.position] at idle
        exact moved idle
    · rw [historyOf_append]
      exact (nomatch ·)
    · rw [members]
      apply iff_of_false
      · exact fun both => Bool.false_ne_true both.2.symm
      · rintro ⟨still, here⟩
        exact moved (here.trans (moving.at_sentinel still).symm)

theorem handle : Moving coalescer.HandleTimer.1 (trace ++ [.handled coalescer.HandleTimer.2]) := by
  have members (seen : Option (ℤ × ℤ)) :
      (∀ position, .stored position ∈ trace ++ [.handled seen] → position = sentinel) ↔
        ∀ position, .stored position ∈ trace → position = sentinel := by
    simp [List.mem_append]
  cases queued : coalescer.have_queued_position_ with
  | true =>
    obtain ⟨stored, fresh⟩ := moving.queued queued
    have sees : SeesLast (trace ++ [.handled (some (coalescer.x_, coalescer.y_))]) := by
      apply moving.sees.append
      rintro position same
      cases same
      exact ⟨stored, fresh⟩
    rw [HandleTimer, MotionEventCoalescer.queued, queued, if_pos rfl, if_pos rfl]
    refine ⟨moving.running, ?_, (nomatch ·), fun _ => ?_, ?_, ?_, sees⟩
    · rw [historyOf_append, History.note]
      exact moving.position
    · rw [historyOf_append, History.note, stored]
    · rw [historyOf_append, History.note, stored]
      exact (nomatch ·)
    · rw [members, ← moving.still, historyOf_append, queued]
      exact iff_of_false (fun both => nomatch both.1) (fun both => nomatch both.2)
  | false =>
    have sees : SeesLast (trace ++ [.handled none]) := moving.sees.append (fun _ => (nomatch ·))
    rw [HandleTimer, MotionEventCoalescer.queued, queued, if_neg Bool.false_ne_true, if_neg Bool.false_ne_true]
    refine ⟨moving.running, ?_, ?_, ?_, ?_, ?_, sees⟩
    · rw [historyOf_append, History.note]
      exact moving.position
    · rw [historyOf_append, History.note]
      exact moving.queued
    · rw [historyOf_append, History.note]
      exact moving.idle
    · rw [historyOf_append, History.note]
      exact moving.empty
    · rw [members, historyOf_append, History.note]
      exact moving.still

theorem perform (motion : Motion) :
    Moving (coalescer.perform motion).1 (trace ++ [(coalescer.perform motion).2]) := by
  cases motion with
  | StorePosition x y => exact moving.store x y
  | tick => exact moving.handle

/-- With nothing queued, all is coalesced unless the position never left that of `Start`. -/
theorem coalesced_iff (unqueued : coalescer.have_queued_position_ = false) :
    Coalesced trace ↔
      ¬ ((∃ position, .stored position ∈ trace) ∧ ∀ position, .stored position ∈ trace → position = sentinel) := by
  have idle := moving.idle unqueued
  cases seen : (historyOf trace).seen with
  | none =>
    have still := moving.still.mp ⟨seen, unqueued⟩
    rw [and_iff_left still, not_exists, ← historyOf_stored_eq_none]
    constructor
    · exact fun coalesced => coalesced.final.symm.trans seen
    · exact fun unstored => ⟨moving.sees, seen.trans unstored.symm⟩
  | some position =>
    apply iff_of_true
    · refine ⟨moving.sees, ?_⟩
      cases stored : (historyOf trace).stored with
      | none =>
        rw [moving.empty stored] at seen
        cases seen
      | some last =>
        rw [seen, stored] at idle
        rw [seen]
        exact congrArg some idle
    · rintro ⟨-, still⟩
      rw [(moving.still.mpr still).1] at seen
      cases seen

theorem performAll (motions : List Motion) :
    Moving (coalescer.performAll motions).1 (trace ++ (coalescer.performAll motions).2) := by
  induction motions generalizing coalescer trace with
  | nil =>
    rw [MotionEventCoalescer.performAll, List.append_nil]
    exact moving
  | cons motion motions ih =>
    have later := ih (moving.perform motion)
    rw [List.append_assoc] at later
    exact later

end Moving

section Sessions

theorem stored_mem_performAll (coalescer : MotionEventCoalescer) (motions : List Motion) (x y : ℤ) :
    .stored (x, y) ∈ (coalescer.performAll motions).2 ↔ .StorePosition x y ∈ motions := by
  induction motions generalizing coalescer with
  | nil => exact iff_of_false List.not_mem_nil List.not_mem_nil
  | cons motion motions ih =>
    rw [performAll, List.mem_cons, List.mem_cons, ih]
    apply or_congr_left
    cases motion with
    | StorePosition =>
      constructor <;>
      · intro same
        cases same
        rfl
    | tick => exact iff_of_false (nomatch ·) (nomatch ·)

variable {coalescer : MotionEventCoalescer} (idle : coalescer.running = false) (motions : List Motion)

include idle

theorem session_stopped : (coalescer.session motions).1.running = false := by
  have moving := (Start_moving idle).performAll motions
  change (coalescer.Start.performAll motions).1.Stop.1.running = false
  rw [Stop, if_pos moving.running, HandleTimer]
  dsimp only
  split <;> rfl

/-- The timer is handled a last time with what is queued at the end. -/
theorem session_trace : (coalescer.session motions).2 = (coalescer.Start.performAll motions).2 ++
    [.handled (coalescer.Start.performAll motions).1.HandleTimer.2] := by
  have moving := (Start_moving idle).performAll motions
  change (coalescer.Start.performAll motions).2 ++ [.handled (coalescer.Start.performAll motions).1.Stop.2] = _
  rw [Stop, if_pos moving.running]
  rfl

/-- A drag is coalesced unless it never leaves the position that `Start` leaves. -/
theorem session_coalesced_iff : Coalesced (coalescer.session motions).2 ↔ ¬ NeverLeaves motions := by
  have moving := ((Start_moving idle).performAll motions).handle
  have unqueued : (coalescer.Start.performAll motions).1.HandleTimer.1.have_queued_position_ = false := by
    rw [HandleTimer]
    dsimp only
    split
    · rfl
    · next empty => exact Bool.eq_false_iff.mpr empty
  have stored (x y : ℤ) : .stored (x, y) ∈ (coalescer.session motions).2 ↔ .StorePosition x y ∈ motions := by
    rw [session_trace idle, List.mem_append, stored_mem_performAll]
    simp
  rw [List.nil_append, ← session_trace idle] at moving
  rw [moving.coalesced_iff unqueued, NeverLeaves]
  simp only [Prod.exists, Prod.forall, stored]

end Sessions

/-- Every drag with one coalescer is coalesced exactly when none stays where `Start` leaves the position. -/
theorem sessions_coalesced_iff (drags : List (List Motion)) :
    (∀ trace ∈ new.sessions drags, Coalesced trace) ↔ ∀ motions ∈ drags, ¬ NeverLeaves motions := by
  have idle : new.running = false := rfl
  generalize new = coalescer at idle
  induction drags generalizing coalescer with
  | nil => simp [sessions]
  | cons motions drags ih =>
    have later := ih (coalescer.session motions).1 (session_stopped idle motions)
    rw [sessions, List.forall_mem_cons, List.forall_mem_cons]
    exact and_congr (session_coalesced_iff idle motions) later

/-- A drag to the position left and above of the screen's corner only is not seen. -/
theorem corner_not_seen : ¬ ∀ trace ∈ new.sessions [[.StorePosition (-1) (-1), .tick]], Coalesced trace := by
  intro coalesced
  have final := (coalesced _ List.mem_cons_self).final
  revert final
  decide

end ChromiumOS.WindowManager.MotionEventCoalescer
