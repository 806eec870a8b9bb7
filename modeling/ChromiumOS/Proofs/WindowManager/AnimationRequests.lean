import ChromiumOS.Model.WindowManager.Animation
import ChromiumOS.ToMathlib.PartialRun

/-! # The last request for a field

An update evaluates the animations of a field in the order in which they were requested, so the newest one has
the last word while it is there. An older animation that is left behind when the newest one is done, or that
is there when a request takes effect at once, overwrites what was asked for last.
-/

namespace ChromiumOS.WindowManager

section Evaluation

variable {interpolate : Interpolation} {now : AnimationTime} {field : ActorField}

theorem evaluate_append (first second : List Animation) (fields : ActorFields) :
    evaluate interpolate now (first ++ second) fields =
      ((evaluate interpolate now second (evaluate interpolate now first fields).1).1,
        (evaluate interpolate now first fields).2 ++
          (evaluate interpolate now second (evaluate interpolate now first fields).1).2) := by
  induction first generalizing fields with
  | nil => rfl
  | cons animation rest ih =>
    rw [List.cons_append, evaluate, evaluate, ih]
    split <;> rfl

/-- The animations that are not done are kept. -/
theorem evaluate_kept (animations : List Animation) (fields : ActorFields) :
    (evaluate interpolate now animations fields).2 =
      animations.filter fun animation => decide (now < animation.end_time_) := by
  induction animations generalizing fields with
  | nil => rfl
  | cons animation rest ih =>
    rw [evaluate, List.filter_cons]
    by_cases expired : animation.end_time_ ≤ now
    · have done : (animation.Eval interpolate fields now).2 = true := by rw [Animation.Eval, if_pos expired]
      simp only [done, if_true, ih]
      exact (if_neg (by simpa using expired)).symm
    · have left : (animation.Eval interpolate fields now).2 = false := by rw [Animation.Eval, if_neg expired]
      simp only [left, Bool.false_eq_true, if_false, ih]
      exact (if_pos (by simpa using expired)).symm

theorem Eval_other {animation : Animation} (elsewhere : animation.field_ ≠ field) (fields : ActorFields) :
    (animation.Eval interpolate fields now).1 field = fields field := by
  rw [Animation.Eval]
  split <;> exact Function.update_of_ne elsewhere.symm _ _

/-- A field without animations stays. -/
theorem evaluate_other {animations : List Animation} (elsewhere : ∀ animation ∈ animations, animation.field_ ≠ field)
    (fields : ActorFields) : (evaluate interpolate now animations fields).1 field = fields field := by
  induction animations generalizing fields with
  | nil => rfl
  | cons animation rest ih =>
    rw [evaluate]
    refine (ih (fun other member => elsewhere other (List.mem_cons_of_mem animation member)) _).trans ?_
    exact Eval_other (elsewhere animation List.mem_cons_self) fields

/-- The last animation of a field has the last word. -/
theorem evaluate_last {front back : List Animation} {start value : field.Value} {since until_ : AnimationTime}
    (expired : until_ ≤ now) (last : ∀ animation ∈ back, animation.field_ ≠ field) (fields : ActorFields) :
    (evaluate interpolate now (front ++ ⟨field, start, value, since, until_⟩ :: back) fields).1 field =
      value := by
  rw [evaluate_append, evaluate]
  refine (evaluate_other last _).trans ?_
  rw [Animation.Eval, if_pos expired]
  exact Function.update_self field value _

end Evaluation

/-- A request for a field, with the time at which it has been carried out. -/
structure FieldRequest (field : ActorField) where
  value : field.Value
  duration_ms : ℤ
  end_time : AnimationTime

/-- A run with the last request for each field, the times at which the requested animations end and the time of
the last update. -/
structure TrackedRun where
  run : AnimationRun
  last : (field : ActorField) → Option (FieldRequest field) := fun _ => none
  ends : List AnimationTime := []
  updated : Option AnimationTime := none

namespace TrackedRun

def note (tracked : TrackedRun) (field : ActorField) (value : field.Value) (duration_ms : ℤ) : TrackedRun :=
  { tracked with
    last := Function.update tracked.last field (some ⟨value, duration_ms, tracked.run.now_ + duration_ms⟩)
    ends := if duration_ms > 0 then (tracked.run.now_ + duration_ms) :: tracked.ends else tracked.ends }

def record (tracked : TrackedRun) : AnimationCall → TrackedRun
  | .MoveX x duration_ms => tracked.note .x_ x duration_ms
  | .MoveY y duration_ms => tracked.note .y_ y duration_ms
  | .Scale scale_x scale_y duration_ms =>
    (tracked.note .scale_x_ scale_x duration_ms).note .scale_y_ scale_y duration_ms
  | .SetOpacity opacity duration_ms => tracked.note .opacity_ opacity duration_ms
  | .advance _ => tracked
  | .Update => { tracked with updated := some tracked.run.now_ }

def step (interpolate : Interpolation) (tracked : TrackedRun) (call : AnimationCall) : Option TrackedRun :=
  (tracked.run.step interpolate call).map fun run => { tracked.record call with run }

/-- The last request for a field wins: at once if it has no duration, and after an update at which all
animations have ended. -/
structure LastWins (tracked : TrackedRun) : Prop where
  immediate : ∀ field request, tracked.last field = some request → request.duration_ms ≤ 0 →
    tracked.run.actor.fields field = request.value
  settled : ∀ time, tracked.updated = some time → (∀ ended ∈ tracked.ends, ended ≤ time) →
    tracked.run.actor.animations_ = [] ∧
      ∀ field request, tracked.last field = some request → tracked.run.actor.fields field = request.value

/-- An update finds no animation that outlives the last request for its field: if that has taken effect by now, it
was an animation itself and every other one of the field has ended too. -/
def Undisturbed (tracked : TrackedRun) (call : AnimationCall) : Prop :=
  call = .Update → ∀ field request, tracked.last field = some request →
    request.end_time ≤ tracked.run.now_ →
      ∀ animation ∈ tracked.run.actor.animations_, animation.field_ = field →
        0 < request.duration_ms ∧ animation.end_time_ ≤ tracked.run.now_

/-- Where the last request for a field stands: it took effect, or it is the last animation of the field. -/
inductive Stands (actor : AnimatedActor) (field : ActorField) (request : FieldRequest field) : Prop where
  | immediate (short : request.duration_ms ≤ 0) (value : actor.fields field = request.value)
  | done (value : actor.fields field = request.value)
      (none_left : ∀ animation ∈ actor.animations_, animation.field_ ≠ field)
  | pending (front : List Animation) (start : field.Value) (since : AnimationTime) (back : List Animation)
      (long : 0 < request.duration_ms)
      (newest : actor.animations_ = front ++ ⟨field, start, request.value, since, request.end_time⟩ :: back)
      (last : ∀ animation ∈ back, animation.field_ ≠ field)

structure Inv (tracked : TrackedRun) : Prop where
  requested : ∀ animation ∈ tracked.run.actor.animations_, animation.end_time_ ∈ tracked.ends
  running : ∀ time, tracked.updated = some time →
    ∀ animation ∈ tracked.run.actor.animations_, time < animation.end_time_
  clock : ∀ time, tracked.updated = some time → time ≤ tracked.run.now_
  stands : ∀ field request, tracked.last field = some request → Stands tracked.run.actor field request
  carried : ∀ field request, tracked.last field = some request → request.duration_ms ≤ 0 →
    request.end_time ≤ tracked.run.now_

namespace Inv

variable {tracked : TrackedRun} {interpolate : Interpolation}

/-- The state right after an actor is made. -/
theorem start (actor : ActorFields) (now_ : AnimationTime) : Inv { run := { actor := ⟨actor, []⟩, now_ } } where
  requested _ member := nomatch member
  running _ missing := nomatch missing
  clock _ missing := nomatch missing
  stands _ _ missing := nomatch missing
  carried _ _ missing := nomatch missing

theorem lastWins (inv : Inv tracked) : LastWins tracked where
  immediate := by
    intro field request same short
    cases inv.stands field request same with
    | immediate _ value => exact value
    | done value _ => exact value
    | pending _ _ _ _ long => exact absurd long short.not_gt
  settled := by
    intro time updated ended
    have expired : tracked.run.actor.animations_ = [] := by
      refine List.eq_nil_iff_forall_not_mem.mpr fun animation member => ?_
      have later := inv.running time updated animation member
      exact absurd (ended _ (inv.requested animation member)) later.not_ge
    refine ⟨expired, fun field request same => ?_⟩
    cases inv.stands field request same with
    | immediate _ value => exact value
    | done value _ => exact value
    | pending front start since back _ newest =>
      rw [expired] at newest
      exact absurd newest.symm (by simp)

/-- What a request for a field does to what stands for another one. -/
theorem stands_other {actor : AnimatedActor} {field other : ActorField} (differs : other ≠ field)
    {request : FieldRequest other} (stands : Stands actor other request) (now : AnimationTime)
    (value : field.Value) (duration_ms : ℤ) :
    Stands (actor.Animate now field value duration_ms) other request := by
  rw [AnimatedActor.Animate]
  split
  · cases stands with
    | immediate short same => exact .immediate short same
    | done same none_left =>
      refine .done same fun animation member => ?_
      rcases List.mem_append.mp member with old | new
      · exact none_left animation old
      · rw [List.mem_singleton.mp new]
        exact differs.symm
    | pending front start since back long newest last =>
      refine .pending front start since (back ++ [_]) long
        (by rw [newest, List.append_assoc, List.cons_append]) fun animation member => ?_
      rcases List.mem_append.mp member with old | new
      · exact last animation old
      · rw [List.mem_singleton.mp new]
        exact differs.symm
  · have same := Function.update_of_ne differs value actor.fields
    cases stands with
    | immediate short held => exact .immediate short (same.trans held)
    | done held none_left => exact .done (same.trans held) none_left
    | pending front start since back long newest last => exact .pending front start since back long newest last

/-- A new request stands for its field. -/
theorem stands_new (actor : AnimatedActor) (now : AnimationTime) (field : ActorField) (value : field.Value)
    (duration_ms : ℤ) :
    Stands (actor.Animate now field value duration_ms) field ⟨value, duration_ms, now + duration_ms⟩ := by
  rw [AnimatedActor.Animate]
  split
  · next long => exact .pending _ _ _ [] long rfl fun _ member => nomatch member
  · next short => exact .immediate (Int.not_lt.mp short) (Function.update_self field value _)

theorem request (inv : Inv tracked) (field : ActorField) (value : field.Value) (duration_ms : ℤ) :
    Inv { tracked.note field value duration_ms with
      run := { tracked.run with
        actor := tracked.run.actor.Animate tracked.run.now_ field value duration_ms } } where
  requested := by
    intro animation member
    simp only [AnimatedActor.Animate, note] at member ⊢
    split at member
    · next long =>
      rw [if_pos long]
      rcases List.mem_append.mp member with old | new
      · exact List.mem_cons_of_mem _ (inv.requested animation old)
      · rw [List.mem_singleton.mp new]
        exact List.mem_cons_self
    · next short =>
      rw [if_neg short]
      exact inv.requested animation member
  running := by
    intro time updated animation member
    simp only [AnimatedActor.Animate] at member
    split at member
    · next long =>
      rcases List.mem_append.mp member with old | new
      · exact inv.running time updated animation old
      · rw [List.mem_singleton.mp new]
        exact (inv.clock time updated).trans_lt (lt_add_of_pos_right _ long)
    · exact inv.running time updated animation member
  clock := inv.clock
  stands := by
    intro other request same
    by_cases equal : other = field
    · subst equal
      simp only [note, Function.update_self, Option.some.injEq] at same
      rw [← same]
      exact stands_new _ _ _ _ _
    · simp only [note, Function.update_of_ne equal] at same
      exact stands_other equal (inv.stands other request same) _ _ _
  carried := by
    intro other request same short
    by_cases equal : other = field
    · subst equal
      simp only [note, Function.update_self, Option.some.injEq] at same
      rw [← same] at short ⊢
      exact add_le_of_nonpos_right short
    · simp only [note, Function.update_of_ne equal] at same
      exact inv.carried other request same short

theorem advance (inv : Inv tracked) {now : AnimationTime} (later : tracked.run.now_ ≤ now) :
    Inv { tracked with run := { tracked.run with now_ := now } } where
  requested := inv.requested
  running := inv.running
  clock time updated := (inv.clock time updated).trans later
  stands := inv.stands
  carried field request same short := (inv.carried field request same short).trans later

theorem update (inv : Inv tracked) (undisturbed : Undisturbed tracked .Update) :
    Inv { tracked with
      updated := some tracked.run.now_
      run := { tracked.run with actor := tracked.run.actor.Update tracked.run.now_ interpolate } } where
  requested := by
    intro animation member
    simp only [AnimatedActor.Update, evaluate_kept] at member
    exact inv.requested animation (List.mem_of_mem_filter member)
  running := by
    intro time updated animation member
    cases updated
    simp only [AnimatedActor.Update, evaluate_kept] at member
    simpa using List.of_mem_filter member
  clock := by
    intro time updated
    cases updated
    exact le_rfl
  stands := by
    intro field request same
    have outlived := undisturbed rfl field request same
    rw [AnimatedActor.Update]
    cases inv.stands field request same with
    | immediate short value =>
      have gone : ∀ animation ∈ tracked.run.actor.animations_, animation.field_ ≠ field := by
        intro animation member equal
        exact absurd (outlived (inv.carried field request same short) animation member equal).1 short.not_gt
      exact .immediate short ((evaluate_other gone _).trans value)
    | done value none_left =>
      refine .done ((evaluate_other none_left _).trans value) fun animation member => ?_
      rw [evaluate_kept] at member
      exact none_left animation (List.mem_of_mem_filter member)
    | pending front start since back long newest last =>
      by_cases expired : request.end_time ≤ tracked.run.now_
      · refine .done ?_ fun animation member equal => ?_
        · rw [newest]
          exact evaluate_last expired last _
        · rw [evaluate_kept] at member
          have running := List.of_mem_filter member
          have ended := (outlived expired animation (List.mem_of_mem_filter member) equal).2
          exact absurd ended (by simpa using running)
      · refine .pending (front.filter fun animation => decide (tracked.run.now_ < animation.end_time_)) start
          since (back.filter fun animation => decide (tracked.run.now_ < animation.end_time_)) long ?_ ?_
        · rw [evaluate_kept, newest, List.filter_append, List.filter_cons_of_pos (by simpa using expired)]
        · exact fun animation member => last animation (List.mem_of_mem_filter member)
  carried := inv.carried

theorem step (inv : Inv tracked) {call : AnimationCall} (undisturbed : Undisturbed tracked call)
    {next : TrackedRun} (taken : tracked.step interpolate call = some next) : Inv next := by
  obtain ⟨run, stepped, rfl⟩ := Option.map_eq_some_iff.mp taken
  cases call with
  | MoveX x duration_ms =>
    cases stepped
    exact inv.request .x_ x duration_ms
  | MoveY y duration_ms =>
    cases stepped
    exact inv.request .y_ y duration_ms
  | Scale scale_x scale_y duration_ms =>
    cases stepped
    exact (inv.request .scale_x_ scale_x duration_ms).request .scale_y_ scale_y duration_ms
  | SetOpacity opacity duration_ms =>
    cases stepped
    exact inv.request .opacity_ opacity duration_ms
  | advance now =>
    rw [AnimationRun.step] at stepped
    split at stepped
    · next later =>
      cases stepped
      exact inv.advance later
    · cases stepped
  | Update =>
    cases stepped
    exact inv.update undisturbed

end Inv

end TrackedRun

/-- In every run whose updates are undisturbed, the last request for each field wins. -/
theorem last_request_wins (interpolate : Interpolation) (fields : ActorFields) (now : AnimationTime)
    (calls : List AnimationCall)
    (undisturbed : PartialRun.Throughout (TrackedRun.step interpolate) TrackedRun.Undisturbed
      { run := { actor := ⟨fields, []⟩, now_ := now } } calls) :
    PartialRun.Always (TrackedRun.step interpolate) TrackedRun.LastWins
      { run := { actor := ⟨fields, []⟩, now_ := now } } calls := by
  have always := PartialRun.always_of_throughout (TrackedRun.Inv.start fields now)
    (fun tracked call next inv met taken => TrackedRun.Inv.step inv met taken) undisturbed
  exact fun past before state reached => (always past before state reached).lastWins

section Moves

/-- An interpolation that stays at the start. -/
def holdStart : Interpolation := fun _ start_value _ _ _ _ => start_value

/-- The fields of a new actor. -/
def newFields : ActorFields
  | .x_ => (0 : ℤ)
  | .y_ => (0 : ℤ)
  | .scale_x_ => (1 : ℚ)
  | .scale_y_ => (1 : ℚ)
  | .opacity_ => (1 : ℚ)

/-- A move of a second, drawn when it is over. -/
theorem last_request_wins_move :
    PartialRun.Always (TrackedRun.step holdStart) TrackedRun.LastWins
      { run := { actor := ⟨newFields, []⟩, now_ := 0 } } [.MoveX 100 1000, .advance 1000, .Update] := by
  refine last_request_wins holdStart newFields 0 _ ?_
  refine PartialRun.throughout_cons.mpr ⟨(fun update => nomatch update), fun next taken => ?_⟩
  cases taken
  refine PartialRun.throughout_cons.mpr ⟨(fun update => nomatch update), fun next taken => ?_⟩
  cases taken
  refine PartialRun.throughout_cons.mpr ⟨fun _ field request same _ animation member _ => ?_, fun _ _ =>
    PartialRun.throughout_nil⟩
  rw [List.mem_singleton.mp member]
  cases field with
  | x_ =>
    cases same
    exact ⟨by decide, by decide⟩
  | y_ => cases same
  | scale_x_ => cases same
  | scale_y_ => cases same
  | opacity_ => cases same

/-- A move to 50 at once while the actor is on its way to 100: it ends at 100. -/
theorem last_request_lost :
    ∃ tracked, PartialRun.run (TrackedRun.step holdStart) { run := { actor := ⟨newFields, []⟩, now_ := 0 } }
        [.MoveX 100 1000, .MoveX 50 0, .advance 2000, .Update] = some tracked ∧
      tracked.updated = some 2000 ∧ tracked.ends = [1000] ∧ tracked.run.actor.fields .x_ = (100 : ℤ) ∧
      ¬ tracked.LastWins := by
  refine ⟨_, rfl, rfl, rfl, rfl, fun wins => ?_⟩
  have kept : (100 : ℤ) = 50 := wins.immediate .x_ ⟨(50 : ℤ), 0, 0⟩ rfl le_rfl
  exact absurd kept (by decide)

end Moves

end ChromiumOS.WindowManager
