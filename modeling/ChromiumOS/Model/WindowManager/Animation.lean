import Mathlib

/-! # Animations

The animations of an actor in `tidy_interface.cc`, and the requests that make them. A time is in milliseconds.
How a field goes from one value to another is left open, with a value of its own for each point in time.
-/

namespace ChromiumOS.WindowManager

abbrev AnimationTime := ℤ

/-- The fields of an actor that can be animated. -/
inductive ActorField where
  | x_
  | y_
  | scale_x_
  | scale_y_
  | opacity_
deriving DecidableEq

def ActorField.Value : ActorField → Type
  | .x_ => ℤ
  | .y_ => ℤ
  | .scale_x_ => ℚ
  | .scale_y_ => ℚ
  | .opacity_ => ℚ

abbrev ActorFields := (field : ActorField) → field.Value

/-- A value between two others, given the times at which these are reached and the time in between. -/
abbrev Interpolation :=
  (field : ActorField) → field.Value → field.Value → AnimationTime → AnimationTime → AnimationTime → field.Value

/-- A `FloatAnimation` or an `IntAnimation`. -/
structure Animation where
  field_ : ActorField
  start_value_ : field_.Value
  end_value_ : field_.Value
  start_time_ : AnimationTime
  end_time_ : AnimationTime

/-- The value at a time, and whether the animation is done. -/
def Animation.Eval (interpolate : Interpolation) (animation : Animation) (fields : ActorFields)
    (current_time : AnimationTime) : ActorFields × Bool :=
  if current_time ≥ animation.end_time_ then
    (Function.update fields animation.field_ animation.end_value_, true)
  else
    (Function.update fields animation.field_ (interpolate animation.field_ animation.start_value_
      animation.end_value_ animation.start_time_ animation.end_time_ current_time), false)

/-- The loop of `Update`, which erases the animations that are done. -/
def evaluate (interpolate : Interpolation) (now : AnimationTime) :
    List Animation → ActorFields → ActorFields × List Animation
  | [], fields => (fields, [])
  | animation :: rest, fields =>
    let evaluated := animation.Eval interpolate fields now
    let later := evaluate interpolate now rest evaluated.1
    (later.1, if evaluated.2 then later.2 else animation :: later.2)

/-- What of an actor changes over time. -/
structure AnimatedActor where
  fields : ActorFields
  animations_ : List Animation := []

namespace AnimatedActor

variable (actor : AnimatedActor) (now : AnimationTime)

def Update (interpolate : Interpolation) : AnimatedActor :=
  let evaluated := evaluate interpolate now actor.animations_ actor.fields
  { fields := evaluated.1, animations_ := evaluated.2 }

/-- `AnimateFloat` and `AnimateInt`. -/
def Animate (field : ActorField) (value : field.Value) (duration_ms : ℤ) : AnimatedActor :=
  if duration_ms > 0 then
    { actor with
      animations_ := actor.animations_ ++ [⟨field, actor.fields field, value, now, now + duration_ms⟩] }
  else { actor with fields := Function.update actor.fields field value }

def MoveX (x duration_ms : ℤ) : AnimatedActor := actor.Animate now .x_ x duration_ms

def MoveY (y duration_ms : ℤ) : AnimatedActor := actor.Animate now .y_ y duration_ms

def Move (x y duration_ms : ℤ) : AnimatedActor := (actor.MoveX now x duration_ms).MoveY now y duration_ms

def Scale (scale_x scale_y : ℚ) (duration_ms : ℤ) : AnimatedActor :=
  (actor.Animate now .scale_x_ scale_x duration_ms).Animate now .scale_y_ scale_y duration_ms

def SetOpacity (opacity : ℚ) (duration_ms : ℤ) : AnimatedActor :=
  actor.Animate now .opacity_ opacity duration_ms

end AnimatedActor

/-- A request, the clock of the interface moving on, or an update at the time of the clock. -/
inductive AnimationCall where
  | MoveX (x duration_ms : ℤ)
  | MoveY (y duration_ms : ℤ)
  | Scale (scale_x scale_y : ℚ) (duration_ms : ℤ)
  | SetOpacity (opacity : ℚ) (duration_ms : ℤ)
  | advance (now : AnimationTime)
  | Update
deriving DecidableEq

/-- An actor and the clock of its interface. -/
structure AnimationRun where
  actor : AnimatedActor
  now_ : AnimationTime := 0

/-- A call; the clock does not go back. -/
def AnimationRun.step (interpolate : Interpolation) (run : AnimationRun) : AnimationCall → Option AnimationRun
  | .MoveX x duration_ms => some { run with actor := run.actor.MoveX run.now_ x duration_ms }
  | .MoveY y duration_ms => some { run with actor := run.actor.MoveY run.now_ y duration_ms }
  | .Scale scale_x scale_y duration_ms =>
    some { run with actor := run.actor.Scale run.now_ scale_x scale_y duration_ms }
  | .SetOpacity opacity duration_ms =>
    some { run with actor := run.actor.SetOpacity run.now_ opacity duration_ms }
  | .advance now => if run.now_ ≤ now then some { run with now_ := now } else none
  | .Update => some { run with actor := run.actor.Update run.now_ interpolate }

end ChromiumOS.WindowManager
