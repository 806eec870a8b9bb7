import Mathlib

/-! # The motion event coalescer

`motion_event_coalescer.cc`: the last position stored is handed to a callback when the timer fires, and
once more when the coalescer is stopped. The callback is run by its owner, with `queued` telling whether
and where.
-/

namespace ChromiumOS.WindowManager

structure MotionEventCoalescer where
  running : Bool
  have_queued_position_ : Bool
  x_ : ℤ
  y_ : ℤ
  deriving DecidableEq

namespace MotionEventCoalescer

def new : MotionEventCoalescer :=
  { running := false, have_queued_position_ := false, x_ := -1, y_ := -1 }

def Start (coalescer : MotionEventCoalescer) : MotionEventCoalescer :=
  if coalescer.running then coalescer
  else { running := true, have_queued_position_ := false, x_ := -1, y_ := -1 }

def StorePosition (coalescer : MotionEventCoalescer) (x y : ℤ) : MotionEventCoalescer :=
  if x = coalescer.x_ ∧ y = coalescer.y_ then coalescer
  else { coalescer with x_ := x, y_ := y, have_queued_position_ := true }

/-- The position that `HandleTimer` runs the callback for. -/
def queued (coalescer : MotionEventCoalescer) : Option (ℤ × ℤ) :=
  if coalescer.have_queued_position_ then some (coalescer.x_, coalescer.y_) else none

/-- The coalescer when the callback has returned. -/
def handled (coalescer : MotionEventCoalescer) : MotionEventCoalescer :=
  { coalescer with have_queued_position_ := false }

/-- The coalescer with its timer removed, before the callback is run for the last time. -/
def stopped (coalescer : MotionEventCoalescer) : MotionEventCoalescer :=
  { coalescer with running := false }

/-- Returns the position that the callback was run for, if it was. -/
def HandleTimer (coalescer : MotionEventCoalescer) : MotionEventCoalescer × Option (ℤ × ℤ) :=
  (if coalescer.have_queued_position_ then coalescer.handled else coalescer, coalescer.queued)

def Stop (coalescer : MotionEventCoalescer) : MotionEventCoalescer × Option (ℤ × ℤ) :=
  if coalescer.running then coalescer.stopped.HandleTimer else (coalescer, none)

end MotionEventCoalescer

end ChromiumOS.WindowManager
