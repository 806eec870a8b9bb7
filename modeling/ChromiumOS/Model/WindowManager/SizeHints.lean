import Mathlib

/-! # Size hints

`XConnection::SizeHints` in `x_connection.h` and `Window::GetMaxSize` in `window.cc`. The method does the
same for the width and the height, so one function on the hints of a dimension is used twice. A failed
`CHECK` is `none`.
-/

namespace ChromiumOS.WindowManager

/-- The hints of a window; one that is not defined is -1. -/
structure SizeHints where
  width : ℤ := -1
  height : ℤ := -1
  min_width : ℤ := -1
  min_height : ℤ := -1
  max_width : ℤ := -1
  max_height : ℤ := -1
  width_increment : ℤ := -1
  height_increment : ℤ := -1
  min_aspect_x : ℤ := -1
  min_aspect_y : ℤ := -1
  max_aspect_x : ℤ := -1
  max_aspect_y : ℤ := -1
  base_width : ℤ := -1
  base_height : ℤ := -1
  win_gravity : ℤ := -1
deriving DecidableEq, Repr

/-- The hints on the size in one dimension. -/
structure DimensionHints where
  min : ℤ
  max : ℤ
  increment : ℤ
  base : ℤ
deriving DecidableEq, Repr

namespace DimensionHints

/-- The desired size within the maximum and the minimum. -/
def clamp (hints : DimensionHints) (desired : ℤ) : ℤ :=
  let desired := if hints.max > 0 then Min.min hints.max desired else desired
  if hints.min > 0 then Max.max hints.min desired else desired

/-- The size that the increments are added to. -/
def baseSize (hints : DimensionHints) : ℤ :=
  if hints.base > 0 then hints.base else if hints.min > 0 then hints.min else 0

/-- What `GetMaxSize` does for a dimension; division truncates. -/
def maxSize (hints : DimensionHints) (desired : ℤ) : ℤ :=
  if hints.increment > 0 then
    hints.baseSize +
      (hints.clamp desired - hints.baseSize).tdiv hints.increment * hints.increment
  else hints.clamp desired

end DimensionHints

namespace SizeHints

def ofWidth (hints : SizeHints) : DimensionHints :=
  ⟨hints.min_width, hints.max_width, hints.width_increment, hints.base_width⟩

def ofHeight (hints : SizeHints) : DimensionHints :=
  ⟨hints.min_height, hints.max_height, hints.height_increment, hints.base_height⟩

end SizeHints

def GetMaxSize (size_hints_ : SizeHints) (desired_width desired_height : ℤ) : Option (ℤ × ℤ) := do
  guard (desired_width > 0)
  guard (desired_height > 0)
  return (size_hints_.ofWidth.maxSize desired_width, size_hints_.ofHeight.maxSize desired_height)

end ChromiumOS.WindowManager
