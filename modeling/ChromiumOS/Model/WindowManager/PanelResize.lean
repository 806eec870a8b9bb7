import ChromiumOS.Model.WindowManager.MotionEventCoalescer
import ChromiumOS.Model.WindowManager.ToplevelWindow

/-! # Resizing a panel

The handling of a panel's input windows in `panel.cc`, with the box that shows the size during a drag (panels are not
resized opaquely). Panels are not scaled. Requests to the X server succeed; shadows, stacking and the placement of the
input windows are left out.
-/

namespace ChromiumOS.WindowManager

def kPanelMinWidth : ℤ := 20
def kPanelMinHeight : ℤ := 20

/-- A window with its composited window. -/
structure ResizedWindow where
  client_x_ : ℤ
  client_y_ : ℤ
  client_width_ : ℤ
  client_height_ : ℤ
  composited_x_ : ℤ
  composited_y_ : ℤ
  deriving DecidableEq

namespace ResizedWindow

variable (win : ResizedWindow)

def SaveClientPosition (x y : ℤ) : ResizedWindow := { win with client_x_ := x, client_y_ := y }

def SaveClientAndCompositedSize (width height : ℤ) : ResizedWindow :=
  { win with client_width_ := width, client_height_ := height }

def MoveComposited (x y : ℤ) : ResizedWindow := { win with composited_x_ := x, composited_y_ := y }

def MoveCompositedY (y : ℤ) : ResizedWindow := { win with composited_y_ := y }

def MoveClientToComposited : ResizedWindow := win.SaveClientPosition win.composited_x_ win.composited_y_

def ResizeClient (width height : ℤ) (gravity : Gravity) : ResizedWindow :=
  let shift := gravity.shift (width - win.client_width_) (height - win.client_height_)
  let moved :=
    if shift.1 ≠ 0 ∨ shift.2 ≠ 0 then
      (win.SaveClientPosition (win.client_x_ - shift.1) (win.client_y_ - shift.2)).MoveComposited
        (win.composited_x_ - shift.1) (win.composited_y_ - shift.2)
    else win
  moved.SaveClientAndCompositedSize width height

end ResizedWindow

/-- The input windows around a panel. -/
inductive ResizeHandle where
  | top
  | top_left
  | top_right
  | left
  | right
  deriving DecidableEq

/-- The box that shows the size of a panel during a drag. -/
structure ResizeBox where
  x : ℤ
  y : ℤ
  width : ℤ
  height : ℤ
  deriving DecidableEq

/-- A panel, and the input window that is dragged. -/
structure ResizablePanel where
  content_win_ : ResizedWindow
  titlebar_win_ : ResizedWindow
  resize_actor_ : Option ResizeBox
  resize_event_coalescer_ : MotionEventCoalescer
  drag_xid_ : Option ResizeHandle
  drag_gravity_ : Gravity
  drag_start_x_ : ℤ
  drag_start_y_ : ℤ
  drag_orig_width_ : ℤ
  drag_orig_height_ : ℤ
  drag_last_width_ : ℤ
  drag_last_height_ : ℤ
  deriving DecidableEq

/-- The corner that stays in place, and the growth of the panel for a distance of the pointer. -/
def ResizeHandle.growth (handle : Option ResizeHandle) (dx dy : ℤ) : Gravity × ℤ × ℤ :=
  match handle with
  | some .top => (.GRAVITY_SOUTHWEST, 0, dy * -1)
  | some .top_left => (.GRAVITY_SOUTHEAST, dx * -1, dy * -1)
  | some .top_right => (.GRAVITY_SOUTHWEST, dx, dy * -1)
  | some .left => (.GRAVITY_NORTHEAST, dx * -1, 0)
  | some .right => (.GRAVITY_NORTHWEST, dx, 0)
  | none => (.GRAVITY_NORTHWEST, dx, dy)

namespace ResizablePanel

variable (panel : ResizablePanel)

/-- The box over the panel with the sizes of the drag. -/
def resizeBox : ResizeBox :=
  let grows_left := panel.drag_gravity_ = .GRAVITY_SOUTHEAST ∨ panel.drag_gravity_ = .GRAVITY_NORTHEAST
  let grows_up := panel.drag_gravity_ = .GRAVITY_SOUTHWEST ∨ panel.drag_gravity_ = .GRAVITY_SOUTHEAST
  { x := panel.titlebar_win_.client_x_ -
      if grows_left then panel.drag_last_width_ - panel.drag_orig_width_ else 0
    y := panel.titlebar_win_.client_y_ -
      if grows_up then panel.drag_last_height_ - panel.drag_orig_height_ else 0
    width := panel.drag_last_width_
    height := panel.drag_last_height_ + panel.titlebar_win_.client_height_ }

/-- `ApplyResize` for the position of the coalescer. -/
def ApplyResize (x y : ℤ) : ResizablePanel :=
  let growth := ResizeHandle.growth panel.drag_xid_ (x - panel.drag_start_x_) (y - panel.drag_start_y_)
  let sized : ResizablePanel :=
    { panel with
      drag_gravity_ := growth.1
      drag_last_width_ := max (panel.drag_orig_width_ + growth.2.1) kPanelMinWidth
      drag_last_height_ := max (panel.drag_orig_height_ + growth.2.2) kPanelMinHeight }
  { sized with resize_actor_ := panel.resize_actor_.map fun _ => sized.resizeBox }

/-- The callback of the coalescer, if it is run, with the coalescer after it. -/
def applyQueued (handled : MotionEventCoalescer × Option (ℤ × ℤ)) : ResizablePanel :=
  match handled.2 with
  | none => { panel with resize_event_coalescer_ := handled.1 }
  | some position => { panel.ApplyResize position.1 position.2 with resize_event_coalescer_ := handled.1 }

/-- The timer of the coalescer. -/
def HandleTimer : ResizablePanel := panel.applyQueued panel.resize_event_coalescer_.HandleTimer

/-- `ResizeContent` up to the notice that it gives to the container. -/
def ResizeContent (width height : ℤ) (gravity : Gravity) : ResizablePanel :=
  let content := panel.content_win_.ResizeClient width height gravity
  let titlebar := panel.titlebar_win_.ResizeClient width panel.titlebar_win_.client_height_ gravity
  { panel with
    content_win_ := content
    titlebar_win_ :=
      if height ≠ panel.content_win_.client_height_ then
        (titlebar.MoveCompositedY (content.composited_y_ - titlebar.client_height_)).MoveClientToComposited
      else titlebar }

def HandleInputWindowButtonPress (xid : ResizeHandle) (x y : ℤ) (button : ℕ) : ResizablePanel :=
  if button ≠ 1 then panel
  else
    { panel with
      drag_xid_ := some xid
      drag_start_x_ := x
      drag_start_y_ := y
      drag_orig_width_ := panel.content_win_.client_width_
      drag_last_width_ := panel.content_win_.client_width_
      drag_orig_height_ := panel.content_win_.client_height_
      drag_last_height_ := panel.content_win_.client_height_
      resize_event_coalescer_ := panel.resize_event_coalescer_.Start
      resize_actor_ := some
        { x := panel.titlebar_win_.client_x_
          y := panel.titlebar_win_.client_y_
          width := panel.content_win_.client_width_
          height := panel.content_win_.client_height_ + panel.titlebar_win_.client_height_ } }

def HandleInputWindowPointerMotion (xid : ResizeHandle) (x y : ℤ) : ResizablePanel :=
  if some xid ≠ panel.drag_xid_ then panel
  else { panel with resize_event_coalescer_ := panel.resize_event_coalescer_.StorePosition x y }

def HandleInputWindowButtonRelease (xid : ResizeHandle) (x y : ℤ) (button : ℕ) : ResizablePanel :=
  if button ≠ 1 then panel
  else if some xid ≠ panel.drag_xid_ then panel
  else
    let stored : ResizablePanel :=
      { panel with resize_event_coalescer_ := panel.resize_event_coalescer_.StorePosition x y }
    let stopped := stored.applyQueued stored.resize_event_coalescer_.Stop
    let ended : ResizablePanel := { stopped with drag_xid_ := none, resize_actor_ := none }
    ended.ResizeContent ended.drag_last_width_ ended.drag_last_height_ ended.drag_gravity_

end ResizablePanel

end ChromiumOS.WindowManager
