import ChromiumOS.Model.WindowManager.ToplevelWindow

/-! # Panels

`panel.cc`. The windows and the panels are found in a screen, by their ids and by the addresses of the
objects, so that two panels may be made of the same window. Animations, stacking, shadows, button grabs
and the placement of the input windows are left out.
-/

namespace ChromiumOS.WindowManager

/-- What panels need of a client window. -/
structure PanelWindow where
  client_width : ℕ
  client_height : ℕ
  composited_x : ℤ
  composited_y : ℤ
  focused : Bool
  wm_hint_urgent : Bool
  deriving DecidableEq

namespace PanelWindow

def MoveComposited (win : PanelWindow) (x y : ℤ) : PanelWindow :=
  { win with composited_x := x, composited_y := y }

def MoveCompositedX (win : PanelWindow) (x : ℤ) : PanelWindow := { win with composited_x := x }

def MoveCompositedY (win : PanelWindow) (y : ℤ) : PanelWindow := { win with composited_y := y }

def ResizeClient (win : PanelWindow) (width height : ℕ) (gravity : Gravity) : PanelWindow :=
  let (dx, dy) := gravity.shift (width - win.client_width) (height - win.client_height)
  { win with
    composited_x := win.composited_x - dx
    composited_y := win.composited_y - dy
    client_width := width
    client_height := height }

end PanelWindow

/-- A panel. Its five input windows are those of `GetInputWindows`. -/
structure Panel where
  content_xid : XWindow
  titlebar_xid : XWindow
  input_xids : List XWindow
  is_expanded : Bool
  deriving DecidableEq

/-- What the panels share: the size of the screen, the windows, the panels by their addresses, the active
window, and the window that `LayoutManager::TakeFocus` would give the focus to, if there is one. -/
structure Screen where
  width : ℤ
  height : ℤ
  windows : XWindow → PanelWindow
  panels : ℕ → Panel
  active_window_xid_ : Option XWindow
  layoutFocus : Option XWindow

namespace Screen

def content_win (screen : Screen) (panel : ℕ) : PanelWindow :=
  screen.windows (screen.panels panel).content_xid

def titlebar_win (screen : Screen) (panel : ℕ) : PanelWindow :=
  screen.windows (screen.panels panel).titlebar_xid

def is_expanded (screen : Screen) (panel : ℕ) : Bool := (screen.panels panel).is_expanded

def content_x (screen : Screen) (panel : ℕ) : ℤ := (screen.content_win panel).composited_x

def content_width (screen : Screen) (panel : ℕ) : ℕ := (screen.content_win panel).client_width

def right (screen : Screen) (panel : ℕ) : ℤ := screen.content_x panel + screen.content_width panel

/-- The sum is truncated when it is converted to an integer. -/
def content_center (screen : Screen) (panel : ℕ) : ℤ :=
  (2 * screen.content_x panel + screen.content_width panel).tdiv 2

def titlebar_y (screen : Screen) (panel : ℕ) : ℤ := (screen.titlebar_win panel).composited_y

def titlebar_width (screen : Screen) (panel : ℕ) : ℕ := (screen.titlebar_win panel).client_width

def content_height (screen : Screen) (panel : ℕ) : ℕ := (screen.content_win panel).client_height

def titlebar_height (screen : Screen) (panel : ℕ) : ℕ := (screen.titlebar_win panel).client_height

def total_height (screen : Screen) (panel : ℕ) : ℕ :=
  screen.content_height panel + screen.titlebar_height panel

/-- Call a method of a window. -/
def onWindow (screen : Screen) (xid : XWindow) (method : PanelWindow → PanelWindow) : Screen :=
  { screen with windows := Function.update screen.windows xid (method (screen.windows xid)) }

/-- Call a method of the titlebar window, then one of the content window. -/
def onWindows (screen : Screen) (panel : ℕ) (titlebar content : PanelWindow → PanelWindow) : Screen :=
  (screen.onWindow (screen.panels panel).titlebar_xid titlebar).onWindow
    (screen.panels panel).content_xid content

def Move (screen : Screen) (panel : ℕ) (right y : ℤ) : Screen :=
  screen.onWindows panel (fun win => win.MoveComposited (right - screen.titlebar_width panel) y)
    (fun win => win.MoveComposited (right - screen.content_width panel) (y + screen.titlebar_height panel))

def MoveX (screen : Screen) (panel : ℕ) (right : ℤ) : Screen :=
  screen.onWindows panel (fun win => win.MoveCompositedX (right - screen.titlebar_width panel))
    (fun win => win.MoveCompositedX (right - screen.content_width panel))

def MoveY (screen : Screen) (panel : ℕ) (y : ℤ) : Screen :=
  screen.onWindows panel (fun win => win.MoveCompositedY y)
    (fun win => win.MoveCompositedY (y + screen.titlebar_height panel))

/-- The width is checked to be positive. -/
def SetTitlebarWidth (screen : Screen) (panel : ℕ) (width : ℕ) : Option Screen :=
  if 0 < width then
    some (screen.onWindow (screen.panels panel).titlebar_xid fun win =>
      win.ResizeClient width win.client_height .GRAVITY_NORTHEAST)
  else none

def SetExpandedState (screen : Screen) (panel : ℕ) (expanded : Bool) : Screen :=
  { screen with
    panels := Function.update screen.panels panel { screen.panels panel with is_expanded := expanded } }

/-- `ResizeContent` up to the notice that it gives to the panel manager. -/
def ResizeContent (screen : Screen) (panel : ℕ) (width height : ℕ) (gravity : Gravity) : Screen :=
  let changing_height := height ≠ screen.content_height panel
  let content := (screen.panels panel).content_xid
  let titlebar := (screen.panels panel).titlebar_xid
  let screen := screen.onWindow content fun win => win.ResizeClient width height gravity
  let screen := screen.onWindow titlebar fun win => win.ResizeClient width win.client_height gravity
  if changing_height then
    screen.onWindow titlebar fun win =>
      win.MoveCompositedY ((screen.content_win panel).composited_y - win.client_height)
  else screen

def SetActiveWindowProperty (screen : Screen) (xid : Option XWindow) : Screen :=
  { screen with active_window_xid_ := xid }

end Screen

end ChromiumOS.WindowManager
