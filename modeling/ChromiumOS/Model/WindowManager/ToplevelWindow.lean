import ChromiumOS.Model.WindowManager.Stacker

/-! # Toplevel windows

`LayoutManager::ToplevelWindow` in `layout_manager.cc`, with its transient windows. Requests to the X
server other than to move and resize the client window, and the composited window with its animations,
are left out.
-/

namespace ChromiumOS.WindowManager

abbrev XWindow := ℕ

inductive WindowType where
  | WINDOW_TYPE_UNKNOWN
  | WINDOW_TYPE_CHROME_TOPLEVEL
  | WINDOW_TYPE_CHROME_TAB_SUMMARY
  | WINDOW_TYPE_CHROME_FLOATING_TAB
  | WINDOW_TYPE_CHROME_PANEL_CONTENT
  | WINDOW_TYPE_CHROME_PANEL_TITLEBAR
  | WINDOW_TYPE_CREATE_BROWSER_WINDOW
  | WINDOW_TYPE_CHROME_INFO_BUBBLE
  deriving DecidableEq

inductive Gravity where
  | GRAVITY_NORTHWEST
  | GRAVITY_NORTHEAST
  | GRAVITY_SOUTHWEST
  | GRAVITY_SOUTHEAST
  deriving DecidableEq

/-- How far a window moves to the left and up when it grows by an amount. -/
def Gravity.shift (gravity : Gravity) (dx dy : ℤ) : ℤ × ℤ :=
  (if gravity = .GRAVITY_NORTHEAST ∨ gravity = .GRAVITY_SOUTHEAST then dx else 0,
    if gravity = .GRAVITY_SOUTHWEST ∨ gravity = .GRAVITY_SOUTHEAST then dy else 0)

/-- A client window. `transient_for_xid` is empty where the source has `None`. -/
structure Window where
  xid : XWindow
  type : WindowType
  type_params : List ℤ
  override_redirect : Bool
  transient_for_xid : Option XWindow
  wm_state_modal : Bool
  client_x : ℤ
  client_y : ℤ
  client_width : ℤ
  client_height : ℤ
  deriving DecidableEq

namespace Window

def MoveClient (win : Window) (x y : ℤ) : Window := { win with client_x := x, client_y := y }

def ResizeClient (win : Window) (width height : ℤ) (gravity : Gravity) : Window :=
  let (dx, dy) := gravity.shift (width - win.client_width) (height - win.client_height)
  { win with
    client_x := win.client_x - dx
    client_y := win.client_y - dy
    client_width := width
    client_height := height }

end Window

/-- A transient window, which keeps its modality as long as it is one. -/
structure TransientWindow where
  xid : XWindow
  wm_state_modal : Bool
  deriving DecidableEq

inductive ToplevelState where
  | STATE_NEW
  | STATE_ACTIVE_MODE_ONSCREEN
  | STATE_ACTIVE_MODE_OFFSCREEN
  | STATE_ACTIVE_MODE_IN_FROM_RIGHT
  | STATE_ACTIVE_MODE_IN_FROM_LEFT
  | STATE_ACTIVE_MODE_OUT_TO_LEFT
  | STATE_ACTIVE_MODE_OUT_TO_RIGHT
  | STATE_ACTIVE_MODE_IN_FADE
  | STATE_ACTIVE_MODE_OUT_FADE
  | STATE_OVERVIEW_MODE_NORMAL
  | STATE_OVERVIEW_MODE_MAGNIFIED
  deriving DecidableEq

/-- The area of the layout manager, and the size of the screen. -/
@[ext] structure Area where
  x_ : ℤ
  y_ : ℤ
  width_ : ℤ
  height_ : ℤ
  wm_width : ℤ
  wm_height : ℤ
  deriving DecidableEq

/-- A toplevel window, with the address of the object. The transient windows are those of the map
`transients_`, whose keys are their ids. -/
structure ToplevelWindow where
  address : ℕ
  win_ : Window
  input_xid_ : XWindow
  state_ : ToplevelState
  transients_ : List TransientWindow
  stacked_transients_ : Stacker TransientWindow
  transient_to_focus_ : Option TransientWindow
  deriving DecidableEq

namespace ToplevelWindow

/-- The size that a window of the layout manager gets is what `GetMaxSize` makes of the area. -/
def new (address : ℕ) (area : Area) (maxSize : ℤ → ℤ → ℤ × ℤ) (win : Window) (input_xid : XWindow) :
    ToplevelWindow where
  address
  win_ :=
    let (width, height) := maxSize area.width_ area.height_
    (win.ResizeClient width height .GRAVITY_NORTHWEST).MoveClient area.wm_width area.wm_height
  input_xid_ := input_xid
  state_ := .STATE_NEW
  transients_ := []
  stacked_transients_ := .empty
  transient_to_focus_ := none

def GetTransientWindow (toplevel : ToplevelWindow) (xid : XWindow) : Option TransientWindow :=
  toplevel.transients_.find? fun transient => transient.xid == xid

def RestackTransientWindowOnTop (toplevel : ToplevelWindow) (transient : TransientWindow) :
    ToplevelWindow :=
  if toplevel.stacked_transients_.items.head? = some transient then toplevel
  else { toplevel with
    stacked_transients_ := (toplevel.stacked_transients_.Remove transient).AddOnTop transient }

/-- The transient window that is focused is raised. -/
def TakeFocus (toplevel : ToplevelWindow) : ToplevelWindow :=
  match toplevel.transient_to_focus_ with
  | some transient => toplevel.RestackTransientWindowOnTop transient
  | none => toplevel

def SetPreferredTransientWindowToFocus (toplevel : ToplevelWindow) (transient_win : Option XWindow) :
    ToplevelWindow :=
  match transient_win with
  | none =>
    match toplevel.transient_to_focus_ with
    | some focused =>
      if !focused.wm_state_modal then { toplevel with transient_to_focus_ := none } else toplevel
    | none => toplevel
  | some xid =>
    match toplevel.GetTransientWindow xid with
    | none => toplevel
    | some transient =>
      match toplevel.transient_to_focus_ with
      | none => { toplevel with transient_to_focus_ := some transient }
      | some focused =>
        if transient = focused then toplevel
        else if !focused.wm_state_modal || transient.wm_state_modal then
          { toplevel with transient_to_focus_ := some transient }
        else toplevel

/-- The first window that a new transient window goes above. -/
def transient_to_stack_above (toplevel : ToplevelWindow) (modal : Bool) : Option TransientWindow :=
  toplevel.stacked_transients_.items.find? fun item => modal || !item.wm_state_modal

def AddTransientWindow (toplevel : ToplevelWindow) (transient : TransientWindow) : ToplevelWindow :=
  if (toplevel.GetTransientWindow transient.xid).isSome then toplevel
  else
    let stacked_transients_ :=
      match toplevel.transient_to_stack_above transient.wm_state_modal with
      | some other => toplevel.stacked_transients_.AddAbove transient other
      | none => toplevel.stacked_transients_.AddOnBottom transient
    let toplevel :=
      { toplevel with transients_ := transient :: toplevel.transients_, stacked_transients_ }
    toplevel.SetPreferredTransientWindowToFocus (some transient.xid)

def FindTransientWindowToFocus (toplevel : ToplevelWindow) : Option TransientWindow :=
  (toplevel.stacked_transients_.items.find? fun item => item.wm_state_modal).or
    toplevel.stacked_transients_.items.head?

def RemoveTransientWindow (toplevel : ToplevelWindow) (xid : XWindow) : ToplevelWindow :=
  match toplevel.GetTransientWindow xid with
  | none => toplevel
  | some transient =>
    let toplevel :=
      { toplevel with
        stacked_transients_ := toplevel.stacked_transients_.Remove transient
        transients_ := toplevel.transients_.filter fun other => other.xid != xid }
    if toplevel.transient_to_focus_ = some transient then
      let toplevel := { toplevel with transient_to_focus_ := none }
      toplevel.SetPreferredTransientWindowToFocus
        (toplevel.FindTransientWindowToFocus.map fun found => found.xid)
    else toplevel

def HandleButtonPress (toplevel : ToplevelWindow) (button_win : XWindow) : ToplevelWindow :=
  (toplevel.SetPreferredTransientWindowToFocus
    (if (toplevel.GetTransientWindow button_win).isSome then some button_win else none)).TakeFocus

/-- A change of the focus adds or removes a button grab only. -/
def HandleFocusChange (toplevel : ToplevelWindow) (_focus_win : XWindow) (_focus_in : Bool) :
    ToplevelWindow :=
  toplevel

def ResizeClient (toplevel : ToplevelWindow) (size : ℤ × ℤ) (gravity : Gravity) : ToplevelWindow :=
  { toplevel with win_ := toplevel.win_.ResizeClient size.1 size.2 gravity }

def MoveClientOffscreen (toplevel : ToplevelWindow) (area : Area) : ToplevelWindow :=
  { toplevel with win_ := toplevel.win_.MoveClient area.wm_width area.wm_height }

def ConfigureForActiveMode (toplevel : ToplevelWindow) (area : Area)
    (window_is_active update_focus : Bool) : ToplevelWindow :=
  if window_is_active then
    let win_x := area.x_ + (max 0 (area.width_ - toplevel.win_.client_width)).tdiv 2
    let win_y := area.y_ + (max 0 (area.height_ - toplevel.win_.client_height)).tdiv 2
    let toplevel := { toplevel with win_ := toplevel.win_.MoveClient win_x win_y }
    let toplevel := if update_focus then toplevel.TakeFocus else toplevel
    { toplevel with state_ := .STATE_ACTIVE_MODE_ONSCREEN }
  else { toplevel.MoveClientOffscreen area with state_ := .STATE_ACTIVE_MODE_OFFSCREEN }

/-- `ConfigureForOverviewMode` where it is not incremental. -/
def ConfigureForOverviewMode (toplevel : ToplevelWindow) (area : Area) (window_is_magnified : Bool) :
    ToplevelWindow :=
  { toplevel.MoveClientOffscreen area with
    state_ := if window_is_magnified then .STATE_OVERVIEW_MODE_MAGNIFIED else .STATE_OVERVIEW_MODE_NORMAL }

end ToplevelWindow

end ChromiumOS.WindowManager
