import ChromiumOS.Model.WindowManager.Panel

/-! # The panel bar

`panel_bar.cc`. The bar has the screen that it shares with the panel manager and the docks. A failed
`CHECK`, which a missing `PanelInfo` is too, ends the run. The position of the pointer is a parameter
where it is asked for, and the picture of the anchor is left out.
-/

namespace ChromiumOS.WindowManager

inductive PanelSource where
  | PANEL_SOURCE_NEW
  | PANEL_SOURCE_DRAGGED
  | PANEL_SOURCE_DROPPED
  deriving DecidableEq

structure PanelInfo where
  snapped_right : ℤ
  is_urgent : Bool
  deriving DecidableEq

inductive CollapsedPanelState where
  | COLLAPSED_PANEL_STATE_SHOWN
  | COLLAPSED_PANEL_STATE_HIDDEN
  | COLLAPSED_PANEL_STATE_WAITING_TO_SHOW
  | COLLAPSED_PANEL_STATE_WAITING_TO_HIDE
  deriving DecidableEq

/-- A panel bar. The pointer watcher has whether it still watches, which it does not after it has run its
callback. -/
structure PanelBar where
  screen : Screen
  total_panel_width_ : ℤ
  panels_ : List ℕ
  panel_infos_ : ℕ → Option PanelInfo
  dragged_panel_ : Option ℕ
  dragging_panel_horizontally_ : Bool
  anchor_panel_ : Option ℕ
  desired_panel_to_focus_ : Option ℕ
  collapsed_panel_state_ : CollapsedPanelState
  showCollapsedPanelsInputOnscreen : Bool
  showCollapsedPanelsTimerArmed : Bool
  hide_collapsed_panels_pointer_watcher_ : Option Bool

namespace PanelBar

def kPixelsBetweenPanels : ℤ := 3

def kHideCollapsedPanelsDistancePixels : ℤ := 30

def kHiddenCollapsedPanelHeightPixels : ℤ := 3

def kPanelDetachThresholdPixels : ℤ := 50

def kPanelAttachThresholdPixels : ℤ := 20

def kint32max : ℤ := 2147483647

def new (screen : Screen) : PanelBar where
  screen
  total_panel_width_ := 0
  panels_ := []
  panel_infos_ _ := none
  dragged_panel_ := none
  dragging_panel_horizontally_ := false
  anchor_panel_ := none
  desired_panel_to_focus_ := none
  collapsed_panel_state_ := .COLLAPSED_PANEL_STATE_HIDDEN
  showCollapsedPanelsInputOnscreen := false
  showCollapsedPanelsTimerArmed := false
  hide_collapsed_panels_pointer_watcher_ := none

def CollapsedPanelsAreHidden (bar : PanelBar) : Bool :=
  bar.collapsed_panel_state_ = .COLLAPSED_PANEL_STATE_HIDDEN ||
    bar.collapsed_panel_state_ = .COLLAPSED_PANEL_STATE_WAITING_TO_SHOW

def GetPanelInfoOrDie (bar : PanelBar) (panel : ℕ) : Option PanelInfo := bar.panel_infos_ panel

def GetNumCollapsedPanels (bar : PanelBar) : ℕ :=
  bar.panels_.countP fun panel => !bar.screen.is_expanded panel

def ComputePanelY (bar : PanelBar) (panel : ℕ) (info : PanelInfo) : ℤ :=
  if bar.screen.is_expanded panel then bar.screen.height - bar.screen.total_height panel
  else if bar.CollapsedPanelsAreHidden && !info.is_urgent then
    bar.screen.height - kHiddenCollapsedPanelHeightPixels
  else bar.screen.height - bar.screen.titlebar_height panel

/-- Store the information of a panel. -/
def setInfo (bar : PanelBar) (panel : ℕ) (info : Option PanelInfo) : PanelBar :=
  { bar with panel_infos_ := Function.update bar.panel_infos_ panel info }

def moveX (bar : PanelBar) (panel : ℕ) (right : ℤ) : PanelBar :=
  { bar with screen := bar.screen.MoveX panel right }

def moveY (bar : PanelBar) (panel : ℕ) (y : ℤ) : PanelBar :=
  { bar with screen := bar.screen.MoveY panel y }

def setExpandedState (bar : PanelBar) (panel : ℕ) (expanded : Bool) : PanelBar :=
  { bar with screen := bar.screen.SetExpandedState panel expanded }

/-- Move a panel to its snapped position, unless it is the one that stays. -/
def snap (bar : PanelBar) (fixed_panel : Option ℕ) (panel : ℕ) (snapped_right : ℤ) : PanelBar :=
  if some panel ≠ fixed_panel ∧ bar.screen.right panel ≠ snapped_right then bar.moveX panel snapped_right
  else bar

/-- What `PackPanels` does with one of the panels. -/
def packPanel (fixed_panel : Option ℕ) (bar : PanelBar) (panel : ℕ) : Option PanelBar := do
  let info ← bar.GetPanelInfoOrDie panel
  let snapped_right := bar.screen.width - bar.total_panel_width_ - kPixelsBetweenPanels
  let bar := (bar.setInfo panel (some { info with snapped_right })).snap fixed_panel panel snapped_right
  some { bar with
    total_panel_width_ := bar.total_panel_width_ + (bar.screen.content_width panel + kPixelsBetweenPanels) }

def PackPanels (bar : PanelBar) (fixed_panel : Option ℕ) : Option PanelBar :=
  bar.panels_.reverse.foldlM (packPanel fixed_panel) { bar with total_panel_width_ := 0 }

/-- The panels with the one at a position rotated to another position. -/
def rotated (panels : List ℕ) (src_position dest_position : ℕ) (panel : ℕ) : List ℕ :=
  (panels.eraseIdx src_position).insertIdx dest_position panel

/-- The position to which a panel belongs, as far as its edges have passed the middle of other panels. -/
def dest_position (bar : PanelBar) (fixed_panel : ℕ) (src_position : ℕ) (snapped_right : ℤ) : ℕ :=
  if bar.screen.right fixed_panel < snapped_right then
    src_position - ((bar.panels_.take src_position).reverse.takeWhile fun panel =>
      decide (bar.screen.content_x fixed_panel ≤ bar.screen.content_center panel)).length
  else
    src_position + ((bar.panels_.drop (src_position + 1)).takeWhile fun panel =>
      decide (bar.screen.right fixed_panel ≥ bar.screen.content_center panel)).length

def ReorderPanel (bar : PanelBar) (fixed_panel : ℕ) : Option PanelBar := do
  let src_position := bar.panels_.idxOf fixed_panel
  let info ← bar.GetPanelInfoOrDie fixed_panel
  let dest_position := bar.dest_position fixed_panel src_position info.snapped_right
  if dest_position = src_position then some bar
  else
    let bar := { bar with panels_ := rotated bar.panels_ src_position dest_position fixed_panel }
    bar.PackPanels (some fixed_panel)

/-- Repack the panels around the one that is dragged, and put that one at its place. -/
def repack (bar : PanelBar) : Option PanelBar := do
  let bar ← bar.PackPanels bar.dragged_panel_
  match bar.dragged_panel_ with
  | some dragged => bar.ReorderPanel dragged
  | none => some bar

def ConfigureShowCollapsedPanelsInputWindow (bar : PanelBar) (move_onscreen : Bool) : PanelBar :=
  { bar with showCollapsedPanelsInputOnscreen := move_onscreen }

def StartHideCollapsedPanelsWatcher (bar : PanelBar) : PanelBar :=
  { bar with hide_collapsed_panels_pointer_watcher_ := some true }

def DisableShowCollapsedPanelsTimer (bar : PanelBar) : PanelBar :=
  { bar with showCollapsedPanelsTimerArmed := false }

/-- A collapsed panel goes to where it is to be seen. -/
def settle (bar : PanelBar) (panel : ℕ) : Option PanelBar :=
  if bar.screen.is_expanded panel then some bar
  else do
    let info ← bar.GetPanelInfoOrDie panel
    let computed_y := bar.ComputePanelY panel info
    if bar.screen.titlebar_y panel ≠ computed_y then some (bar.moveY panel computed_y) else some bar

def setCollapsedPanelState (bar : PanelBar) (state : CollapsedPanelState) : PanelBar :=
  { bar with collapsed_panel_state_ := state }

/-- If this is the only collapsed panel, the input window is moved onscreen. -/
def showInputForFirstCollapsed (bar : PanelBar) : PanelBar :=
  if bar.GetNumCollapsedPanels = 1 then bar.ConfigureShowCollapsedPanelsInputWindow true else bar

/-- If this was the last collapsed panel, the input window is moved offscreen. -/
def hideInputAfterLastCollapsed (bar : PanelBar) : PanelBar :=
  if bar.GetNumCollapsedPanels = 0 then bar.ConfigureShowCollapsedPanelsInputWindow false else bar

def ShowCollapsedPanels (bar : PanelBar) : Option PanelBar := do
  let bar := bar.DisableShowCollapsedPanelsTimer.setCollapsedPanelState .COLLAPSED_PANEL_STATE_SHOWN
  let bar ← bar.panels_.foldlM settle bar
  some (bar.ConfigureShowCollapsedPanelsInputWindow false).StartHideCollapsedPanelsWatcher

/-- Whether a collapsed panel is being dragged, so that hiding the others is put off. -/
def draggingCollapsedPanel (bar : PanelBar) : Bool :=
  bar.dragged_panel_.any fun panel => !bar.screen.is_expanded panel

/-- Hide the collapsed panels, where that is not put off. -/
def hideNow (bar : PanelBar) : Option PanelBar := do
  let bar := bar.setCollapsedPanelState .COLLAPSED_PANEL_STATE_HIDDEN
  let bar ← bar.panels_.foldlM settle bar
  let bar :=
    if 0 < bar.GetNumCollapsedPanels then bar.ConfigureShowCollapsedPanelsInputWindow true else bar
  some { bar with hide_collapsed_panels_pointer_watcher_ := none }

def HideCollapsedPanels (bar : PanelBar) : Option PanelBar :=
  let bar := bar.DisableShowCollapsedPanelsTimer
  if bar.draggingCollapsedPanel then
    some (bar.setCollapsedPanelState .COLLAPSED_PANEL_STATE_WAITING_TO_HIDE)
  else bar.hideNow

def CreateAnchor (bar : PanelBar) (panel : ℕ) : PanelBar := { bar with anchor_panel_ := some panel }

def DestroyAnchor (bar : PanelBar) : PanelBar := { bar with anchor_panel_ := none }

/-- How far another panel is away. -/
def distance (screen : Screen) (panel other : ℕ) : ℤ :=
  if screen.right other ≤ screen.content_x panel then screen.content_x panel - screen.right other
  else if screen.content_x other ≥ screen.right panel then screen.content_x other - screen.right panel
  else |screen.content_center other - screen.content_center panel|

/-- The panel that is nearest so far and its distance, with one more panel looked at. -/
def nearer (screen : Screen) (panel : ℕ) (best : Option ℕ × ℤ) (other : ℕ) : Option ℕ × ℤ :=
  if other = panel ∨ !screen.is_expanded other then best
  else if distance screen panel other < best.2 then (some other, distance screen panel other)
  else best

def GetNearestExpandedPanel (bar : PanelBar) (panel : ℕ) : Option ℕ :=
  if !bar.screen.is_expanded panel then none
  else (bar.panels_.foldl (nearer bar.screen panel) (none, kint32max)).1

def FocusPanel (bar : PanelBar) (panel : ℕ) : PanelBar :=
  { bar with
    screen := bar.screen.SetActiveWindowProperty (some (bar.screen.panels panel).content_xid)
    desired_panel_to_focus_ := some panel }

/-- The panel that `TakeFocus` focuses. -/
def panelToFocus (bar : PanelBar) : Option ℕ :=
  bar.desired_panel_to_focus_.or (bar.panels_.find? fun panel => bar.screen.is_expanded panel)

def TakeFocus (bar : PanelBar) : Bool × PanelBar :=
  match bar.panelToFocus with
  | some panel => (true, bar.FocusPanel panel)
  | none => (false, bar)

/-- `WindowManager::TakeFocus`: the layout manager is asked first, then the bar. -/
def wmTakeFocus (bar : PanelBar) : PanelBar :=
  match bar.screen.layoutFocus with
  | some xid => { bar with screen := bar.screen.SetActiveWindowProperty (some xid) }
  | none => bar.TakeFocus.2

def ExpandPanel (bar : PanelBar) (panel : ℕ) (create_anchor : Bool) : Option PanelBar :=
  if bar.screen.is_expanded panel then some bar
  else do
    let bar := bar.setExpandedState panel true
    let info ← bar.GetPanelInfoOrDie panel
    let bar := bar.moveY panel (bar.ComputePanelY panel info)
    let bar := if create_anchor then bar.CreateAnchor panel else bar
    some bar.hideInputAfterLastCollapsed

/-- A panel that had the focus gives it to another one. -/
def giveUpFocus (bar : PanelBar) (panel : ℕ) (panel_to_focus : Option ℕ) : PanelBar :=
  if (bar.screen.content_win panel).focused then
    let bar := { bar with desired_panel_to_focus_ := panel_to_focus }
    match bar.TakeFocus with
    | (true, bar) => bar
    | (false, bar) => { bar with screen := bar.screen.SetActiveWindowProperty none }.wmTakeFocus
  else bar

def CollapsePanel (bar : PanelBar) (panel : ℕ) : Option PanelBar :=
  if !bar.screen.is_expanded panel then some bar
  else do
    let panel_to_focus := bar.GetNearestExpandedPanel panel
    let bar := if bar.anchor_panel_ = some panel then bar.DestroyAnchor else bar
    let bar := bar.setExpandedState panel false
    let info ← bar.GetPanelInfoOrDie panel
    let bar := bar.moveY panel (bar.ComputePanelY panel info)
    some (bar.giveUpFocus panel panel_to_focus).showInputForFirstCollapsed

/-- A panel that is dragged into the bar goes to the place where it is dropped. -/
def startDrag (bar : PanelBar) (panel : ℕ) (source : PanelSource) : Option PanelBar :=
  if source = .PANEL_SOURCE_DRAGGED then do
    let bar ← bar.ReorderPanel panel
    some { bar with dragged_panel_ := some panel, dragging_panel_horizontally_ := true }
  else some bar

/-- The new panel is moved to its position, which depends on where it comes from. -/
def place (bar : PanelBar) (panel : ℕ) (info : PanelInfo) : PanelSource → PanelBar
  | .PANEL_SOURCE_NEW =>
    let final_y := bar.ComputePanelY panel info
    { bar with screen := bar.screen.Move panel info.snapped_right bar.screen.height }.moveY panel final_y
  | .PANEL_SOURCE_DRAGGED => bar.moveY panel (bar.ComputePanelY panel info)
  | .PANEL_SOURCE_DROPPED =>
    let final_y := bar.ComputePanelY panel info
    { bar with screen := bar.screen.Move panel info.snapped_right final_y }

/-- A new panel gets the focus, and one that had it keeps it. -/
def focusAdded (bar : PanelBar) (panel : ℕ) (source : PanelSource) : PanelBar :=
  if bar.screen.is_expanded panel ∧
      (source = .PANEL_SOURCE_NEW ∨ (bar.screen.content_win panel).focused) then bar.FocusPanel panel
  else bar

/-- The panel goes to the left of the others. -/
def insertPanel (bar : PanelBar) (panel : ℕ) : PanelBar :=
  let info : PanelInfo :=
    { snapped_right := bar.screen.width - bar.total_panel_width_ - kPixelsBetweenPanels
      is_urgent := (bar.screen.content_win panel).wm_hint_urgent }
  let bar := if (bar.panel_infos_ panel).isNone then bar.setInfo panel (some info) else bar
  { bar with
    panels_ := panel :: bar.panels_
    total_panel_width_ := bar.total_panel_width_ + (bar.screen.content_width panel + kPixelsBetweenPanels) }

def AddPanel (bar : PanelBar) (panel : ℕ) (source : PanelSource) : Option PanelBar := do
  let bar ← (bar.insertPanel panel).startDrag panel source
  let info ← bar.GetPanelInfoOrDie panel
  let bar := (bar.place panel info source).focusAdded panel source
  if !bar.screen.is_expanded panel then some bar.showInputForFirstCollapsed else some bar

/-- The first panel that has a window as its titlebar or its content. -/
def FindPanelInVectorByWindow (screen : Screen) (panels : List ℕ) (xid : XWindow) : Option ℕ :=
  panels.find? fun panel =>
    (screen.panels panel).titlebar_xid == xid || (screen.panels panel).content_xid == xid

/-- The references to a panel that goes are given up. -/
def forgetPanel (bar : PanelBar) (panel : ℕ) : PanelBar :=
  { bar with
    anchor_panel_ := if bar.anchor_panel_ = some panel then none else bar.anchor_panel_
    dragged_panel_ := if bar.dragged_panel_ = some panel then none else bar.dragged_panel_
    desired_panel_to_focus_ :=
      if bar.desired_panel_to_focus_ = some panel then bar.GetNearestExpandedPanel panel
      else bar.desired_panel_to_focus_ }

/-- Erase a panel from the vector. -/
def erasePanel (bar : PanelBar) (panel : ℕ) : PanelBar :=
  { bar with
    total_panel_width_ := bar.total_panel_width_ - (bar.screen.content_width panel + kPixelsBetweenPanels)
    panels_ := bar.panels_.erase panel }

def RemovePanel (bar : PanelBar) (panel : ℕ) : Option PanelBar := do
  let bar := bar.forgetPanel panel
  let was_collapsed := !bar.screen.is_expanded panel
  let _ ← bar.panel_infos_ panel
  let bar := bar.setInfo panel none
  match FindPanelInVectorByWindow bar.screen bar.panels_ (bar.screen.panels panel).content_xid with
  | none => some bar
  | some found => do
    let bar ← (bar.erasePanel found).repack
    if was_collapsed then some bar.hideInputAfterLastCollapsed else some bar

def ShouldAddDraggedPanel (bar : PanelBar) (panel : ℕ) (_drag_x drag_y : ℤ) : Bool :=
  drag_y + bar.screen.total_height panel > bar.screen.height - kPanelAttachThresholdPixels

/-- A button press in the input window of the anchor. -/
def HandleInputWindowButtonPress (bar : PanelBar) (button : ℕ) : Option PanelBar :=
  if button ≠ 1 then some bar
  else
    match bar.anchor_panel_ with
    | some panel => bar.DestroyAnchor.CollapsePanel panel
    | none => some bar.DestroyAnchor

/-- The pointer enters the input window for showing collapsed panels. -/
def HandleInputWindowPointerEnter (bar : PanelBar) (x_root : ℤ) : Option PanelBar :=
  if x_root ≥ bar.screen.width - bar.total_panel_width_ then bar.ShowCollapsedPanels
  else if bar.collapsed_panel_state_ ≠ .COLLAPSED_PANEL_STATE_SHOWN ∧
      bar.collapsed_panel_state_ ≠ .COLLAPSED_PANEL_STATE_WAITING_TO_SHOW then
    some { bar.setCollapsedPanelState .COLLAPSED_PANEL_STATE_WAITING_TO_SHOW with
      showCollapsedPanelsTimerArmed := true }
  else some bar

/-- The pointer leaves that window. -/
def HandleInputWindowPointerLeave (bar : PanelBar) : PanelBar :=
  if bar.collapsed_panel_state_ = .COLLAPSED_PANEL_STATE_WAITING_TO_SHOW then
    (bar.setCollapsedPanelState .COLLAPSED_PANEL_STATE_HIDDEN).DisableShowCollapsedPanelsTimer
  else bar

def HandlePanelTitlebarPointerEnter (bar : PanelBar) (panel : ℕ) : Option PanelBar :=
  if bar.collapsed_panel_state_ ≠ .COLLAPSED_PANEL_STATE_SHOWN ∧ !bar.screen.is_expanded panel then
    bar.ShowCollapsedPanels
  else some bar

def HandleSetPanelStateMessage (bar : PanelBar) (panel : ℕ) (expand : Bool) : Option PanelBar :=
  if expand then bar.ExpandPanel panel true else bar.CollapsePanel panel

/-- A panel that was dragged vertically is expanded or collapsed if it was dragged far enough. -/
def dropVertically (bar : PanelBar) (panel : ℕ) (info : PanelInfo) : Option PanelBar :=
  let mostly_visible :=
    2 * bar.screen.titlebar_y panel < 2 * bar.screen.height - bar.screen.total_height panel
  if mostly_visible ∧ !bar.screen.is_expanded panel then do
    let bar ← bar.ExpandPanel panel false
    some (bar.FocusPanel panel)
  else if ¬ mostly_visible ∧ bar.screen.is_expanded panel then bar.CollapsePanel panel
  else some (bar.moveY panel (bar.ComputePanelY panel info))

def drop (bar : PanelBar) (panel : ℕ) (info : PanelInfo) : Option PanelBar :=
  if bar.dragging_panel_horizontally_ then some (bar.moveX panel info.snapped_right)
  else bar.dropVertically panel info

/-- Hide the collapsed panels now if that was put off, unless the pointer is back at the bottom. -/
def finishHiding (bar : PanelBar) (pointer_y : ℤ) : Option PanelBar :=
  if bar.collapsed_panel_state_ = .COLLAPSED_PANEL_STATE_WAITING_TO_HIDE then
    if pointer_y < bar.screen.height - kHideCollapsedPanelsDistancePixels then bar.HideCollapsedPanels
    else
      some (bar.setCollapsedPanelState .COLLAPSED_PANEL_STATE_SHOWN).StartHideCollapsedPanelsWatcher
  else some bar

def HandlePanelDragComplete (bar : PanelBar) (panel : ℕ) (pointer_y : ℤ) : Option PanelBar :=
  if bar.dragged_panel_ ≠ some panel then some bar
  else do
    let info ← bar.GetPanelInfoOrDie panel
    let bar ← bar.drop panel info
    let bar := { bar with dragged_panel_ := none }
    bar.finishHiding pointer_y

/-- A drag that was not completed is abandoned for the drag of another panel. -/
def abandonDrag (bar : PanelBar) (pointer_y : ℤ) : Option PanelBar :=
  match bar.dragged_panel_ with
  | some other => bar.HandlePanelDragComplete other pointer_y
  | none => some bar

/-- The panel becomes the dragged one, if it is not yet. -/
def beginDrag (bar : PanelBar) (panel : ℕ) (drag_x drag_y pointer_y : ℤ) : Option PanelBar :=
  if bar.dragged_panel_ = some panel then some bar
  else do
    let bar ← bar.abandonDrag pointer_y
    some { bar with
      dragged_panel_ := some panel
      dragging_panel_horizontally_ :=
        |drag_x - bar.screen.right panel| > |drag_y - bar.screen.titlebar_y panel| }

def dragTo (bar : PanelBar) (panel : ℕ) (drag_x drag_y : ℤ) : PanelBar :=
  if bar.dragging_panel_horizontally_ then bar.moveX panel drag_x
  else
    bar.moveY panel
      (max (min drag_y (bar.screen.height - bar.screen.titlebar_height panel))
        (bar.screen.height - bar.screen.total_height panel))

/-- Whether the panel stays in the bar when it is dragged to a position, and the bar then. -/
def HandleNotifyPanelDraggedMessage (bar : PanelBar) (panel : ℕ) (drag_x drag_y pointer_y : ℤ) :
    Option (Bool × PanelBar) :=
  let y_threshold := bar.screen.height - bar.screen.total_height panel - kPanelDetachThresholdPixels
  if drag_y ≤ y_threshold then some (false, bar)
  else do
    let bar ← bar.beginDrag panel drag_x drag_y pointer_y
    let bar ← (bar.dragTo panel drag_x drag_y).ReorderPanel panel
    some (true, bar)

def HandleNotifyPanelDragCompleteMessage (bar : PanelBar) (panel : ℕ) (pointer_y : ℤ) : Option PanelBar :=
  bar.HandlePanelDragComplete panel pointer_y

def HandleFocusPanelMessage (bar : PanelBar) (panel : ℕ) : Option PanelBar := do
  let bar ← bar.ExpandPanel panel false
  some (bar.FocusPanel panel)

def HandlePanelResize (bar : PanelBar) : Option PanelBar := bar.PackPanels none

/-- A panel jumps to its vertical position. -/
def jump (bar : PanelBar) (panel : ℕ) : Option PanelBar := do
  let info ← bar.GetPanelInfoOrDie panel
  some (bar.moveY panel (bar.ComputePanelY panel info))

def HandleScreenResize (bar : PanelBar) : Option PanelBar := do
  let bar ← bar.panels_.foldlM jump bar
  bar.repack

def HandlePanelUrgencyChange (bar : PanelBar) (panel : ℕ) : Option PanelBar := do
  let info ← bar.GetPanelInfoOrDie panel
  let is_urgent := (bar.screen.content_win panel).wm_hint_urgent
  if is_urgent = info.is_urgent then some bar
  else (bar.setInfo panel (some { info with is_urgent })).settle panel

/-- The timer for showing the collapsed panels fires. -/
def HandleShowCollapsedPanelsTimer (bar : PanelBar) : Option PanelBar :=
  bar.DisableShowCollapsedPanelsTimer.ShowCollapsedPanels

/-- The pointer is found away from the bottom of the screen by the watcher, which stops watching. -/
def handleHideCollapsedPanelsWatcher (bar : PanelBar) : Option PanelBar :=
  { bar with hide_collapsed_panels_pointer_watcher_ := some false }.HideCollapsedPanels

/-- Whether a screen has the same size as that of the bar, and the same panels with the same widths in it. -/
def keepsPanels (bar : PanelBar) (screen : Screen) : Bool :=
  screen.width = bar.screen.width && screen.height = bar.screen.height &&
    bar.panels_.all fun panel =>
      screen.panels panel = bar.screen.panels panel &&
        screen.content_width panel = bar.screen.content_width panel

end PanelBar

/-- What happens to a panel bar: what its panel manager calls, the timers, and what happens to the screen
elsewhere. -/
inductive PanelBarEvent where
  | AddPanel (panel : ℕ) (source : PanelSource)
  | RemovePanel (panel : ℕ)
  | HandleNotifyPanelDraggedMessage (panel : ℕ) (drag_x drag_y pointer_y : ℤ)
  | HandleNotifyPanelDragCompleteMessage (panel : ℕ) (pointer_y : ℤ)
  | HandleSetPanelStateMessage (panel : ℕ) (expand : Bool)
  | HandleFocusPanelMessage (panel : ℕ)
  | HandlePanelButtonPress (panel : ℕ)
  | HandlePanelTitlebarPointerEnter (panel : ℕ)
  | HandlePanelUrgencyChange (panel : ℕ)
  | HandlePanelResize (panel : ℕ) (width height : ℕ) (gravity : Gravity)
  | HandleScreenResize (width height : ℤ)
  | HandleInputWindowButtonPress (button : ℕ)
  | HandleInputWindowPointerEnter (x_root : ℤ)
  | HandleInputWindowPointerLeave
  | HandleShowCollapsedPanelsTimer
  | hideCollapsedPanelsWatcher
  | anchorPointerWatcher
  | TakeFocus
  | elsewhere (screen : Screen)

namespace PanelBar

/-- The panel manager adds a panel only if it is in no container, and hands events of a panel over to the
container that it is in. A timer fires if it is armed. -/
def step (bar : PanelBar) : PanelBarEvent → Option PanelBar
  | .AddPanel panel source => if panel ∈ bar.panels_ then none else bar.AddPanel panel source
  | .RemovePanel panel => if panel ∈ bar.panels_ then bar.RemovePanel panel else none
  | .HandleNotifyPanelDraggedMessage panel drag_x drag_y pointer_y =>
    if panel ∈ bar.panels_ then
      (bar.HandleNotifyPanelDraggedMessage panel drag_x drag_y pointer_y).map Prod.snd
    else none
  | .HandleNotifyPanelDragCompleteMessage panel pointer_y =>
    if panel ∈ bar.panels_ then bar.HandleNotifyPanelDragCompleteMessage panel pointer_y else none
  | .HandleSetPanelStateMessage panel expand =>
    if panel ∈ bar.panels_ then bar.HandleSetPanelStateMessage panel expand else none
  | .HandleFocusPanelMessage panel =>
    if panel ∈ bar.panels_ then bar.HandleFocusPanelMessage panel else none
  | .HandlePanelButtonPress panel => if panel ∈ bar.panels_ then some (bar.FocusPanel panel) else none
  | .HandlePanelTitlebarPointerEnter panel =>
    if panel ∈ bar.panels_ then bar.HandlePanelTitlebarPointerEnter panel else none
  | .HandlePanelUrgencyChange panel =>
    if panel ∈ bar.panels_ then bar.HandlePanelUrgencyChange panel else none
  | .HandlePanelResize panel width height gravity =>
    if panel ∈ bar.panels_ then
      { bar with screen := bar.screen.ResizeContent panel width height gravity }.HandlePanelResize
    else none
  | .HandleScreenResize width height =>
    { bar with screen := { bar.screen with width, height } }.HandleScreenResize
  | .HandleInputWindowButtonPress button => bar.HandleInputWindowButtonPress button
  | .HandleInputWindowPointerEnter x_root => bar.HandleInputWindowPointerEnter x_root
  | .HandleInputWindowPointerLeave => some bar.HandleInputWindowPointerLeave
  | .HandleShowCollapsedPanelsTimer =>
    if bar.showCollapsedPanelsTimerArmed then bar.HandleShowCollapsedPanelsTimer else none
  | .hideCollapsedPanelsWatcher =>
    if bar.hide_collapsed_panels_pointer_watcher_ = some true then bar.handleHideCollapsedPanelsWatcher
    else none
  | .anchorPointerWatcher => some bar.DestroyAnchor
  | .TakeFocus => some bar.TakeFocus.2
  | .elsewhere screen => if bar.keepsPanels screen then some { bar with screen } else none

end PanelBar

end ChromiumOS.WindowManager
