import ChromiumOS.Model.WindowManager.MotionEventCoalescer
import ChromiumOS.Model.WindowManager.ToplevelWindow

/-! # The layout manager

`layout_manager.cc`, with what the window manager does before it hands an event over. A toplevel window
is referred to by its address; a reference that is used when there is no such window ends the run. The
geometry of overview mode is a parameter, and dragging the background of overview mode is left out.
-/

namespace ChromiumOS.WindowManager

inductive Mode where
  | MODE_ACTIVE
  | MODE_OVERVIEW
  deriving DecidableEq

structure LayoutManager where
  mode_ : Mode
  area : Area
  leftDockVisible : Bool
  rightDockVisible : Bool
  toplevels_ : List ToplevelWindow
  input_to_toplevel_ : List (XWindow × ℕ)
  transient_to_toplevel_ : List (XWindow × ℕ)
  magnified_toplevel_ : Option ℕ
  active_toplevel_ : Option ℕ
  toplevel_under_floating_tab_ : Option ℕ
  floating_tab_ : Option XWindow
  tab_summary_ : Option XWindow
  create_browser_window_ : Option XWindow
  floating_tab_event_coalescer_ : MotionEventCoalescer
  mapped : List XWindow
  focused : List XWindow
  nextAddress : ℕ

/-- The flags, the size hints of clients, and the geometry of overview mode: whether the floating tab is
at a position already, the index of the window there, whether it is at the tab summary of the magnified
window, and whether it is in the bottom area. -/
structure LayoutConfiguration where
  lm_new_overview_mode : Bool
  GetMaxSize : XWindow → ℤ → ℤ → ℤ × ℤ
  tabIsAt : LayoutManager → ℤ → ℤ → Bool
  toplevelAt : LayoutManager → ℤ → ℤ → Option ℕ
  atTabSummary : LayoutManager → ℤ → ℤ → Bool
  inBottomArea : LayoutManager → ℤ → ℤ → Bool

namespace LayoutManager

def kDockWidth : ℤ := 256

/-- The area next to the docks that are visible, as `PanelManager::UpdateAvailableArea` has it. -/
def availableArea (width height : ℤ) (left right : Bool) : Area where
  x_ := if left then kDockWidth else 0
  y_ := 0
  width_ := width - (if left then kDockWidth else 0) - (if right then kDockWidth else 0)
  height_ := height
  wm_width := width
  wm_height := height

def new (width height : ℤ) : LayoutManager where
  mode_ := .MODE_ACTIVE
  area := availableArea width height false false
  leftDockVisible := false
  rightDockVisible := false
  toplevels_ := []
  input_to_toplevel_ := []
  transient_to_toplevel_ := []
  magnified_toplevel_ := none
  active_toplevel_ := none
  toplevel_under_floating_tab_ := none
  floating_tab_ := none
  tab_summary_ := none
  create_browser_window_ := none
  floating_tab_event_coalescer_ := .new
  mapped := []
  focused := []
  nextAddress := 0

/-- The window at an address. -/
def deref (manager : LayoutManager) (address : ℕ) : Option ToplevelWindow :=
  manager.toplevels_.find? fun toplevel => toplevel.address == address

/-- Whether a reference is `NULL` or can be used. -/
def usable (manager : LayoutManager) (reference : Option ℕ) : Bool :=
  reference.all fun address => (manager.deref address).isSome

/-- Call a method of the window at an address. -/
def call (manager : LayoutManager) (address : ℕ) (method : ToplevelWindow → ToplevelWindow) :
    Option LayoutManager :=
  if (manager.deref address).isSome then
    some { manager with
      toplevels_ := manager.toplevels_.map fun toplevel =>
        if toplevel.address = address then method toplevel else toplevel }
  else none

/-- Entries of a map after `map[key] = value`, and after `map.erase(key)`. -/
def assign (entries : List (XWindow × ℕ)) (key : XWindow) (value : ℕ) : List (XWindow × ℕ) :=
  (key, value) :: entries.filter fun entry => entry.1 != key

def erase (entries : List (XWindow × ℕ)) (key : XWindow) : List (XWindow × ℕ) :=
  entries.filter fun entry => entry.1 != key

def IsHandledWindowType (type : WindowType) : Bool :=
  type = .WINDOW_TYPE_CHROME_FLOATING_TAB || type = .WINDOW_TYPE_CHROME_INFO_BUBBLE ||
    type = .WINDOW_TYPE_CHROME_TAB_SUMMARY || type = .WINDOW_TYPE_CHROME_TOPLEVEL ||
    type = .WINDOW_TYPE_CREATE_BROWSER_WINDOW || type = .WINDOW_TYPE_UNKNOWN

def GetToplevelWindowByInputXid (manager : LayoutManager) (xid : XWindow) : Option ℕ :=
  manager.input_to_toplevel_.lookup xid

/-- The index of a window, or -1. -/
def GetIndexForToplevelWindow (manager : LayoutManager) (address : ℕ) : ℤ :=
  match manager.toplevels_.findIdx? fun toplevel => toplevel.address == address with
  | some index => index
  | none => -1

/-- A window is known by its id, so this is `GetToplevelWindowByXid` too. -/
def GetToplevelWindowByWindow (manager : LayoutManager) (xid : XWindow) : Option ℕ :=
  (manager.toplevels_.find? fun toplevel => toplevel.win_.xid == xid).map fun toplevel => toplevel.address

def GetToplevelWindowOwningTransientWindow (manager : LayoutManager) (xid : XWindow) : Option ℕ :=
  manager.transient_to_toplevel_.lookup xid

/-- Whether the layout manager gets the events of a window. -/
def isRegistered (manager : LayoutManager) (xid : XWindow) : Bool :=
  manager.toplevels_.any fun toplevel =>
    toplevel.win_.xid == xid || toplevel.input_xid_ == xid || (toplevel.GetTransientWindow xid).isSome

def IsWindowOrTransientFocused (manager : LayoutManager) (toplevel : ToplevelWindow) : Bool :=
  toplevel.win_.xid ∈ manager.focused ||
    toplevel.transients_.any fun transient => transient.xid ∈ manager.focused

/-- The address at an index that may count from the end. -/
def addressAt (manager : LayoutManager) (index : ℤ) : Option ℕ :=
  let index := if index < 0 then manager.toplevels_.length + index else index
  if index < 0 then none
  else (manager.toplevels_[index.toNat]?).map fun toplevel => toplevel.address

def LayoutToplevelWindowsForActiveMode (manager : LayoutManager) (update_focus : Bool) : LayoutManager :=
  if manager.toplevels_ = [] then manager
  else
    let active_toplevel_ := manager.active_toplevel_.or (manager.addressAt 0)
    { manager with
      active_toplevel_
      toplevels_ := manager.toplevels_.map fun toplevel =>
        toplevel.ConfigureForActiveMode manager.area (some toplevel.address == active_toplevel_) update_focus }

/-- The positions are calculated for the magnified window too, which is used for that. -/
def LayoutToplevelWindowsForOverviewMode (manager : LayoutManager) : Option LayoutManager :=
  if !manager.usable manager.magnified_toplevel_ then none
  else some { manager with
    toplevels_ := manager.toplevels_.map fun toplevel =>
      toplevel.ConfigureForOverviewMode manager.area (some toplevel.address == manager.magnified_toplevel_) }

/-- The active window is given the state in which it leaves. -/
def setStateForOldWin (manager : LayoutManager) (state_for_old_win : ToplevelState) :
    Option LayoutManager :=
  match manager.active_toplevel_ with
  | some old => manager.call old fun toplevel => { toplevel with state_ := state_for_old_win }
  | none => some manager

def SetActiveToplevelWindow (manager : LayoutManager) (address : ℕ)
    (state_for_new_win state_for_old_win : ToplevelState) : Option LayoutManager :=
  if manager.mode_ ≠ .MODE_ACTIVE ∨ manager.active_toplevel_ = some address then some manager
  else do
    let manager ← manager.setStateForOldWin state_for_old_win
    let manager ← manager.call address fun toplevel => { toplevel with state_ := state_for_new_win }
    some ({ manager with active_toplevel_ := some address }.LayoutToplevelWindowsForActiveMode true)

section Configuration

variable (configuration : LayoutConfiguration)

/-- The window magnified before is told to hide its tabs. -/
def SetMagnifiedToplevelWindow (manager : LayoutManager) (reference : Option ℕ) : Option LayoutManager :=
  if manager.magnified_toplevel_ = reference then some manager
  else if !configuration.lm_new_overview_mode && !manager.usable manager.magnified_toplevel_ then none
  else some { manager with magnified_toplevel_ := reference }

/-- The new overview mode keeps the magnified window in active mode. -/
def leaveOverviewMode (manager : LayoutManager) : Option LayoutManager :=
  if configuration.lm_new_overview_mode then some manager
  else manager.SetMagnifiedToplevelWindow configuration none

/-- `SetMode(MODE_ACTIVE)`. -/
def setActiveMode (manager : LayoutManager) : Option LayoutManager := do
  let active_toplevel_ :=
    if (configuration.lm_new_overview_mode || manager.active_toplevel_.isNone) &&
        manager.magnified_toplevel_.isSome then manager.magnified_toplevel_
    else manager.active_toplevel_
  let active_toplevel_ := active_toplevel_.or (manager.addressAt 0)
  let manager := { manager with mode_ := .MODE_ACTIVE, active_toplevel_ }
  let manager ← manager.leaveOverviewMode configuration
  some (manager.LayoutToplevelWindowsForActiveMode true)

/-- `SetMode(MODE_OVERVIEW)`. The active window is asked whether it has the focus. -/
def setOverviewMode (manager : LayoutManager) : Option LayoutManager := do
  let manager := { manager with mode_ := .MODE_OVERVIEW }
  let manager ← manager.SetMagnifiedToplevelWindow configuration
    (if configuration.lm_new_overview_mode then manager.active_toplevel_ else none)
  if !manager.usable manager.active_toplevel_ then none
  else manager.LayoutToplevelWindowsForOverviewMode

def SetMode (manager : LayoutManager) : Mode → Option LayoutManager
  | .MODE_ACTIVE => manager.setActiveMode configuration
  | .MODE_OVERVIEW => manager.setOverviewMode configuration

def SwitchToActiveMode (manager : LayoutManager) (activate_magnified_win : Bool) : Option LayoutManager :=
  if manager.mode_ = .MODE_ACTIVE then some manager
  else
    let manager :=
      if activate_magnified_win && manager.magnified_toplevel_.isSome then
        { manager with active_toplevel_ := manager.magnified_toplevel_ }
      else manager
    manager.SetMode configuration .MODE_ACTIVE

def ActivateToplevelWindowByIndex (manager : LayoutManager) (index : ℤ) : Option LayoutManager :=
  if manager.toplevels_ = [] ∨ manager.mode_ ≠ .MODE_ACTIVE then some manager
  else
    match manager.addressAt index with
    | none => some manager
    | some address =>
      if some address = manager.active_toplevel_ then some manager
      else manager.SetActiveToplevelWindow address .STATE_ACTIVE_MODE_IN_FADE .STATE_ACTIVE_MODE_OUT_FADE

def MagnifyToplevelWindowByIndex (manager : LayoutManager) (index : ℤ) : Option LayoutManager :=
  if manager.toplevels_ = [] ∨ manager.mode_ ≠ .MODE_OVERVIEW then some manager
  else
    match manager.addressAt index with
    | none => some manager
    | some address =>
      if some address = manager.magnified_toplevel_ then some manager
      else do
        let manager ← manager.SetMagnifiedToplevelWindow configuration (some address)
        manager.LayoutToplevelWindowsForOverviewMode

/-- The address of the window before or after another one, around the end. -/
def neighbour (manager : LayoutManager) (address : ℕ) (forward : Bool) : Option ℕ :=
  let size : ℤ := manager.toplevels_.length
  manager.addressAt
    ((size + manager.GetIndexForToplevelWindow address + (if forward then 1 else -1)) % size)

/-- The window that is activated next. -/
def cycleTarget (manager : LayoutManager) (forward : Bool) : Option ℕ :=
  match manager.active_toplevel_ with
  | none => manager.addressAt (if forward then 0 else -1)
  | some active => manager.neighbour active forward

def CycleActiveToplevelWindow (manager : LayoutManager) (forward : Bool) : Option LayoutManager :=
  if manager.mode_ ≠ .MODE_ACTIVE ∨ manager.toplevels_ = [] then some manager
  else if manager.active_toplevel_.isSome ∧ manager.toplevels_.length = 1 then some manager
  else do
    let address ← manager.cycleTarget forward
    manager.SetActiveToplevelWindow address
      (if forward then .STATE_ACTIVE_MODE_IN_FROM_RIGHT else .STATE_ACTIVE_MODE_IN_FROM_LEFT)
      (if forward then .STATE_ACTIVE_MODE_OUT_TO_LEFT else .STATE_ACTIVE_MODE_OUT_TO_RIGHT)

/-- If no window is magnified, the active one is taken for it. -/
def magnifyNext (manager : LayoutManager) (forward : Bool) : Option LayoutManager :=
  match manager.magnified_toplevel_.or manager.active_toplevel_ with
  | none => manager.SetMagnifiedToplevelWindow configuration (manager.addressAt 0)
  | some old => do
    let manager := { manager with magnified_toplevel_ := some old }
    let address ← manager.neighbour old forward
    manager.SetMagnifiedToplevelWindow configuration (some address)

def CycleMagnifiedToplevelWindow (manager : LayoutManager) (forward : Bool) : Option LayoutManager :=
  if manager.mode_ ≠ .MODE_OVERVIEW ∨ manager.toplevels_ = [] then some manager
  else if manager.magnified_toplevel_.isSome ∧ manager.toplevels_.length = 1 then some manager
  else do
    let manager ← manager.magnifyNext configuration forward
    manager.LayoutToplevelWindowsForOverviewMode

/-- The window that a floating tab can be docked into. -/
def dockable (manager : LayoutManager) (x y : ℤ) : Option ℕ := do
  let address ←
    ((configuration.toplevelAt manager x y).bind fun index => manager.addressAt index).or
      (if configuration.atTabSummary manager x y then manager.magnified_toplevel_ else none)
  let toplevel ← manager.deref address
  if toplevel.win_.type = .WINDOW_TYPE_CHROME_TOPLEVEL then some address else none

def MoveFloatingTab (manager : LayoutManager) (x y : ℤ) : Option LayoutManager :=
  if manager.floating_tab_.isNone ∨ configuration.tabIsAt manager x y then some manager
  else if manager.mode_ = .MODE_OVERVIEW then
    if !manager.usable manager.magnified_toplevel_ then none
    else
      let toplevel := manager.dockable configuration x y
      if toplevel = manager.toplevel_under_floating_tab_ then some manager
      else if !manager.usable manager.toplevel_under_floating_tab_ then none
      else do
        let manager := { manager with toplevel_under_floating_tab_ := toplevel }
        let manager ← manager.SetMagnifiedToplevelWindow configuration toplevel
        manager.LayoutToplevelWindowsForOverviewMode
  else if configuration.inBottomArea manager x y then manager.SetMode configuration .MODE_OVERVIEW
  else some manager

/-- The timer of the floating tab's coalescer. -/
def handleFloatingTabTimer (manager : LayoutManager) : Option LayoutManager :=
  match manager.floating_tab_event_coalescer_.queued with
  | none => some manager
  | some (x, y) => do
    let manager ← manager.MoveFloatingTab configuration x y
    some { manager with
      floating_tab_event_coalescer_ := manager.floating_tab_event_coalescer_.handled }

/-- The part of `HandleWindowMap` for a window with a toplevel window as its owner. -/
def mapTransient (manager : LayoutManager) (win : Window) (owner : ℕ) : Option LayoutManager := do
  let manager :=
    { manager with transient_to_toplevel_ := assign manager.transient_to_toplevel_ win.xid owner }
  let manager ← manager.call owner fun toplevel =>
    toplevel.AddTransientWindow { xid := win.xid, wm_state_modal := win.wm_state_modal }
  match manager.mode_, manager.active_toplevel_ with
  | .MODE_ACTIVE, some active => do
    let toplevel ← manager.deref active
    if manager.IsWindowOrTransientFocused toplevel then
      manager.call active fun toplevel => toplevel.TakeFocus
    else some manager
  | _, _ => some manager

/-- A new window goes to the right of the active one. -/
def insertToplevel (manager : LayoutManager) (toplevel : ToplevelWindow) : Option LayoutManager :=
  match manager.active_toplevel_ with
  | some active =>
    let old_index := manager.GetIndexForToplevelWindow active
    if old_index < 0 then none
    else some { manager with
      toplevels_ := manager.toplevels_.insertIdx (old_index.toNat + 1) toplevel }
  | none => some { manager with toplevels_ := manager.toplevels_ ++ [toplevel] }

/-- The part of `HandleWindowMap` for other windows. The server gives the input window an id that no
other one has. -/
def mapToplevel (manager : LayoutManager) (win : Window) (input_xid : XWindow) : Option LayoutManager :=
  if (manager.GetToplevelWindowByInputXid input_xid).isSome then none
  else
    let address := manager.nextAddress
    let toplevel := ToplevelWindow.new address manager.area (configuration.GetMaxSize win.xid) win input_xid
    let manager :=
      { manager with
        nextAddress := address + 1
        input_to_toplevel_ := assign manager.input_to_toplevel_ input_xid address }
    match manager.mode_ with
    | .MODE_ACTIVE => do
      let manager ← manager.insertToplevel toplevel
      manager.SetActiveToplevelWindow address .STATE_ACTIVE_MODE_IN_FROM_RIGHT
        .STATE_ACTIVE_MODE_OUT_TO_LEFT
    | .MODE_OVERVIEW =>
      let manager := { manager with toplevels_ := manager.toplevels_ ++ [toplevel] }
      manager.LayoutToplevelWindowsForOverviewMode

/-- The part of `HandleWindowMap` for a floating tab. -/
def mapFloatingTab (manager : LayoutManager) (win : Window) : LayoutManager :=
  let coalescer := manager.floating_tab_event_coalescer_.Start
  let coalescer :=
    match win.type_params with
    | x :: y :: _ => coalescer.StorePosition x y
    | _ => coalescer
  { manager with floating_tab_ := some win.xid, floating_tab_event_coalescer_ := coalescer }

def HandleWindowMap (manager : LayoutManager) (win : Window) (input_xid : XWindow) :
    Option LayoutManager :=
  if win.override_redirect then
    if win.type = .WINDOW_TYPE_CHROME_TAB_SUMMARY then some { manager with tab_summary_ := some win.xid }
    else some manager
  else if !IsHandledWindowType win.type then some manager
  else
    match win.type with
    | .WINDOW_TYPE_CHROME_TAB_SUMMARY => some { manager with tab_summary_ := some win.xid }
    | .WINDOW_TYPE_CHROME_FLOATING_TAB => some (manager.mapFloatingTab win)
    | .WINDOW_TYPE_CREATE_BROWSER_WINDOW =>
      let manager := { manager with create_browser_window_ := some win.xid }
      if manager.mode_ = .MODE_OVERVIEW then manager.LayoutToplevelWindowsForOverviewMode
      else some manager
    | _ =>
      match win.transient_for_xid.bind fun xid => manager.GetToplevelWindowByWindow xid with
      | some owner => manager.mapTransient win owner
      | none => manager.mapToplevel configuration win input_xid

/-- `HandleMapNotify` of the window manager, which passes over a window that is mapped. -/
def HandleMapNotify (manager : LayoutManager) (win : Window) (input_xid : XWindow) :
    Option LayoutManager :=
  if win.xid ∈ manager.mapped then some manager
  else
    let manager := { manager with mapped := win.xid :: manager.mapped }
    manager.HandleWindowMap configuration win input_xid

/-- Stop the coalescer of the floating tab, if it runs. -/
def stopFloatingTab (manager : LayoutManager) : Option LayoutManager :=
  let coalescer := manager.floating_tab_event_coalescer_
  if coalescer.running then
    let manager := { manager with floating_tab_event_coalescer_ := coalescer.stopped }
    manager.handleFloatingTabTimer configuration
  else some manager

/-- `HandleWindowUnmap`: the last position of the floating tab is handled when its window goes. -/
def unmapFloatingTab (manager : LayoutManager) (xid : XWindow) : Option LayoutManager :=
  if manager.floating_tab_ = some xid then do
    let manager ← manager.stopFloatingTab configuration
    some { manager with floating_tab_ := none }
  else some manager

/-- `HandleWindowUnmap`: the windows that are no toplevel windows. -/
def unmapOthers (manager : LayoutManager) (xid : XWindow) : Option LayoutManager :=
  let manager :=
    if manager.tab_summary_ = some xid then { manager with tab_summary_ := none } else manager
  if manager.create_browser_window_ = some xid then
    let manager := { manager with create_browser_window_ := none }
    if manager.mode_ = .MODE_OVERVIEW then manager.LayoutToplevelWindowsForOverviewMode else some manager
  else some manager

/-- `HandleWindowUnmap`: a transient window. -/
def unmapTransient (manager : LayoutManager) (xid : XWindow) : Option LayoutManager :=
  match manager.GetToplevelWindowOwningTransientWindow xid with
  | none => some manager
  | some owner => do
    let manager ← manager.call owner fun toplevel => toplevel.RemoveTransientWindow xid
    let manager :=
      { manager with transient_to_toplevel_ := erase manager.transient_to_toplevel_ xid }
    if xid ∈ manager.focused then manager.call owner fun toplevel => toplevel.TakeFocus
    else some manager

/-- The window that is activated when the one at an index is gone. -/
def activateReplacement (manager : LayoutManager) (index : ℤ) : Option LayoutManager :=
  if manager.active_toplevel_.isSome ∨ manager.toplevels_ = [] then some manager
  else do
    let size : ℤ := manager.toplevels_.length
    let address ← manager.addressAt ((index + size - 1) % size)
    manager.SetActiveToplevelWindow address .STATE_ACTIVE_MODE_IN_FROM_LEFT
      .STATE_ACTIVE_MODE_OUT_TO_RIGHT

def unmagnify (manager : LayoutManager) (address : ℕ) : Option LayoutManager :=
  if manager.magnified_toplevel_ = some address then
    manager.SetMagnifiedToplevelWindow configuration none
  else some manager

/-- Forget the references to a toplevel window. -/
def forget (manager : LayoutManager) (address : ℕ) : Option LayoutManager := do
  let manager ← manager.unmagnify configuration address
  some { manager with
    active_toplevel_ :=
      if manager.active_toplevel_ = some address then none else manager.active_toplevel_
    toplevel_under_floating_tab_ :=
      if manager.toplevel_under_floating_tab_ = some address then none
      else manager.toplevel_under_floating_tab_ }

/-- `HandleWindowUnmap`: a toplevel window. Its transient windows go with it. -/
def unmapToplevel (manager : LayoutManager) (xid : XWindow) : Option LayoutManager :=
  match manager.GetToplevelWindowByWindow xid with
  | none => some manager
  | some address => do
    let manager ← manager.forget configuration address
    let toplevel ← manager.deref address
    if (manager.GetToplevelWindowByInputXid toplevel.input_xid_).isNone then none
    else
      let index := manager.GetIndexForToplevelWindow address
      let manager :=
        { manager with
          input_to_toplevel_ := erase manager.input_to_toplevel_ toplevel.input_xid_
          toplevels_ := manager.toplevels_.eraseIdx index.toNat }
      if manager.mode_ = .MODE_OVERVIEW then manager.LayoutToplevelWindowsForOverviewMode
      else manager.activateReplacement index

def HandleWindowUnmap (manager : LayoutManager) (xid : XWindow) : Option LayoutManager := do
  let manager ← manager.unmapFloatingTab configuration xid
  let manager ← manager.unmapOthers xid
  let manager ← manager.unmapTransient xid
  manager.unmapToplevel configuration xid

/-- `HandleUnmapNotify` of the window manager. -/
def HandleUnmapNotify (manager : LayoutManager) (xid : XWindow) : Option LayoutManager :=
  let manager := { manager with mapped := manager.mapped.filter fun other => other != xid }
  manager.HandleWindowUnmap configuration xid

/-- The toplevel window that a window belongs to, as its transient window or as the window itself. -/
def toplevelOf (manager : LayoutManager) (xid : XWindow) : Option ℕ :=
  (manager.GetToplevelWindowOwningTransientWindow xid).or (manager.GetToplevelWindowByWindow xid)

def HandleButtonPress (manager : LayoutManager) (xid : XWindow) (button : ℕ) : Option LayoutManager :=
  if !manager.isRegistered xid then some manager
  else
    match manager.GetToplevelWindowByInputXid xid with
    | some address =>
      if button ≠ 1 ∨ manager.mode_ ≠ .MODE_OVERVIEW then some manager
      else if configuration.lm_new_overview_mode ∧ some address ≠ manager.magnified_toplevel_ then do
        let manager ← manager.SetMagnifiedToplevelWindow configuration (some address)
        manager.LayoutToplevelWindowsForOverviewMode
      else
        let manager := { manager with active_toplevel_ := some address }
        manager.SetMode configuration .MODE_ACTIVE
    | none =>
      match manager.toplevelOf xid with
      | none => some manager
      | some address => manager.call address fun toplevel => toplevel.HandleButtonPress xid

def HandlePointerEnter (manager : LayoutManager) (xid : XWindow) : Option LayoutManager :=
  match manager.GetToplevelWindowByInputXid xid with
  | none => some manager
  | some address =>
    if manager.mode_ ≠ .MODE_OVERVIEW then some manager
    else if !configuration.lm_new_overview_mode ∧ some address ≠ manager.magnified_toplevel_ then do
      let manager ← manager.SetMagnifiedToplevelWindow configuration (some address)
      manager.LayoutToplevelWindowsForOverviewMode
    else some manager

/-- The window notes whether it has the focus before the layout manager hears of it. -/
def HandleFocusChange (manager : LayoutManager) (xid : XWindow) (focus_in : Bool) :
    Option LayoutManager :=
  let manager :=
    { manager with
      focused := if focus_in then xid :: manager.focused else manager.focused.filter fun other => other != xid }
  if !manager.isRegistered xid then some manager
  else
    match manager.toplevelOf xid with
    | none => some manager
    | some address => manager.call address fun toplevel => toplevel.HandleFocusChange xid focus_in

/-- The message `WM_SWITCH_TO_OVERVIEW_MODE`. -/
def handleSwitchMessage (manager : LayoutManager) (xid : XWindow) : Option LayoutManager := do
  let manager ← manager.SetMode configuration .MODE_OVERVIEW
  match manager.GetToplevelWindowByWindow xid with
  | none => some manager
  | some address => manager.SetMagnifiedToplevelWindow configuration (some address)

/-- The message `WM_MOVE_FLOATING_TAB`. -/
def handleMoveMessage (manager : LayoutManager) (xid : XWindow) (x y : ℤ) : LayoutManager :=
  if manager.floating_tab_ = some xid then
    { manager with
      floating_tab_event_coalescer_ := manager.floating_tab_event_coalescer_.StorePosition x y }
  else manager

/-- A transient window that is to be activated is preferred by its owner. -/
def preferTransient (manager : LayoutManager) (xid : XWindow) : Option LayoutManager :=
  match manager.GetToplevelWindowOwningTransientWindow xid with
  | some owner =>
    manager.call owner fun toplevel => toplevel.SetPreferredTransientWindowToFocus (some xid)
  | none => some manager

/-- `HandleClientMessage` for `_NET_ACTIVE_WINDOW`. -/
def HandleClientMessage (manager : LayoutManager) (xid : XWindow) : Option LayoutManager :=
  if !manager.isRegistered xid then some manager
  else do
    let manager ← manager.preferTransient xid
    match manager.toplevelOf xid with
    | none => some manager
    | some address =>
      if manager.mode_ = .MODE_ACTIVE then
        if some address ≠ manager.active_toplevel_ then
          manager.SetActiveToplevelWindow address .STATE_ACTIVE_MODE_IN_FADE .STATE_ACTIVE_MODE_OUT_FADE
        else manager.call address fun toplevel => toplevel.TakeFocus
      else
        let manager := { manager with active_toplevel_ := some address }
        manager.SetMode configuration .MODE_ACTIVE

/-- A toplevel window may resize itself. -/
def HandleWindowConfigureRequest (manager : LayoutManager) (xid : XWindow) (req_width req_height : ℤ) :
    Option LayoutManager :=
  if !manager.isRegistered xid then some manager
  else
    match manager.GetToplevelWindowOwningTransientWindow xid with
    | some owner => manager.call owner id
    | none =>
      match manager.GetToplevelWindowByWindow xid with
      | none => some manager
      | some address =>
        manager.call address fun toplevel =>
          toplevel.ResizeClient (req_width, req_height) .GRAVITY_NORTHWEST

def TakeFocus (manager : LayoutManager) : Option LayoutManager :=
  match manager.mode_, manager.active_toplevel_ with
  | .MODE_ACTIVE, some active => manager.call active fun toplevel => toplevel.TakeFocus
  | _, _ => some manager

def MoveAndResize (manager : LayoutManager) (x y width height : ℤ) : Option LayoutManager :=
  let area := manager.area
  if x = area.x_ ∧ y = area.y_ ∧ width = area.width_ ∧ height = area.height_ then some manager
  else
    let resize_gravity : Gravity :=
      if |x - area.x_| > |x + width - (area.x_ + area.width_)| then .GRAVITY_NORTHEAST
      else .GRAVITY_NORTHWEST
    let manager :=
      { manager with
        area := { area with x_ := x, y_ := y, width_ := width, height_ := height }
        toplevels_ := manager.toplevels_.map fun (toplevel : ToplevelWindow) =>
          toplevel.ResizeClient (configuration.GetMaxSize toplevel.win_.xid width height) resize_gravity }
    match manager.mode_ with
    | .MODE_ACTIVE => some (manager.LayoutToplevelWindowsForActiveMode false)
    | .MODE_OVERVIEW => manager.LayoutToplevelWindowsForOverviewMode

/-- `UpdateAvailableArea` of the panel manager. -/
def UpdateAvailableArea (manager : LayoutManager) : Option LayoutManager :=
  let area := availableArea manager.area.wm_width manager.area.wm_height manager.leftDockVisible
    manager.rightDockVisible
  manager.MoveAndResize configuration area.x_ area.y_ area.width_ area.height_

def HandleRRScreenChangeNotify (manager : LayoutManager) (width height : ℤ) : Option LayoutManager :=
  let manager := { manager with area := { manager.area with wm_width := width, wm_height := height } }
  manager.UpdateAvailableArea configuration

def HandleDockVisibilityChange (manager : LayoutManager) (left right : Bool) : Option LayoutManager :=
  let manager := { manager with leftDockVisible := left, rightDockVisible := right }
  manager.UpdateAvailableArea configuration

end Configuration

end LayoutManager

/-- What happens to a layout manager. -/
inductive LayoutEvent where
  | HandleMapNotify (win : Window) (input_xid : XWindow)
  | HandleUnmapNotify (xid : XWindow)
  | HandleFocusChange (xid : XWindow) (focus_in : Bool)
  | HandleButtonPress (xid : XWindow) (button : ℕ)
  | HandlePointerEnter (xid : XWindow)
  | HandleClientMessage (xid : XWindow)
  | HandleWindowConfigureRequest (xid : XWindow) (req_width req_height : ℤ)
  | WM_SWITCH_TO_OVERVIEW_MODE (xid : XWindow)
  | WM_MOVE_FLOATING_TAB (xid : XWindow) (x y : ℤ)
  | floatingTabTimer
  | SwitchToOverviewMode
  | SwitchToActiveMode (activate_magnified_win : Bool)
  | CycleActiveToplevelWindow (forward : Bool)
  | CycleMagnifiedToplevelWindow (forward : Bool)
  | ActivateToplevelWindowByIndex (index : ℤ)
  | MagnifyToplevelWindowByIndex (index : ℤ)
  | PanOverviewMode
  | TakeFocus
  | HandleRRScreenChangeNotify (width height : ℤ)
  | HandleDockVisibilityChange (left right : Bool)

namespace LayoutManager

variable (configuration : LayoutConfiguration)

def step (manager : LayoutManager) : LayoutEvent → Option LayoutManager
  | .HandleMapNotify win input_xid => manager.HandleMapNotify configuration win input_xid
  | .HandleUnmapNotify xid => manager.HandleUnmapNotify configuration xid
  | .HandleFocusChange xid focus_in => manager.HandleFocusChange xid focus_in
  | .HandleButtonPress xid button => manager.HandleButtonPress configuration xid button
  | .HandlePointerEnter xid => manager.HandlePointerEnter configuration xid
  | .HandleClientMessage xid => manager.HandleClientMessage configuration xid
  | .HandleWindowConfigureRequest xid req_width req_height =>
    manager.HandleWindowConfigureRequest xid req_width req_height
  | .WM_SWITCH_TO_OVERVIEW_MODE xid => manager.handleSwitchMessage configuration xid
  | .WM_MOVE_FLOATING_TAB xid x y => some (manager.handleMoveMessage xid x y)
  | .floatingTabTimer =>
    if manager.floating_tab_event_coalescer_.running then manager.handleFloatingTabTimer configuration
    else some manager
  | .SwitchToOverviewMode => manager.SetMode configuration .MODE_OVERVIEW
  | .SwitchToActiveMode activate_magnified_win =>
    manager.SwitchToActiveMode configuration activate_magnified_win
  | .CycleActiveToplevelWindow forward => manager.CycleActiveToplevelWindow forward
  | .CycleMagnifiedToplevelWindow forward => manager.CycleMagnifiedToplevelWindow configuration forward
  | .ActivateToplevelWindowByIndex index => manager.ActivateToplevelWindowByIndex index
  | .MagnifyToplevelWindowByIndex index => manager.MagnifyToplevelWindowByIndex configuration index
  | .PanOverviewMode =>
    if manager.mode_ = .MODE_OVERVIEW then manager.LayoutToplevelWindowsForOverviewMode else some manager
  | .TakeFocus => manager.TakeFocus
  | .HandleRRScreenChangeNotify width height =>
    manager.HandleRRScreenChangeNotify configuration width height
  | .HandleDockVisibilityChange left right =>
    manager.HandleDockVisibilityChange configuration left right

end LayoutManager

end ChromiumOS.WindowManager
