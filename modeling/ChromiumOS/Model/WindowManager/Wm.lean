import ChromiumOS.Model.WindowManager.RootWindow

/-! # The window manager

`window_manager.cc`, as far as it keeps the stacking order of the children of the root window and the
lists of clients. What the event consumers do with a window that is mapped or unmapped, and the composited
windows, are left out.
-/

namespace ChromiumOS.WindowManager

/-- A window that is tracked. Its `override_redirect` attribute is that of its creation. -/
structure ClientWindow where
  xid : XWindow
  override_redirect : Bool
  mapped : Bool
  deriving DecidableEq

/-- A `WindowManager`. A property of the root window is absent where it is empty here. -/
structure Wm where
  stacked_xids_ : Stacker XWindow
  mapped_xids_ : Stacker XWindow
  client_windows_ : List ClientWindow
  _NET_CLIENT_LIST : Option (List XWindow)
  _NET_CLIENT_LIST_STACKING : Option (List XWindow)

namespace Wm

def new : Wm where
  stacked_xids_ := .empty
  mapped_xids_ := .empty
  client_windows_ := []
  _NET_CLIENT_LIST := none
  _NET_CLIENT_LIST_STACKING := none

def GetWindow (manager : Wm) (xid : XWindow) : Option ClientWindow :=
  manager.client_windows_.find? fun win => win.xid == xid

def set_mapped (manager : Wm) (xid : XWindow) (mapped : Bool) : Wm :=
  { manager with
    client_windows_ := manager.client_windows_.map fun win =>
      if win.xid = xid then { win with mapped } else win }

/-- Set a property, or delete it if it would be empty. -/
def publish (values : List XWindow) : Option (List XWindow) := if values = [] then none else some values

/-- Whether a window goes into the lists of clients. -/
def listed (manager : Wm) (xid : XWindow) : Bool :=
  (manager.GetWindow xid).any fun win => win.mapped && !win.override_redirect

def UpdateClientListProperty (manager : Wm) : Wm :=
  { manager with
    _NET_CLIENT_LIST := publish (manager.mapped_xids_.items.reverse.filter fun xid => manager.listed xid) }

def UpdateClientListStackingProperty (manager : Wm) : Wm :=
  { manager with
    _NET_CLIENT_LIST_STACKING :=
      publish (manager.stacked_xids_.items.reverse.filter fun xid => manager.listed xid) }

/-- The window that is tracked, if it is, and the window manager that tracks it. -/
def TrackWindow (manager : Wm) (xid : XWindow) (override_redirect : Bool)
    (answers : WindowAnswers) : Option ClientWindow × Wm :=
  if answers.internal then (none, manager)
  else if answers.inputOnly then (none, manager)
  else
    match manager.GetWindow xid with
    | some win => (some win, manager)
    | none =>
      let win : ClientWindow := { xid, override_redirect, mapped := false }
      (some win, { manager with client_windows_ := win :: manager.client_windows_ })

def HandleMappedWindow (manager : Wm) (win : ClientWindow) : Wm :=
  if win.override_redirect then manager
  else if manager.mapped_xids_.Contains win.xid then manager
  else
    let manager := { manager with mapped_xids_ := manager.mapped_xids_.AddOnTop win.xid }
    manager.UpdateClientListProperty.UpdateClientListStackingProperty

/-- What `ManageExistingWindows` does with one of the windows. -/
def manageExistingWindow (manager : Wm) (xid : XWindow) (answers : WindowAnswers) :
    Wm :=
  match answers.attributes with
  | none => manager
  | some override_redirect =>
    let manager := { manager with stacked_xids_ := manager.stacked_xids_.AddOnTop xid }
    match manager.TrackWindow xid override_redirect answers with
    | (some win, manager) =>
      if answers.mapState then (manager.set_mapped xid true).HandleMappedWindow win else manager
    | (none, manager) => manager

/-- The windows are those of `XQueryTree`, from bottom to top. -/
def ManageExistingWindows (manager : Wm) (windows : List (XWindow × WindowAnswers)) :
    Wm :=
  (windows.foldl (fun manager window => manager.manageExistingWindow window.1 window.2)
    manager).UpdateClientListStackingProperty

/-- The part of `HandleConfigureNotify` that keeps the stacking order, and whether that changed. -/
def restack (manager : Wm) (window : XWindow) (above : Option XWindow) : Bool × Wm :=
  if manager.stacked_xids_.GetUnder window = above then (false, manager)
  else
    let stacked_xids_ := manager.stacked_xids_.Remove window
    let stacked_xids_ :=
      match above with
      | some above =>
        if stacked_xids_.Contains above then stacked_xids_.AddAbove window above
        else stacked_xids_.AddOnBottom window
      | none => stacked_xids_.AddOnBottom window
    (true, { manager with stacked_xids_ })

def HandleConfigureNotify (manager : Wm) (window : XWindow) (above : Option XWindow) :
    Wm :=
  if !manager.stacked_xids_.Contains window then manager
  else
    let (restacked, manager) := manager.restack window above
    match manager.GetWindow window with
    | none => manager
    | some win =>
      if !win.override_redirect && restacked then manager.UpdateClientListStackingProperty else manager

def HandleCreateNotify (manager : Wm) (window : XWindow) (inRoot override_redirect : Bool)
    (answers : WindowAnswers) : Wm :=
  if (manager.GetWindow window).isSome then manager
  else if !inRoot then manager
  else
    let manager := { manager with stacked_xids_ := manager.stacked_xids_.AddOnTop window }
    if answers.attributes.isNone then manager
    else (manager.TrackWindow window override_redirect answers).2

/-- Stop tracking a window. -/
def eraseClient (manager : Wm) (window : XWindow) : Wm :=
  { manager with client_windows_ := manager.client_windows_.filter fun win => win.xid != window }

def HandleDestroyNotify (manager : Wm) (window : XWindow) : Wm :=
  let manager := { manager with stacked_xids_ := manager.stacked_xids_.Remove window }
  match manager.GetWindow window with
  | none => manager
  | some win =>
    if win.override_redirect then manager.eraseClient window
    else manager.UpdateClientListStackingProperty.eraseClient window

def HandleMapNotify (manager : Wm) (window : XWindow) : Wm :=
  match manager.GetWindow window with
  | none => manager
  | some win =>
    if win.mapped then manager else (manager.set_mapped window true).HandleMappedWindow win

/-- A window that leaves the root window is no longer in the list of mapped windows. -/
def removeMapped (manager : Wm) (window : XWindow) : Wm :=
  if manager.mapped_xids_.Contains window then
    { manager with mapped_xids_ := manager.mapped_xids_.Remove window }.UpdateClientListProperty
  else manager

def HandleReparentNotify (manager : Wm) (window : XWindow) (toRoot : Bool) : Wm :=
  if toRoot then { manager with stacked_xids_ := manager.stacked_xids_.AddOnTop window }
  else if !manager.stacked_xids_.Contains window then manager
  else
    let manager := { manager with stacked_xids_ := manager.stacked_xids_.Remove window }
    let manager := manager.removeMapped window
    match manager.GetWindow window with
    | none => manager
    | some win =>
      if win.override_redirect then manager.eraseClient window
      else manager.UpdateClientListStackingProperty.eraseClient window

def HandleUnmapNotify (manager : Wm) (window : XWindow) : Wm :=
  match manager.GetWindow window with
  | none => manager
  | some _ =>
    let manager := manager.set_mapped window false
    if manager.mapped_xids_.Contains window then
      let manager := { manager with mapped_xids_ := manager.mapped_xids_.Remove window }
      manager.UpdateClientListProperty.UpdateClientListStackingProperty
    else manager

def HandleEvent (manager : Wm) : XEvent → Wm
  | .CreateNotify window inRoot override_redirect answers =>
    manager.HandleCreateNotify window inRoot override_redirect answers
  | .ConfigureNotify window above => manager.HandleConfigureNotify window above
  | .DestroyNotify window => manager.HandleDestroyNotify window
  | .ReparentNotify window toRoot => manager.HandleReparentNotify window toRoot
  | .MapNotify window => manager.HandleMapNotify window
  | .UnmapNotify window => manager.HandleUnmapNotify window

end Wm

/-- The children of the root window when the window manager starts, from bottom to top, with those that are
gone when they are looked at. -/
structure ExistingWindows where
  windows : List (XWindow × WindowAnswers)
  nodup : (windows.map Prod.fst).Nodup

/-- The windows that are there when they are looked at. -/
def RootWindow.ofExisting (windows : List (XWindow × WindowAnswers)) : RootWindow where
  children := ((windows.filter fun window => window.2.attributes.isSome).map Prod.fst).reverse
  mapped :=
    ((windows.filter fun window => window.2.attributes.isSome && window.2.mapState).map Prod.fst)

/-- The X server and the window manager. -/
structure Desktop where
  root : RootWindow
  wm : Wm

namespace Desktop

def start (existing : ExistingWindows) : Desktop where
  root := .ofExisting existing.windows
  wm := Wm.new.ManageExistingWindows existing.windows

/-- The window manager handles a truthful event. -/
def step (desktop : Desktop) (event : XEvent) : Option Desktop :=
  (desktop.root.change event).map fun root => { root, wm := desktop.wm.HandleEvent event }

end Desktop

end ChromiumOS.WindowManager
