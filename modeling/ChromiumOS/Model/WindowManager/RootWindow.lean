import ChromiumOS.Model.WindowManager.ToplevelWindow

/-! # The children of the root window

What the X server knows about the root window: its children from top to bottom, and those of them that
are mapped in the order in which they were. An event of the server is truthful when it describes a change
of that.
-/

namespace ChromiumOS.WindowManager

/-- What is found out about a window when it is looked at: its `override_redirect` attribute, unless it is
gone; whether it is an `InputOnly` window; whether it is one of the window manager's own; and whether
`FetchMapState` has it for mapped. -/
structure WindowAnswers where
  attributes : Option Bool
  inputOnly : Bool
  internal : Bool
  mapState : Bool
  deriving DecidableEq

inductive XEvent where
  | CreateNotify (window : XWindow) (inRoot override_redirect : Bool) (answers : WindowAnswers)
  | ConfigureNotify (window : XWindow) (above : Option XWindow)
  | DestroyNotify (window : XWindow)
  | ReparentNotify (window : XWindow) (toRoot : Bool)
  | MapNotify (window : XWindow)
  | UnmapNotify (window : XWindow)
  deriving DecidableEq

structure RootWindow where
  children : List XWindow
  mapped : List XWindow
  deriving DecidableEq

namespace RootWindow

/-- A window that leaves the root window. -/
def leave (root : RootWindow) (window : XWindow) : RootWindow where
  children := root.children.erase window
  mapped := root.mapped.erase window

/-- A window that is not yet a child goes on top of the children. -/
def enter (root : RootWindow) (window : XWindow) : Option RootWindow :=
  if window ∈ root.children then none else some { root with children := window :: root.children }

/-- A child goes directly above another one, or below all of them. -/
def restack (root : RootWindow) (window : XWindow) : Option XWindow → Option RootWindow
  | none => some { root with children := root.children.erase window ++ [window] }
  | some above =>
    if above ∈ root.children ∧ above ≠ window then
      some { root with
        children := ListOrder.insertBefore window above (root.children.erase window) }
    else none

def map (root : RootWindow) (window : XWindow) : RootWindow :=
  if window ∈ root.children ∧ window ∉ root.mapped then { root with mapped := root.mapped ++ [window] }
  else root

/-- The change that an event describes, if it is truthful. -/
def change (root : RootWindow) : XEvent → Option RootWindow
  | .CreateNotify window inRoot _ _ => if inRoot then root.enter window else some root
  | .ConfigureNotify window above =>
    if window ∈ root.children then root.restack window above else some root
  | .DestroyNotify window => some (root.leave window)
  | .ReparentNotify window toRoot => if toRoot then root.enter window else some (root.leave window)
  | .MapNotify window => some (root.map window)
  | .UnmapNotify window => some { root with mapped := root.mapped.erase window }

end RootWindow

end ChromiumOS.WindowManager
