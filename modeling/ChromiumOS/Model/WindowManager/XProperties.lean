import ChromiumOS.ToMathlib.Radix
import ChromiumOS.Model.WindowManager.SizeHints
import ChromiumOS.Model.WindowManager.ToplevelWindow

/-! # Properties of windows

The properties that clients and the window manager store in the X server, and what reads and writes them:
`RealXConnection` and `XConnection`, `WmIpc`, and the properties that a `Window` keeps copies of. An `int` is its 32
bits. A failed `CHECK` and a read outside of a value are the ways in which a call crashes.
-/

namespace ChromiumOS.WindowManager

open Radix

abbrev XAtom := BitVec 32

def kByteFormat : ℕ := 8
def kLongFormat : ℕ := 32
def kMaxPropertySize : ℕ := 1024

def XA_CARDINAL : XAtom := 6
def XA_WM_NORMAL_HINTS : XAtom := 40
def XA_WM_TRANSIENT_FOR : XAtom := 68

/-- How a call ends that does not return. -/
inductive Crash where
  | failedCheck
  | outsideRead
deriving DecidableEq, Repr

/-- The items of a property, in one of the formats of X. -/
inductive PropertyItems where
  | format8 (items : List UInt8)
  | format16 (items : List (BitVec 16))
  | format32 (items : List (BitVec 32))
deriving DecidableEq

namespace PropertyItems

def format : PropertyItems → ℕ
  | format8 _ => 8
  | format16 _ => 16
  | format32 _ => 32

/-- The bytes of the items, as they are stored. -/
def bytes : PropertyItems → List UInt8
  | format8 items => items
  | format16 items => items.flatMap fun item => leBytes 2 item.toNat
  | format32 items => items.flatMap fun item => leBytes 4 item.toNat

end PropertyItems

structure XProperty where
  type : XAtom
  items : PropertyItems
deriving DecidableEq

/-- The windows that exist, and their properties. -/
structure PropertyServer where
  exists_ : XWindow → Bool
  stored : XWindow → XAtom → Option XProperty

/-- What `xcb_get_property` returns for an existing window. -/
structure PropertyReply where
  format : ℕ
  type : XAtom
  value : List UInt8

namespace PropertyServer

variable (server : PropertyServer)

/-- A reply has at most a number of units of four bytes; there is none for a window that does not exist. -/
def get_property (xid : XWindow) (xatom : XAtom) (long_length : ℕ) : Option PropertyReply :=
  if server.exists_ xid then
    match server.stored xid xatom with
    | none => some ⟨0, 0, []⟩
    | some property =>
      some ⟨property.items.format, property.type, property.items.bytes.take (4 * long_length)⟩
  else none

/-- `xcb_change_property`, which replaces the property. -/
def change_property (xid : XWindow) (xatom : XAtom) (property : XProperty) : PropertyServer :=
  if server.exists_ xid then
    { server with
      stored := Function.update server.stored xid (Function.update (server.stored xid) xatom (some property)) }
  else server

def delete_property (xid : XWindow) (xatom : XAtom) : PropertyServer :=
  { server with stored := Function.update server.stored xid (Function.update (server.stored xid) xatom none) }

/-- The value of a property, with its format and its type. -/
def GetPropertyInternal (xid : XWindow) (xatom : XAtom) : Option PropertyReply :=
  (server.get_property xid xatom kMaxPropertySize).filter fun reply => reply.format ≠ 0

/-- The `int` at an offset of a value. -/
def readInt (value : List UInt8) (offset : ℕ) : Except Crash (BitVec 32) :=
  if offset + 4 ≤ value.length then .ok (BitVec.ofNat 32 (leNat ((value.drop offset).take 4)))
  else .error .outsideRead

def GetIntArrayProperty (xid : XWindow) (xatom : XAtom) : Except Crash (Option (List (BitVec 32))) :=
  match server.GetPropertyInternal xid xatom with
  | none => .ok none
  | some reply =>
    if reply.format ≠ kLongFormat then .ok none
    else if reply.value.length % 4 ≠ 0 then .ok none
    else
      ((List.range ((reply.value.length + 3) / 4)).mapM fun index => readInt reply.value (4 * index)).map some

def SetIntArrayProperty (xid : XWindow) (xatom type : XAtom) (values : List (BitVec 32)) : PropertyServer :=
  server.change_property xid xatom ⟨type, .format32 values⟩

def GetStringProperty (xid : XWindow) (xatom : XAtom) : Option (List UInt8) :=
  match server.GetPropertyInternal xid xatom with
  | none => none
  | some reply => if reply.format ≠ kByteFormat then none else some reply.value

/-- The first value of a list; the list is checked not to be empty. -/
def firstValue (values : Option (List (BitVec 32))) : Except Crash (Option (BitVec 32)) :=
  match values with
  | none => .ok none
  | some [] => .error .failedCheck
  | some (value :: _) => .ok (some value)

def GetIntProperty (xid : XWindow) (xatom : XAtom) : Except Crash (Option (BitVec 32)) :=
  (server.GetIntArrayProperty xid xatom).bind firstValue

def GetTransientHintForWindow (xid : XWindow) : Except Crash (Option XWindow) :=
  (server.GetIntProperty xid XA_WM_TRANSIENT_FOR).map fun owner => owner.map BitVec.toNat

/-- The element of a vector at an index. -/
def element (values : List (BitVec 32)) (index : ℕ) : Except Crash (BitVec 32) :=
  match values[index]? with
  | none => .error .outsideRead
  | some value => .ok value

end PropertyServer

/-- The flags of the hints in `Xutil.h`. -/
def USSize : BitVec 32 := 1
def PSize : BitVec 32 := 8
def PMinSize : BitVec 32 := 16
def PMaxSize : BitVec 32 := 32
def PResizeInc : BitVec 32 := 64
def PAspect : BitVec 32 := 128
def PBaseSize : BitVec 32 := 256
def PWinGravity : BitVec 32 := 512
def XUrgencyHint : BitVec 32 := 256

/-- The hints with two of their fields from the values behind an index, if a flag is set. -/
def SizeHints.take (hints : SizeHints) (flagged : Bool) (values : List (BitVec 32)) (index : ℕ)
    (set : SizeHints → ℤ → ℤ → SizeHints) : Except Crash SizeHints :=
  if flagged then do
    let first ← PropertyServer.element values index
    let second ← PropertyServer.element values (index + 1)
    pure (set hints first.toInt second.toInt)
  else .ok hints

namespace PropertyServer

variable (server : PropertyServer)

/-- The hints in a list of at least fifteen values. -/
def readSizeHints (values : List (BitVec 32)) : Except Crash SizeHints := do
  let flags ← element values 0
  let hints ← SizeHints.take {} (flags &&& USSize ≠ 0 ∨ flags &&& PSize ≠ 0) values 3
    fun hints width height => { hints with width := width, height := height }
  let hints ← hints.take (flags &&& PMinSize ≠ 0) values 5
    fun hints width height => { hints with min_width := width, min_height := height }
  let hints ← hints.take (flags &&& PMaxSize ≠ 0) values 7
    fun hints width height => { hints with max_width := width, max_height := height }
  let hints ← hints.take (flags &&& PResizeInc ≠ 0) values 9
    fun hints width height => { hints with width_increment := width, height_increment := height }
  let hints ← hints.take (flags &&& PAspect ≠ 0) values 11
    fun hints x y => { hints with min_aspect_x := x, min_aspect_y := y }
  let hints ← hints.take (flags &&& PAspect ≠ 0) values 13
    fun hints x y => { hints with max_aspect_x := x, max_aspect_y := y }
  let hints ← hints.take (flags &&& PBaseSize ≠ 0 ∧ 17 ≤ values.length) values 15
    fun hints width height => { hints with base_width := width, base_height := height }
  if flags &&& PWinGravity ≠ 0 ∧ 18 ≤ values.length then
    (element values 17).map fun gravity => { hints with win_gravity := gravity.toInt }
  else .ok hints

def GetSizeHintsForWindow (xid : XWindow) : Except Crash (Option SizeHints) :=
  (server.GetIntArrayProperty xid XA_WM_NORMAL_HINTS).bind fun values =>
    match values with
    | none => .ok none
    | some values => if values.length < 15 then .ok none else (readSizeHints values).map some

end PropertyServer

/-- The atoms of the window manager that have to do with the properties of windows. -/
inductive WmAtom where
  | ATOM_CHROME_STATE
  | ATOM_CHROME_WINDOW_TYPE
  | ATOM_CHROME_WM_MESSAGE
  | ATOM_NET_WM_STATE
  | ATOM_NET_WM_STATE_FULLSCREEN
  | ATOM_NET_WM_STATE_MAXIMIZED_HORZ
  | ATOM_NET_WM_STATE_MAXIMIZED_VERT
  | ATOM_NET_WM_STATE_MODAL
  | ATOM_WM_DELETE_WINDOW
  | ATOM_WM_HINTS
  | ATOM_WM_PROTOCOLS
  | ATOM_WM_TAKE_FOCUS
  | ATOM_ATOM
deriving DecidableEq, Repr

/-- The X server gives different atoms to different names. -/
structure AtomCache where
  GetXAtom : WmAtom → XAtom
  injective : Function.Injective GetXAtom

def kNumWindowTypes : ℕ := 8

/-- `WmIpc`, over an X server. -/
structure WmIpc where
  atom_cache_ : AtomCache

namespace WmIpc

variable (ipc : WmIpc)

/-- The type of a window and its parameters. -/
def GetWindowType (server : PropertyServer) (xid : XWindow) :
    Except Crash (Option (BitVec 32 × List (BitVec 32))) :=
  (server.GetIntArrayProperty xid (ipc.atom_cache_.GetXAtom .ATOM_CHROME_WINDOW_TYPE)).bind fun values =>
    match values with
    | none => .ok none
    | some [] => .error .failedCheck
    | some (type :: params) => .ok (some (type, params))

/-- The type is checked to be one of those that there are. -/
def SetWindowType (server : PropertyServer) (xid : XWindow) (type : BitVec 32) (params : Option (List (BitVec 32))) :
    Except Crash PropertyServer :=
  if 0 ≤ type.toInt ∧ type.toInt < kNumWindowTypes then
    .ok (server.SetIntArrayProperty xid (ipc.atom_cache_.GetXAtom .ATOM_CHROME_WINDOW_TYPE) XA_CARDINAL
      (type :: params.getD []))
  else .error .failedCheck

end WmIpc

/-- What a window keeps of its properties. -/
structure PropertyWindow where
  xid : XWindow
  wm_hint_urgent_ : Bool := false
  supports_wm_take_focus_ : Bool := false
  supports_wm_delete_window_ : Bool := false
  wm_state_fullscreen_ : Bool := false
  wm_state_maximized_horz_ : Bool := false
  wm_state_maximized_vert_ : Bool := false
  wm_state_modal_ : Bool := false
  chrome_state_xatoms_ : Finset XAtom := ∅

/-- The order of a `std::set` of atoms. -/
def AtomLe (first second : XAtom) : Prop := first.toNat ≤ second.toNat

instance : DecidableRel AtomLe := fun first second => inferInstanceAs (Decidable (first.toNat ≤ second.toNat))
instance : IsTrans XAtom AtomLe := ⟨fun _ _ _ first second => Nat.le_trans first second⟩
instance : Std.Antisymm AtomLe := ⟨fun _ _ first second => BitVec.eq_of_toNat_eq (Nat.le_antisymm first second)⟩
instance : Std.Total AtomLe := ⟨fun first second => Nat.le_total first.toNat second.toNat⟩

namespace PropertyWindow

variable (win : PropertyWindow) (atoms : AtomCache) (server : PropertyServer)

def FetchAndApplyWmHints : Except Crash PropertyWindow :=
  (server.GetIntArrayProperty win.xid (atoms.GetXAtom .ATOM_WM_HINTS)).bind fun wm_hints =>
    match wm_hints with
    | none => .ok win
    | some wm_hints =>
      (PropertyServer.element wm_hints 0).map fun flags =>
        { win with wm_hint_urgent_ := decide (flags &&& XUrgencyHint ≠ 0) }

def FetchAndApplyWmProtocols : Except Crash PropertyWindow :=
  (server.GetIntArrayProperty win.xid (atoms.GetXAtom .ATOM_WM_PROTOCOLS)).map fun wm_protocols =>
    { win with
      supports_wm_take_focus_ := atoms.GetXAtom .ATOM_WM_TAKE_FOCUS ∈ wm_protocols.getD []
      supports_wm_delete_window_ := atoms.GetXAtom .ATOM_WM_DELETE_WINDOW ∈ wm_protocols.getD [] }

/-- One round of the loop of `FetchAndApplyWmState`. -/
def applyWmState (win : PropertyWindow) (atom : XAtom) : PropertyWindow :=
  let win :=
    if atom = atoms.GetXAtom .ATOM_NET_WM_STATE_FULLSCREEN then { win with wm_state_fullscreen_ := true } else win
  let win :=
    if atom = atoms.GetXAtom .ATOM_NET_WM_STATE_MAXIMIZED_HORZ then { win with wm_state_maximized_horz_ := true }
    else win
  if atom = atoms.GetXAtom .ATOM_NET_WM_STATE_MAXIMIZED_VERT then { win with wm_state_maximized_vert_ := true }
  else if atom = atoms.GetXAtom .ATOM_NET_WM_STATE_MODAL then { win with wm_state_modal_ := true }
  else win

/-- The window with its copies of `_NET_WM_STATE` reset. -/
def resetWmState : PropertyWindow :=
  { win with
    wm_state_fullscreen_ := false
    wm_state_maximized_horz_ := false
    wm_state_maximized_vert_ := false
    wm_state_modal_ := false }

def FetchAndApplyWmState : Except Crash PropertyWindow :=
  (server.GetIntArrayProperty win.xid (atoms.GetXAtom .ATOM_NET_WM_STATE)).map fun state_atoms =>
    (state_atoms.getD []).foldl (applyWmState atoms) win.resetWmState

def FetchAndApplyChromeState : Except Crash PropertyWindow :=
  (server.GetIntArrayProperty win.xid (atoms.GetXAtom .ATOM_CHROME_STATE)).map fun state_xatoms =>
    { win with chrome_state_xatoms_ := (state_xatoms.getD []).foldl (fun set xatom => insert xatom set) ∅ }

/-- What an action of a `_NET_WM_STATE` message makes of a flag. -/
def SetWmStateInternal (action : BitVec 32) (value : Bool) : Bool :=
  if action = 0 then false else if action = 1 then true else if action = 2 then !value else value

/-- The property for the flags; it is deleted where none is set. -/
def UpdateWmStateProperty : PropertyServer :=
  let values :=
    (if win.wm_state_fullscreen_ then [atoms.GetXAtom .ATOM_NET_WM_STATE_FULLSCREEN] else []) ++
    (if win.wm_state_maximized_horz_ then [atoms.GetXAtom .ATOM_NET_WM_STATE_MAXIMIZED_HORZ] else []) ++
    (if win.wm_state_maximized_vert_ then [atoms.GetXAtom .ATOM_NET_WM_STATE_MAXIMIZED_VERT] else []) ++
    (if win.wm_state_modal_ then [atoms.GetXAtom .ATOM_NET_WM_STATE_MODAL] else [])
  if values ≠ [] then
    server.SetIntArrayProperty win.xid (atoms.GetXAtom .ATOM_NET_WM_STATE) (atoms.GetXAtom .ATOM_ATOM) values
  else server.delete_property win.xid (atoms.GetXAtom .ATOM_NET_WM_STATE)

def UpdateChromeStateProperty : PropertyServer :=
  let values := win.chrome_state_xatoms_.sort AtomLe
  if values ≠ [] then
    server.SetIntArrayProperty win.xid (atoms.GetXAtom .ATOM_CHROME_STATE) (atoms.GetXAtom .ATOM_ATOM) values
  else server.delete_property win.xid (atoms.GetXAtom .ATOM_CHROME_STATE)

/-- Clients may not change whether they are maximized. -/
def HandleWmStateMessage (action first second : BitVec 32) : PropertyWindow × PropertyServer :=
  let fullscreen_atom := atoms.GetXAtom .ATOM_NET_WM_STATE_FULLSCREEN
  let modal_atom := atoms.GetXAtom .ATOM_NET_WM_STATE_MODAL
  let win :=
    if first = fullscreen_atom ∨ second = fullscreen_atom then
      { win with wm_state_fullscreen_ := SetWmStateInternal action win.wm_state_fullscreen_ }
    else win
  let win :=
    if first = modal_atom ∨ second = modal_atom then
      { win with wm_state_modal_ := SetWmStateInternal action win.wm_state_modal_ }
    else win
  (win, win.UpdateWmStateProperty atoms server)

/-- One round of the loop of `ChangeWmState`. -/
def changeWmState (win : PropertyWindow) (state : XAtom × Bool) : PropertyWindow :=
  let action : BitVec 32 := if state.2 then 1 else 0
  if state.1 = atoms.GetXAtom .ATOM_NET_WM_STATE_FULLSCREEN then
    { win with wm_state_fullscreen_ := SetWmStateInternal action win.wm_state_fullscreen_ }
  else if state.1 = atoms.GetXAtom .ATOM_NET_WM_STATE_MAXIMIZED_HORZ then
    { win with wm_state_maximized_horz_ := SetWmStateInternal action win.wm_state_maximized_horz_ }
  else if state.1 = atoms.GetXAtom .ATOM_NET_WM_STATE_MAXIMIZED_VERT then
    { win with wm_state_maximized_vert_ := SetWmStateInternal action win.wm_state_maximized_vert_ }
  else if state.1 = atoms.GetXAtom .ATOM_NET_WM_STATE_MODAL then
    { win with wm_state_modal_ := SetWmStateInternal action win.wm_state_modal_ }
  else win

def ChangeWmState (states : List (XAtom × Bool)) : PropertyWindow × PropertyServer :=
  let win := states.foldl (changeWmState atoms) win
  (win, win.UpdateWmStateProperty atoms server)

/-- One round of the loop of `ChangeChromeState`. -/
def changeChromeState (xatoms : Finset XAtom) (state : XAtom × Bool) : Finset XAtom :=
  if state.2 then insert state.1 xatoms else xatoms.erase state.1

def ChangeChromeState (states : List (XAtom × Bool)) : PropertyWindow × PropertyServer :=
  let win := { win with chrome_state_xatoms_ := states.foldl changeChromeState win.chrome_state_xatoms_ }
  (win, win.UpdateChromeStateProperty atoms server)

end PropertyWindow

/-- A window and the X server, with the number of notifications about the state of the window that are under way. -/
structure WmStateRun where
  win : PropertyWindow
  server : PropertyServer
  pending : ℕ

/-- Any client changes or deletes any property; the window manager handles a notification or a message of a client,
or changes the state by itself. -/
inductive WmStateEvent where
  | ClientWrite (xid : XWindow) (xatom : XAtom) (property : Option XProperty)
  | HandlePropertyNotify
  | HandleWmStateMessage (action first second : BitVec 32)
  | ChangeWmState (states : List (XAtom × Bool))

namespace WmStateRun

variable (atoms : AtomCache) (state : WmStateRun)

/-- The state after a request to the server. Each change of the property is notified, and so is its deletion. -/
def request (win : PropertyWindow) (server : PropertyServer) : WmStateRun where
  win := win
  server := server
  pending :=
    if server.stored state.win.xid (atoms.GetXAtom .ATOM_NET_WM_STATE) ≠ none ∨
        state.server.stored state.win.xid (atoms.GetXAtom .ATOM_NET_WM_STATE) ≠ none then state.pending + 1
    else state.pending

def ClientWrite (xid : XWindow) (xatom : XAtom) (property : Option XProperty) : WmStateRun :=
  let server :=
    match property with
    | some property => state.server.change_property xid xatom property
    | none => state.server.delete_property xid xatom
  if xid = state.win.xid ∧ xatom = atoms.GetXAtom .ATOM_NET_WM_STATE then state.request atoms state.win server
  else { state with server := server }

def HandlePropertyNotify : Option WmStateRun :=
  if state.pending = 0 then none
  else
    match state.win.FetchAndApplyWmState atoms state.server with
    | .ok win => some { state with win := win, pending := state.pending - 1 }
    | .error _ => none

def step : WmStateEvent → Option WmStateRun
  | .ClientWrite xid xatom property => some (state.ClientWrite atoms xid xatom property)
  | .HandlePropertyNotify => state.HandlePropertyNotify atoms
  | .HandleWmStateMessage action first second =>
    let changed := state.win.HandleWmStateMessage atoms state.server action first second
    some (state.request atoms changed.1 changed.2)
  | .ChangeWmState states =>
    let changed := state.win.ChangeWmState atoms state.server states
    some (state.request atoms changed.1 changed.2)

end WmStateRun

end ChromiumOS.WindowManager
