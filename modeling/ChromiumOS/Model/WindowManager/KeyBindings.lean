import Mathlib

/-! # Key bindings

`key_bindings.cc`. A `std::map` is a function to optional values, and `bindings` of an action is the
list of its set in the order of `KeyComboComparator`. A failed `CHECK` is `none`. What Xlib and the X
server answer about keysyms is a parameter.
-/

namespace ChromiumOS.WindowManager

abbrev KeySym := UInt64

abbrev KeyCode := UInt8

def LockMask : UInt32 := 2

/-- The answers of Xlib and of the X server about keysyms. -/
structure Keyboard where
  /-- The lowercase keysym that `XConvertCase` finds. -/
  XConvertCase : KeySym → KeySym
  GetKeyCodeFromKeySym : KeySym → KeyCode

/-- A key and modifier combination, with `LockMask` masked out. -/
structure KeyCombo where
  key : KeySym
  modifiers : UInt32
  lockless : modifiers &&& LockMask = 0
deriving DecidableEq

theorem and_complement_LockMask (modifiers : UInt32) :
    (modifiers &&& ~~~LockMask) &&& LockMask = 0 := by
  rw [UInt32.and_assoc, UInt32.and_comm (~~~LockMask)]
  simp

/-- The constructor of `KeyCombo`. -/
def Keyboard.KeyCombo (keyboard : Keyboard) (key_param : KeySym) (modifiers_param : UInt32) :
    KeyCombo :=
  ⟨keyboard.XConvertCase key_param, modifiers_param &&& ~~~LockMask,
    and_complement_LockMask modifiers_param⟩

def KeyComboComparator (a b : KeyCombo) : Bool :=
  a.key < b.key || (a.key == b.key && a.modifiers < b.modifiers)

/-- A named action, without its closures. -/
structure Action where
  running : Bool := false
  bindings : List KeyCombo := []
deriving DecidableEq

/-- The bindings and the key combinations grabbed through `xconn_`. -/
structure KeyBindings where
  actions_ : String → Option Action := fun _ => none
  bindings_ : KeyCombo → Option String := fun _ => none
  action_names_by_keysym_ : KeySym → Option (Finset String) := fun _ => none
  grabbed_keys_ : Finset (KeyCode × UInt32) := ∅

namespace KeyBindings

def AddAction (kb : KeyBindings) (action_name : String) : Option (Bool × KeyBindings) := do
  guard (action_name ≠ "")
  match kb.actions_ action_name with
  | some _ => return (false, kb)
  | none => return (true, { kb with actions_ := Function.update kb.actions_ action_name (some {}) })

def GrabKey (kb : KeyBindings) (keycode : KeyCode) (modifiers : UInt32) : KeyBindings :=
  { kb with grabbed_keys_ := insert (keycode, modifiers) kb.grabbed_keys_ }

def UngrabKey (kb : KeyBindings) (keycode : KeyCode) (modifiers : UInt32) : KeyBindings :=
  { kb with grabbed_keys_ := kb.grabbed_keys_.erase (keycode, modifiers) }

variable (keyboard : Keyboard)

def AddBinding (kb : KeyBindings) (combo : KeyCombo) (action_name : String) :
    Option (Bool × KeyBindings) :=
  match kb.bindings_ combo, kb.actions_ action_name with
  | some _, _ => some (false, kb)
  | none, none => some (false, kb)
  | none, some action => do
    guard (combo ∉ action.bindings)
    let bindings := action.bindings.orderedInsert (fun a b => KeyComboComparator a b) combo
    let action_names := (kb.action_names_by_keysym_ combo.key).getD ∅
    guard (action_name ∉ action_names)
    let kb :=
      { kb with
        actions_ := Function.update kb.actions_ action_name (some { action with bindings })
        bindings_ := Function.update kb.bindings_ combo (some action_name)
        action_names_by_keysym_ := Function.update kb.action_names_by_keysym_ combo.key
          (some (insert action_name action_names)) }
    let keycode := keyboard.GetKeyCodeFromKeySym combo.key
    return (true, (kb.GrabKey keycode combo.modifiers).GrabKey keycode (combo.modifiers ||| LockMask))

def RemoveBinding (kb : KeyBindings) (combo : KeyCombo) : Option (Bool × KeyBindings) :=
  match kb.bindings_ combo with
  | none => some (false, kb)
  | some action_name => do
    let action ← kb.actions_ action_name
    guard (combo ∈ action.bindings)
    let action_names ← kb.action_names_by_keysym_ combo.key
    guard (action_name ∈ action_names)
    let action_names := action_names.erase action_name
    let kb :=
      { kb with
        actions_ := Function.update kb.actions_ action_name
          (some { running := false, bindings := action.bindings.erase combo })
        bindings_ := Function.update kb.bindings_ combo none
        action_names_by_keysym_ := Function.update kb.action_names_by_keysym_ combo.key
          (if action_names = ∅ then none else some action_names) }
    let keycode := keyboard.GetKeyCodeFromKeySym combo.key
    return (true, (kb.UngrabKey keycode combo.modifiers).UngrabKey keycode (combo.modifiers ||| LockMask))

/-- The loop of `RemoveAction`: as many turns as the action has bindings. -/
def RemoveBindings (kb : KeyBindings) (action_name : String) : ℕ → Option KeyBindings
  | 0 => some kb
  | turns + 1 => do
    let action ← kb.actions_ action_name
    match action.bindings with
    | [] => return kb
    | first :: _ =>
      let (removed, kb) ← kb.RemoveBinding keyboard first
      guard removed
      kb.RemoveBindings action_name turns

def RemoveAction (kb : KeyBindings) (action_name : String) : Option (Bool × KeyBindings) :=
  match kb.actions_ action_name with
  | none => some (false, kb)
  | some action => do
    let kb ← kb.RemoveBindings keyboard action_name action.bindings.length
    let action ← kb.actions_ action_name
    guard (action.bindings = [])
    return (true, { kb with actions_ := Function.update kb.actions_ action_name none })

/-- A call of one of the four operations. -/
inductive Call where
  | AddAction (action_name : String)
  | RemoveAction (action_name : String)
  | AddBinding (key_param : KeySym) (modifiers_param : UInt32) (action_name : String)
  | RemoveBinding (key_param : KeySym) (modifiers_param : UInt32)
deriving DecidableEq

/-- The bindings after a call whose result nobody looks at. -/
def step (kb : KeyBindings) : Call → Option KeyBindings
  | .AddAction action_name => (kb.AddAction action_name).map Prod.snd
  | .RemoveAction action_name => (kb.RemoveAction keyboard action_name).map Prod.snd
  | .AddBinding key_param modifiers_param action_name =>
    (kb.AddBinding keyboard (keyboard.KeyCombo key_param modifiers_param) action_name).map Prod.snd
  | .RemoveBinding key_param modifiers_param =>
    (kb.RemoveBinding keyboard (keyboard.KeyCombo key_param modifiers_param)).map Prod.snd

/-- The closures of an action. -/
inductive Closure where
  | begin_closure
  | repeat_closure
  | end_closure
deriving DecidableEq

/-- A closure that was run. -/
structure ClosureRun where
  action_name : String
  closure : Closure
deriving DecidableEq

def setRunning (kb : KeyBindings) (action_name : String) (action : Action) (running : Bool) : KeyBindings :=
  { kb with actions_ := Function.update kb.actions_ action_name (some { action with running }) }

section Events

variable (closures : String → Closure → Bool)

/-- `closures` says which closures the actions were added with. -/
def HandleKeyPress (kb : KeyBindings) (keysym : KeySym) (modifiers : UInt32) :
    Option (Bool × KeyBindings × List ClosureRun) :=
  match kb.bindings_ (keyboard.KeyCombo keysym modifiers) with
  | none => some (false, kb, [])
  | some action_name => do
    let action ← kb.actions_ action_name
    if action.running then
      if closures action_name .repeat_closure then some (true, kb, [⟨action_name, .repeat_closure⟩])
      else some (false, kb, [])
    else
      let kb := kb.setRunning action_name action true
      if closures action_name .begin_closure then some (true, kb, [⟨action_name, .begin_closure⟩])
      else some (false, kb, [])

/-- The loop of `HandleKeyRelease`. -/
def endActions (kb : KeyBindings) (ran_end_closure : Bool) :
    List String → Option (Bool × KeyBindings × List ClosureRun)
  | [] => some (ran_end_closure, kb, [])
  | action_name :: action_names => do
    let action ← kb.actions_ action_name
    if action.running then
      let kb := kb.setRunning action_name action false
      if closures action_name .end_closure then
        let (ran_end_closure, kb, runs) ← kb.endActions true action_names
        some (ran_end_closure, kb, ⟨action_name, .end_closure⟩ :: runs)
      else kb.endActions ran_end_closure action_names
    else kb.endActions ran_end_closure action_names

def HandleKeyRelease (kb : KeyBindings) (keysym : KeySym) (modifiers : UInt32) :
    Option (Bool × KeyBindings × List ClosureRun) :=
  match kb.action_names_by_keysym_ (keyboard.KeyCombo keysym modifiers).key with
  | none => some (false, kb, [])
  | some action_names => kb.endActions closures false (action_names.sort (· ≤ ·))

/-- What happens to bindings that nothing is removed from. -/
inductive KeyEvent where
  | AddAction (action_name : String)
  | AddBinding (key_param : KeySym) (modifiers_param : UInt32) (action_name : String)
  | HandleKeyPress (keysym : KeySym) (modifiers : UInt32)
  | HandleKeyRelease (keysym : KeySym) (modifiers : UInt32)
deriving DecidableEq

/-- The bindings and the closures run so far. -/
structure Traced where
  kb : KeyBindings := {}
  ran : List ClosureRun := []

def Traced.handle (state : Traced) : KeyEvent → Option Traced
  | .AddAction action_name => (state.kb.step keyboard (.AddAction action_name)).map fun kb => { state with kb }
  | .AddBinding key_param modifiers_param action_name =>
    (state.kb.step keyboard (.AddBinding key_param modifiers_param action_name)).map fun kb => { state with kb }
  | .HandleKeyPress keysym modifiers =>
    (state.kb.HandleKeyPress keyboard closures keysym modifiers).map fun (_, kb, runs) => ⟨kb, state.ran ++ runs⟩
  | .HandleKeyRelease keysym modifiers =>
    (state.kb.HandleKeyRelease keyboard closures keysym modifiers).map fun (_, kb, runs) => ⟨kb, state.ran ++ runs⟩

end Events

end KeyBindings

end ChromiumOS.WindowManager
