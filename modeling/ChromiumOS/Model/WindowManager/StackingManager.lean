import ChromiumOS.Model.WindowManager.TidyInterface
import ChromiumOS.Model.WindowManager.ToplevelWindow

/-! # Layers

`stacking_manager.cc`. The X windows are the children of the root window and the actors those of the
stage, both from top to bottom. A failed `CHECK` is `none`.
-/

namespace ChromiumOS.WindowManager

open ListOrder

/-- Layers into which windows can be stacked, in top-to-bottom order. -/
inductive Layer where
  | LAYER_DEBUGGING
  | LAYER_HOTKEY_OVERLAY
  | LAYER_DRAGGED_PANEL
  | LAYER_ACTIVE_TRANSIENT_WINDOW
  | LAYER_PANEL_BAR_INPUT_WINDOW
  | LAYER_STATIONARY_PANEL_IN_BAR
  | LAYER_STATIONARY_PANEL_IN_DOCK
  | LAYER_PANEL_DOCK
  | LAYER_FLOATING_TAB
  | LAYER_TAB_SUMMARY
  | LAYER_TOPLEVEL_WINDOW
  | LAYER_BACKGROUND
deriving DecidableEq, Repr

namespace Layer

def toNat : Layer → ℕ
  | LAYER_DEBUGGING => 0
  | LAYER_HOTKEY_OVERLAY => 1
  | LAYER_DRAGGED_PANEL => 2
  | LAYER_ACTIVE_TRANSIENT_WINDOW => 3
  | LAYER_PANEL_BAR_INPUT_WINDOW => 4
  | LAYER_STATIONARY_PANEL_IN_BAR => 5
  | LAYER_STATIONARY_PANEL_IN_DOCK => 6
  | LAYER_PANEL_DOCK => 7
  | LAYER_FLOATING_TAB => 8
  | LAYER_TAB_SUMMARY => 9
  | LAYER_TOPLEVEL_WINDOW => 10
  | LAYER_BACKGROUND => 11

/-- All layers from top to bottom. -/
def all : List Layer :=
  [LAYER_DEBUGGING, LAYER_HOTKEY_OVERLAY, LAYER_DRAGGED_PANEL, LAYER_ACTIVE_TRANSIENT_WINDOW,
    LAYER_PANEL_BAR_INPUT_WINDOW, LAYER_STATIONARY_PANEL_IN_BAR, LAYER_STATIONARY_PANEL_IN_DOCK,
    LAYER_PANEL_DOCK, LAYER_FLOATING_TAB, LAYER_TAB_SUMMARY, LAYER_TOPLEVEL_WINDOW, LAYER_BACKGROUND]

/-- The layer of a number, as in `static_cast<Layer>`; other numbers have no reference point. -/
def cast (index : ℕ) : Option Layer := all[index]?

end Layer

/-- The X window, the actor and the group of the shadow of a `Window`. -/
structure StackableWindow where
  xid : XWindow
  actor_ : ActorAddress
  shadow_ : Option ActorAddress
deriving DecidableEq, Repr

namespace StackableWindow

/-- The common end of `StackCompositedAbove` and `StackCompositedBelow`. -/
def stackShadow (win : StackableWindow) (children_ : List ActorAddress)
    (shadow_actor : Option ActorAddress) (stack_above_shadow_actor : Bool) : List ActorAddress :=
  match win.shadow_ with
  | none => children_
  | some group =>
    if shadow_actor = none ∨ stack_above_shadow_actor = false then
      LowerChild children_ group (some (shadow_actor.getD win.actor_))
    else RaiseChild children_ group shadow_actor

def StackCompositedAbove (win : StackableWindow) (children_ : List ActorAddress)
    (actor shadow_actor : Option ActorAddress) (stack_above_shadow_actor : Bool) : List ActorAddress :=
  let children_ := actor.elim children_ fun actor => RaiseChild children_ win.actor_ (some actor)
  win.stackShadow children_ shadow_actor stack_above_shadow_actor

def StackCompositedBelow (win : StackableWindow) (children_ : List ActorAddress)
    (actor shadow_actor : Option ActorAddress) (stack_above_shadow_actor : Bool) : List ActorAddress :=
  let children_ := actor.elim children_ fun actor => LowerChild children_ win.actor_ (some actor)
  win.stackShadow children_ shadow_actor stack_above_shadow_actor

end StackableWindow

/-- `XConnection::StackWindow` and whether the request succeeds. -/
def StackWindow (xids : List XWindow) (xid other : XWindow) (above : Bool) : Bool × List XWindow :=
  if xid ∈ xids ∧ other ∈ xids ∧ xid ≠ other then
    (true, if above then insertBefore xid other (xids.erase xid) else insertAfter xid other (xids.erase xid))
  else (false, xids)

/-- Where an object has last been put: in a layer, or at its bottom as the shadow of a window. -/
inductive Place where
  | body (layer : Layer)
  | shadow (layer : Layer)
deriving DecidableEq, Repr

/-- The reference points of the layers, the two stacks, and the places that objects have been given. -/
structure StackingManager where
  layer_to_xid_ : Layer → XWindow
  layer_to_actor_ : Layer → ActorAddress
  xids : List XWindow
  children_ : List ActorAddress
  xidPlaces : XWindow → Option Place := fun _ => none
  actorPlaces : ActorAddress → Option Place := fun _ => none

namespace StackingManager

/-- The constructor, with the ids of the windows and actors that it creates. -/
def new (xids : List XWindow) (children_ : List ActorAddress) (newXid : Layer → XWindow)
    (newActor : Layer → ActorAddress) : StackingManager where
  layer_to_xid_ := newXid
  layer_to_actor_ := newActor
  xids := Layer.all.reverse.foldl (fun xids layer => newXid layer :: xids) xids
  children_ := Layer.all.reverse.foldl
    (fun children_ layer => RaiseChild (newActor layer :: children_) (newActor layer) none) children_

variable (manager : StackingManager)

def GetActorForLayer (layer : ℕ) : Option ActorAddress :=
  (Layer.cast layer).map manager.layer_to_actor_

def GetXidForLayer (layer : ℕ) : Option XWindow := (Layer.cast layer).map manager.layer_to_xid_

/-- The places of the three objects of a window after it has been stacked in a layer. -/
def placed (win : StackableWindow) (layer : Layer) : StackingManager :=
  let actorPlaces := Function.update manager.actorPlaces win.actor_ (some (.body layer))
  { manager with
    xidPlaces := Function.update manager.xidPlaces win.xid (some (.body layer))
    actorPlaces := win.shadow_.elim actorPlaces fun group =>
      Function.update actorPlaces group (some (.shadow layer)) }

def StackWindowAtTopOfLayer (win : StackableWindow) (layer : Layer) : Option (Bool × StackingManager) := do
  let layer_actor ← manager.GetActorForLayer layer.toNat
  let lower_layer_actor ← manager.GetActorForLayer (layer.toNat + 1)
  let children_ := win.StackCompositedBelow manager.children_ (some layer_actor) (some lower_layer_actor) true
  let layer_xid ← manager.GetXidForLayer layer.toNat
  let (result, xids) := StackWindow manager.xids win.xid layer_xid false
  return (result, { manager.placed win layer with xids, children_ })

def StackXidAtTopOfLayer (xid : XWindow) (layer : Layer) : Option (Bool × StackingManager) := do
  let layer_xid ← manager.GetXidForLayer layer.toNat
  let (result, xids) := StackWindow manager.xids xid layer_xid false
  return (result, { manager with
    xids, xidPlaces := Function.update manager.xidPlaces xid (some (.body layer)) })

def StackActorAtTopOfLayer (actor : ActorAddress) (layer : Layer) : Option StackingManager := do
  let layer_actor ← manager.GetActorForLayer layer.toNat
  return { manager with
    children_ := LowerChild manager.children_ actor (some layer_actor)
    actorPlaces := Function.update manager.actorPlaces actor (some (.body layer)) }

def StackWindowRelativeToOtherWindow (win sibling : StackableWindow) (above : Bool) (layer : Layer) :
    Option (Bool × StackingManager) := do
  let lower_layer_actor ← manager.GetActorForLayer (layer.toNat + 1)
  let children_ :=
    if above then
      win.StackCompositedAbove manager.children_ (some sibling.actor_) (some lower_layer_actor) true
    else win.StackCompositedBelow manager.children_ (some sibling.actor_) (some lower_layer_actor) true
  let (result, xids) := StackWindow manager.xids win.xid sibling.xid above
  return (result, { manager.placed win layer with xids, children_ })

inductive Call where
  | StackWindowAtTopOfLayer (win : StackableWindow) (layer : Layer)
  | StackXidAtTopOfLayer (xid : XWindow) (layer : Layer)
  | StackActorAtTopOfLayer (actor : ActorAddress) (layer : Layer)
  | StackWindowRelativeToOtherWindow (win sibling : StackableWindow) (above : Bool) (layer : Layer)
deriving DecidableEq, Repr

def step : Call → Option StackingManager
  | .StackWindowAtTopOfLayer win layer => (manager.StackWindowAtTopOfLayer win layer).map Prod.snd
  | .StackXidAtTopOfLayer xid layer => (manager.StackXidAtTopOfLayer xid layer).map Prod.snd
  | .StackActorAtTopOfLayer actor layer => manager.StackActorAtTopOfLayer actor layer
  | .StackWindowRelativeToOtherWindow win sibling above layer =>
    (manager.StackWindowRelativeToOtherWindow win sibling above layer).map Prod.snd

end StackingManager

end ChromiumOS.WindowManager
