import ChromiumOS.ToMathlib.ListOrder

/-! # Actors

The tree of actors of `tidy_interface.cc`: actors live at addresses, an actor points to its parent and
a container lists its children from top to bottom. A failed `CHECK` and a call through a pointer to an
actor that is gone are `none`.
-/

namespace ChromiumOS.WindowManager

/-- The address of an actor. -/
abbrev ActorAddress := ℕ

open ListOrder

/-- `RaiseChild` on the children of a container. -/
def RaiseChild (children_ : List ActorAddress) (child : ActorAddress) (above : Option ActorAddress) :
    List ActorAddress :=
  if some child = above then children_
  else if child ∉ children_ then children_
  else
    match above with
    | some above =>
      if above ∉ children_ then children_ else insertBefore child above (children_.erase child)
    | none => child :: children_.erase child

/-- `LowerChild` on the children of a container. -/
def LowerChild (children_ : List ActorAddress) (child : ActorAddress) (below : Option ActorAddress) :
    List ActorAddress :=
  if some child = below then children_
  else if child ∉ children_ then children_
  else
    match below with
    | some below =>
      if below ∉ children_ then children_ else insertAfter child below (children_.erase child)
    | none => children_.erase child ++ [child]

/-- An actor; a container has a list of children. -/
structure TidyActor where
  parent_ : Option ActorAddress := none
  has_children_ : Bool := false
  children_ : Option (List ActorAddress) := none
deriving DecidableEq, Repr

/-- The actors that are alive. -/
structure TidyInterface where
  actors_ : ActorAddress → Option TidyActor := fun _ => none

namespace TidyInterface

def set (tidy : TidyInterface) (address : ActorAddress) (actor : TidyActor) : TidyInterface :=
  { tidy with actors_ := Function.update tidy.actors_ address (some actor) }

/-- A container with other children. -/
def setChildren (tidy : TidyInterface) (address : ActorAddress) (container : TidyActor)
    (children_ : List ActorAddress) : TidyInterface :=
  tidy.set address
    { container with children_ := some children_, has_children_ := !children_.isEmpty }

/-- A new actor or, as from `CreateGroup`, a new container. -/
def create (tidy : TidyInterface) (address : ActorAddress) (container : Bool) : Option TidyInterface :=
  if tidy.actors_ address = none then
    some (tidy.set address { children_ := if container then some [] else none })
  else none

def AddActor (tidy : TidyInterface) (container actor : ActorAddress) : Option TidyInterface := do
  let cast_actor ← tidy.actors_ actor
  let tidy := tidy.set actor { cast_actor with parent_ := some container }
  let this ← tidy.actors_ container
  let children_ ← this.children_
  return tidy.set container
    { this with children_ := some (actor :: children_), has_children_ := true }

def RemoveActor (tidy : TidyInterface) (container actor : ActorAddress) : Option TidyInterface := do
  let this ← tidy.actors_ container
  let children_ ← this.children_
  if actor ∈ children_ then return tidy.setChildren container this (children_.erase actor)
  else return tidy

/-- A call of `RaiseChild` or `LowerChild` on the parent of an actor. -/
def restack (tidy : TidyInterface) (actor : ActorAddress)
    (method : List ActorAddress → List ActorAddress) : Option TidyInterface := do
  let this ← tidy.actors_ actor
  let parent_ ← this.parent_
  let container ← tidy.actors_ parent_
  let children_ ← container.children_
  return tidy.set parent_ { container with children_ := some (method children_) }

def Raise (tidy : TidyInterface) (actor other : ActorAddress) : Option TidyInterface :=
  tidy.restack actor fun children_ => RaiseChild children_ actor (some other)

def Lower (tidy : TidyInterface) (actor other : ActorAddress) : Option TidyInterface :=
  tidy.restack actor fun children_ => LowerChild children_ actor (some other)

def RaiseToTop (tidy : TidyInterface) (actor : ActorAddress) : Option TidyInterface :=
  tidy.restack actor fun children_ => RaiseChild children_ actor none

def LowerToBottom (tidy : TidyInterface) (actor : ActorAddress) : Option TidyInterface :=
  tidy.restack actor fun children_ => LowerChild children_ actor none

/-- The destructor. A container that is its own parent would call `RemoveActor` on children that are
already gone. -/
def destroy (tidy : TidyInterface) (actor : ActorAddress) : Option TidyInterface := do
  let this ← tidy.actors_ actor
  guard (this.parent_ ≠ some actor)
  let tidy ← this.parent_.elim (some tidy) fun parent_ => tidy.RemoveActor parent_ actor
  return { tidy with actors_ := Function.update tidy.actors_ actor none }

inductive Call where
  | create (address : ActorAddress) (container : Bool)
  | AddActor (container actor : ActorAddress)
  | RemoveActor (container actor : ActorAddress)
  | Raise (actor other : ActorAddress)
  | Lower (actor other : ActorAddress)
  | RaiseToTop (actor : ActorAddress)
  | LowerToBottom (actor : ActorAddress)
  | destroy (actor : ActorAddress)
deriving DecidableEq, Repr

def step (tidy : TidyInterface) : Call → Option TidyInterface
  | .create address container => tidy.create address container
  | .AddActor container actor => tidy.AddActor container actor
  | .RemoveActor container actor => tidy.RemoveActor container actor
  | .Raise actor other => tidy.Raise actor other
  | .Lower actor other => tidy.Lower actor other
  | .RaiseToTop actor => tidy.RaiseToTop actor
  | .LowerToBottom actor => tidy.LowerToBottom actor
  | .destroy actor => tidy.destroy actor

end TidyInterface

end ChromiumOS.WindowManager
