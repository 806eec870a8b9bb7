import ChromiumOS.Model.WindowManager.Stacker
import ChromiumOS.ToMathlib.NodeList

/-! # The stacker as it is stored

`Stacker` in `util.h` with its two members: the list of items and the map of iterators into it. What would
use an iterator at a node that is gone is `none`.
-/

namespace ChromiumOS.WindowManager

variable {T : Type} [DecidableEq T]

structure LinkedStacker (T : Type) where
  items_ : NodeList T := {}
  index_ : T → Option Iterator := fun _ => none

namespace LinkedStacker

def Contains (stacker : LinkedStacker T) (item : T) : Bool := (stacker.index_ item).isSome

/-- `insert` on the map, which keeps the value of a key that it has. -/
def insertIndex (index_ : T → Option Iterator) (item : T) (it : Iterator) : T → Option Iterator :=
  if index_ item = none then Function.update index_ item (some it) else index_

/-- The item under another one, empty for `NULL`. -/
def GetUnder (stacker : LinkedStacker T) (item : T) : Option (Option T) :=
  match stacker.index_ item with
  | none => some none
  | some map_it => do
    let list_it ← stacker.items_.advance map_it
    if list_it = .finish then return none
    return some (← stacker.items_.dereference list_it)

variable (allocator : Allocator) (stacker : LinkedStacker T)

def AddOnTop (item : T) : Option (LinkedStacker T) :=
  if stacker.Contains item then some stacker
  else
    let items_ := stacker.items_.pushFront allocator item
    some ⟨items_, insertIndex stacker.index_ item items_.begin⟩

def AddOnBottom (item : T) : Option (LinkedStacker T) :=
  if stacker.Contains item then some stacker
  else do
    let items_ := stacker.items_.pushBack allocator item
    return ⟨items_, insertIndex stacker.index_ item (← items_.beforeEnd)⟩

def AddAbove (item other_item : T) : Option (LinkedStacker T) :=
  if stacker.Contains item then some stacker
  else
    match stacker.index_ other_item with
    | none => some stacker
    | some other_it => do
      let (items_, new_it) ← stacker.items_.insert allocator other_it item
      return ⟨items_, insertIndex stacker.index_ item new_it⟩

def AddBelow (item other_item : T) : Option (LinkedStacker T) :=
  if stacker.Contains item then some stacker
  else
    match stacker.index_ other_item with
    | none => some stacker
    | some other_it => do
      let new_it ← stacker.items_.advance other_it
      let (items_, it) ← stacker.items_.insert allocator new_it item
      return ⟨items_, insertIndex stacker.index_ item it⟩

def Remove (item : T) : Option (LinkedStacker T) :=
  match stacker.index_ item with
  | none => some stacker
  | some it => do
    let items_ ← stacker.items_.erase it
    return ⟨items_, Function.update stacker.index_ item none⟩

end LinkedStacker

/-- A call that changes the stack. -/
inductive StackerCall (T : Type) where
  | AddOnTop (item : T)
  | AddOnBottom (item : T)
  | AddAbove (item other_item : T)
  | AddBelow (item other_item : T)
  | Remove (item : T)
deriving DecidableEq

def LinkedStacker.perform (allocator : Allocator) (stacker : LinkedStacker T) :
    StackerCall T → Option (LinkedStacker T)
  | .AddOnTop item => stacker.AddOnTop allocator item
  | .AddOnBottom item => stacker.AddOnBottom allocator item
  | .AddAbove item other_item => stacker.AddAbove allocator item other_item
  | .AddBelow item other_item => stacker.AddBelow allocator item other_item
  | .Remove item => stacker.Remove item

end ChromiumOS.WindowManager
