import ChromiumOS.ToMathlib.PartialRun

/-! # The action processor

`action_processor.cc` and the base class of `action.h`. The processor is modelled together with the
back pointers of all actions, which live outside of it, and the calls it makes on actions and on its
delegate. A failed `CHECK` ends the program, which is `none`. `PerformAction` is virtual and may call
back into the processor; it is a parameter, and always the last thing the processor does.
-/

namespace ChromiumOS.UpdateEngine.ActionProcessor

/-- The calls made on actions and on the delegate. -/
inductive Call (Action : Type) where
  | PerformAction (action : Action)
  | TerminateProcessing (action : Action)
  | ActionCompleted (action : Action) (success : Bool)
  | ProcessingDone (success : Bool)
  | ProcessingStopped
deriving DecidableEq, Repr

/-- A processor, the back pointers of the actions and the calls made so far. -/
structure World (Action Processor : Type) where
  actions_ : List Action
  current_action_ : Option Action
  delegate_ : Bool
  processor_ : Action → Option Processor
  calls : List (Call Action)

namespace World

variable {Action Processor : Type} [DecidableEq Action]

def IsRunning (world : World Action Processor) : Bool := world.current_action_.isSome

def call (world : World Action Processor) (made : Call Action) : World Action Processor :=
  { world with calls := world.calls ++ [made] }

/-- A call on the delegate, if there is one. -/
def notify (world : World Action Processor) (made : Call Action) : World Action Processor :=
  if world.delegate_ then world.call made else world

/-- Set the back pointer of an action, which must be cleared before it is set and conversely. -/
def SetProcessor (world : World Action Processor) (action : Action) (processor : Option Processor) :
    Option (World Action Processor) :=
  let checked :=
    if processor.isSome then (world.processor_ action).isNone else (world.processor_ action).isSome
  if checked then
    some { world with processor_ := Function.update world.processor_ action processor }
  else none

def EnqueueAction (this : Processor) (world : World Action Processor) (action : Action) :
    Option (World Action Processor) :=
  SetProcessor { world with actions_ := world.actions_ ++ [action] } action (some this)

def StopProcessing (world : World Action Processor) : Option (World Action Processor) :=
  match world.current_action_ with
  | none => none
  | some current => do
    let world := world.call (.TerminateProcessing current)
    let world ← world.SetProcessor current none
    let world := { world with current_action_ := none }
    some (world.notify .ProcessingStopped)

/-- The destructor: stop what is running and let go of what is queued. -/
def destroy (world : World Action Processor) : Option (World Action Processor) := do
  let world ← if world.IsRunning then world.StopProcessing else some world
  world.actions_.foldlM (fun world action => world.SetProcessor action none) world

section Virtual

variable (PerformAction : World Action Processor → Action → Option (World Action Processor))

def StartProcessing (world : World Action Processor) : Option (World Action Processor) :=
  if world.IsRunning then none
  else
    match world.actions_ with
    | [] => some world
    | action :: rest =>
      PerformAction { world with current_action_ := some action, actions_ := rest } action

def ActionComplete (world : World Action Processor) (actionptr : Action) (success : Bool) :
    Option (World Action Processor) :=
  if world.current_action_ ≠ some actionptr then none
  else do
    let world := world.notify (.ActionCompleted actionptr success)
    let world ← world.SetProcessor actionptr none
    let world := { world with current_action_ := none }
    let world :=
      if world.actions_.isEmpty then world
      else if !success then { world with actions_ := [] }
      else world
    match world.actions_ with
    | [] => some (world.notify (.ProcessingDone success))
    | action :: rest =>
      PerformAction { world with current_action_ := some action, actions_ := rest } action

end Virtual

/-- `PerformAction` of an action that only starts; what it does later is another operation. -/
def performLater (world : World Action Processor) (action : Action) : Option (World Action Processor) :=
  some (world.call (.PerformAction action))

/-- `PerformAction` when some actions complete before it returns, with calls nested to a depth. -/
def performNested (completes : Action → Option Bool) :
    ℕ → World Action Processor → Action → Option (World Action Processor)
  | 0, _, _ => none
  | depth + 1, world, action =>
    let world := world.call (.PerformAction action)
    match completes action with
    | none => some world
    | some success => world.ActionComplete (performNested completes depth) action success

end World

/-- What the users of a processor call. -/
inductive Operation (Action : Type) where
  | EnqueueAction (action : Action)
  | StartProcessing
  | StopProcessing
  | ActionComplete (action : Action) (success : Bool)
  | set_delegate (present : Bool)
deriving DecidableEq, Repr

section Steps

variable {Action Processor : Type} [DecidableEq Action]

/-- One operation. A call from inside `PerformAction` is the operation that follows. -/
def step (this : Processor) (world : World Action Processor) :
    Operation Action → Option (World Action Processor)
  | .EnqueueAction action => world.EnqueueAction this action
  | .StartProcessing => world.StartProcessing World.performLater
  | .StopProcessing => world.StopProcessing
  | .ActionComplete action success => world.ActionComplete World.performLater action success
  | .set_delegate present => some { world with delegate_ := present }

/-- The main loop: the action that is running completes, until none is or the turns are over. -/
def mainLoop (PerformAction : World Action Processor → Action → Option (World Action Processor))
    (result : Action → Bool) : ℕ → World Action Processor → Option (World Action Processor)
  | 0, world => some world
  | turns + 1, world =>
    match world.current_action_ with
    | none => some world
    | some action => do
      let world ← world.ActionComplete PerformAction action (result action)
      mainLoop PerformAction result turns world

/-- The completions that are made inside `PerformAction`. -/
def synchronously (synchronous result : Action → Bool) (action : Action) : Option Bool :=
  if synchronous action then some (result action) else none

/-- Enqueue a list of actions, start, and let those that do not complete at once complete later. -/
def processQueue (this : Processor) (synchronous result : Action → Bool) (depth turns : ℕ)
    (world : World Action Processor) (queue : List Action) : Option (World Action Processor) := do
  let perform := World.performNested (synchronously synchronous result) depth
  let world ← queue.foldlM (World.EnqueueAction this) world
  let world ← world.StartProcessing perform
  mainLoop perform result turns world

end Steps

end ChromiumOS.UpdateEngine.ActionProcessor
