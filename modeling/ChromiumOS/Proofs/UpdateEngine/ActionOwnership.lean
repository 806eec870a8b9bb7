import ChromiumOS.Model.UpdateEngine.ActionProcessor

/-! # Which actions point back to a processor

An operation takes one action in, lets one go, or keeps what the processor holds. The back pointers
follow, except when an action fails with others still queued: these are dropped from the queue with
their pointers left as they were.
-/

namespace ChromiumOS.UpdateEngine.ActionProcessor

open PartialRun

variable {Action Processor : Type} [DecidableEq Action]

/-- The actions a processor holds, the current one first. -/
def World.held (world : World Action Processor) : List Action :=
  world.current_action_.toList ++ world.actions_

omit [DecidableEq Action] in
theorem World.mem_held {world : World Action Processor} {action : Action} :
    action ∈ world.held ↔ world.current_action_ = some action ∨ action ∈ world.actions_ := by
  rw [World.held, List.mem_append, Option.mem_toList]

section SetProcessor

variable {world next : World Action Processor} {action : Action}

theorem World.SetProcessor_some {this : Processor} :
    world.SetProcessor action (some this) = some next ↔ world.processor_ action = none ∧
      next = { world with processor_ := Function.update world.processor_ action (some this) } := by
  cases owner : world.processor_ action <;> simp [World.SetProcessor, owner, eq_comm]

theorem World.SetProcessor_none :
    world.SetProcessor action none = some next ↔ world.processor_ action ≠ none ∧
      next = { world with processor_ := Function.update world.processor_ action none } := by
  cases owner : world.processor_ action <;> simp [World.SetProcessor, owner, eq_comm]

end SetProcessor

section Notify

variable (world : World Action Processor) (made : Call Action)

omit [DecidableEq Action] in
@[simp] theorem World.notify_actions_ : (world.notify made).actions_ = world.actions_ := by
  rw [World.notify]
  split <;> rfl

omit [DecidableEq Action] in
@[simp] theorem World.notify_current_action_ :
    (world.notify made).current_action_ = world.current_action_ := by
  rw [World.notify]
  split <;> rfl

omit [DecidableEq Action] in
@[simp] theorem World.notify_processor_ : (world.notify made).processor_ = world.processor_ := by
  rw [World.notify]
  split <;> rfl

end Notify

/-- What an operation does to the held actions and to the back pointers. -/
inductive Change (this : Processor) (world next : World Action Processor) : Prop
  | keep (held : next.held = world.held) (pointers : next.processor_ = world.processor_)
  | take (action : Action) (free : world.processor_ action = none)
      (held : next.held = world.held ++ [action])
      (pointers : next.processor_ = Function.update world.processor_ action (some this))
  | release (action : Action) (held : world.held = action :: next.held)
      (pointers : next.processor_ = Function.update world.processor_ action none)

/-- The completions that discard what is queued. -/
def Discards (world : World Action Processor) (operation : Operation Action) : Prop :=
  ∃ action, operation = .ActionComplete action false ∧ world.current_action_ = some action ∧
    world.actions_ ≠ []

section Step

variable {this : Processor} {world next : World Action Processor}

/-- A completion as one choice between going idle and performing what comes next. -/
theorem World.ActionComplete_eq
    {PerformAction : World Action Processor → Action → Option (World Action Processor)}
    {action : Action} {success : Bool} (running : world.current_action_ = some action) :
    world.ActionComplete PerformAction action success =
      ((world.notify (.ActionCompleted action success)).SetProcessor action none).bind fun next =>
        match if success then next.actions_ else [] with
        | [] => some (World.notify { next with current_action_ := none, actions_ := [] }
            (.ProcessingDone success))
        | queued :: rest => PerformAction
            { next with current_action_ := some queued, actions_ := rest } queued := by
  rw [World.ActionComplete, if_neg (not_not_intro running)]
  simp only [Option.bind_eq_bind]
  congr 1
  funext next
  obtain ⟨actions_, current, delegate, pointers, calls⟩ := next
  cases actions_ <;> cases success <;> rfl

theorem change_of_step {operation : Operation Action} (taken : step this world operation = some next)
    (keeps : ¬ Discards world operation) : Change this world next := by
  cases operation with
  | EnqueueAction action =>
    obtain ⟨free, rfl⟩ := World.SetProcessor_some.mp taken
    exact .take action free (List.append_assoc _ _ _).symm rfl
  | StartProcessing =>
    cases running : world.current_action_ with
    | some current => simp [step, World.StartProcessing, World.IsRunning, running] at taken
    | none =>
      cases queue : world.actions_ with
      | nil =>
        simp only [step, World.StartProcessing, World.IsRunning, running, queue, Option.isSome_none,
          Bool.false_eq_true, if_false, Option.some.injEq] at taken
        exact .keep (taken ▸ rfl) (taken ▸ rfl)
      | cons action rest =>
        simp only [step, World.StartProcessing, World.IsRunning, running, queue, Option.isSome_none,
          Bool.false_eq_true, if_false, World.performLater, Option.some.injEq] at taken
        refine .keep ?_ (taken ▸ rfl)
        rw [← taken, World.held, World.held, running, queue]
        rfl
  | StopProcessing =>
    cases running : world.current_action_ with
    | none => simp [step, World.StopProcessing, running] at taken
    | some current =>
      simp only [step, World.StopProcessing, running, Option.bind_eq_bind,
        Option.bind_eq_some_iff] at taken
      obtain ⟨stopped, set, taken⟩ := taken
      obtain ⟨-, rfl⟩ := World.SetProcessor_none.mp set
      refine .release current ?_ ?_ <;> rw [← Option.some.inj taken]
      · simp [World.held, World.call, running]
      · simp [World.call]
  | ActionComplete action success =>
    by_cases running : world.current_action_ = some action
    swap
    · simp [step, World.ActionComplete, running] at taken
    rw [step, World.ActionComplete_eq running] at taken
    obtain ⟨stopped, set, taken⟩ := Option.bind_eq_some_iff.mp taken
    obtain ⟨-, rfl⟩ := World.SetProcessor_none.mp set
    have queue : (if success then world.actions_ else []) = world.actions_ := by
      cases success with
      | true => rfl
      | false =>
        by_contra queued
        exact keeps ⟨action, rfl, running, Ne.symm queued⟩
    simp only [World.notify_actions_, queue] at taken
    cases rest : world.actions_ with
    | nil =>
      simp only [rest, Option.some.injEq] at taken
      refine .release action ?_ ?_ <;> rw [← taken]
      · simp [World.held, running, rest]
      · simp
    | cons queued rest' =>
      simp only [rest, World.performLater, Option.some.injEq] at taken
      refine .release action ?_ ?_ <;> rw [← taken]
      · simp [World.held, World.call, running, rest]
      · simp [World.call]
  | set_delegate present =>
    obtain rfl := Option.some.inj taken
    exact .keep rfl rfl

/-- A failed completion leaves the discarded actions pointing at the processor. -/
theorem discard_of_step {operation : Operation Action} (discards : Discards world operation)
    (owned : ∀ action ∈ world.held, world.processor_ action = some this)
    (distinct : world.held.Nodup) :
    ∃ next, step this world operation = some next ∧ next.held = [] ∧
      ∃ action, next.processor_ action = some this := by
  obtain ⟨action, rfl, running, queued⟩ := discards
  obtain ⟨left, rest, queue⟩ := List.exists_cons_of_ne_nil queued
  have held : world.held = action :: left :: rest := by simp [World.held, running, queue]
  have different : left ≠ action := by
    rw [held, List.nodup_cons] at distinct
    exact fun same => distinct.1 (same ▸ List.mem_cons_self)
  have currentOwned := owned action (by simp [held])
  have leftOwned := owned left (by simp [held])
  have pointer : (world.notify (.ActionCompleted action false)).processor_ action ≠ none := by
    simp [currentOwned]
  have set := World.SetProcessor_none.mpr ⟨pointer, rfl⟩
  rw [step, World.ActionComplete_eq running, set, Option.bind_some]
  refine ⟨_, rfl, ?_, left, ?_⟩
  · simp [World.held]
  · simp [different, leftOwned]

end Step

/-- The back pointers of the actions are those of the held ones. -/
def Owned (this : Processor) (world : World Action Processor) : Prop :=
  ∀ action, world.processor_ action = some this ↔
    world.current_action_ = some action ∨ action ∈ world.actions_

/-- Every action that was free at the start, and that the processor does not hold, can be enqueued;
no other action ever gets into the processor. -/
def Enqueueable (this : Processor) (start world : World Action Processor) : Prop :=
  ∀ action, start.processor_ action = none →
    ¬ (world.current_action_ = some action ∨ action ∈ world.actions_) →
    ∃ next, world.EnqueueAction this action = some next

/-- A processor that no action points to yet. -/
structure Fresh (this : Processor) (world : World Action Processor) : Prop where
  queue : world.actions_ = []
  idle : world.current_action_ = none
  pointers : ∀ action, world.processor_ action ≠ some this

/-- What operations preserve: besides the pointers, that no action is held twice and that actions
free at the start are never in other hands. -/
structure Ownership (this : Processor) (start world : World Action Processor) : Prop where
  owned : ∀ action, world.processor_ action = some this ↔ action ∈ world.held
  distinct : world.held.Nodup
  free : ∀ action, start.processor_ action = none →
    world.processor_ action = none ∨ world.processor_ action = some this

section Ownership

variable {this : Processor} {start world next : World Action Processor}

omit [DecidableEq Action] in
theorem Fresh.ownership (fresh : Fresh this start) : Ownership this start start := by
  have empty : start.held = [] := by rw [World.held, fresh.queue, fresh.idle]; rfl
  refine ⟨fun action => ?_, by rw [empty]; exact List.nodup_nil, fun action => .inl⟩
  rw [empty]
  exact iff_of_false (fresh.pointers action) List.not_mem_nil

theorem Ownership.property (holds : Ownership this start world) :
    Owned this world ∧ Enqueueable this start world := by
  refine ⟨fun action => (holds.owned action).trans World.mem_held, fun action free left => ?_⟩
  have pointer : world.processor_ action = none := by
    rcases holds.free action free with pointer | pointer
    · exact pointer
    · exact absurd (World.mem_held.mp ((holds.owned action).mp pointer)) left
  exact ⟨_, World.SetProcessor_some.mpr ⟨pointer, rfl⟩⟩

theorem Ownership.change (holds : Ownership this start world) (change : Change this world next) :
    Ownership this start next := by
  cases change with
  | keep held pointers =>
    refine ⟨?_, held ▸ holds.distinct, ?_⟩
    · rw [pointers, held]
      exact holds.owned
    · rw [pointers]
      exact holds.free
  | take action free held pointers =>
    have absent : action ∉ world.held := by
      rw [← holds.owned, free]
      simp
    refine ⟨fun other => ?_, ?_, fun other otherFree => ?_⟩
    · rw [pointers, held, List.mem_append, List.mem_singleton]
      by_cases same : other = action
      · simp [same]
      · simp [same, holds.owned]
    · rw [held]
      exact List.nodup_append.mpr ⟨holds.distinct, List.nodup_singleton _,
        fun other member last lastEq => fun same => absent (by
          rw [List.mem_singleton] at lastEq
          rw [← lastEq, ← same]
          exact member)⟩
    · rw [pointers]
      by_cases same : other = action
      · simp [same]
      · rw [Function.update_of_ne same]
        exact holds.free other otherFree
  | release action held pointers =>
    have distinct := holds.distinct
    rw [held, List.nodup_cons] at distinct
    refine ⟨fun other => ?_, distinct.2, fun other otherFree => ?_⟩
    · rw [pointers]
      by_cases same : other = action
      · rw [same, Function.update_self]
        exact iff_of_false (by simp) distinct.1
      · rw [Function.update_of_ne same, holds.owned, held, List.mem_cons]
        simp [same]
    · rw [pointers]
      by_cases same : other = action
      · simp [same]
      · rw [Function.update_of_ne same]
        exact holds.free other otherFree

/-- Letting go of every action in a queue that holds all those that point at the processor. -/
private theorem release_all {queue : List Action} (distinct : queue.Nodup)
    (owned : ∀ action, world.processor_ action = some this ↔ action ∈ queue) :
    ∃ next, queue.foldlM (fun world action => world.SetProcessor action none) world = some next ∧
      ∀ action, next.processor_ action ≠ some this := by
  induction queue generalizing world with
  | nil => exact ⟨world, rfl, fun action pointer => List.not_mem_nil ((owned action).mp pointer)⟩
  | cons action rest ih =>
    rw [List.nodup_cons] at distinct
    have pointer := (owned action).mpr List.mem_cons_self
    have set := World.SetProcessor_none.mpr ⟨by rw [pointer]; simp, rfl⟩
    rw [List.foldlM_cons, set]
    refine ih distinct.2 fun other => ?_
    by_cases same : other = action
    · simp [same, distinct.1]
    · simp [same, owned]

/-- Destroying a processor leaves no action pointing at it. -/
theorem Ownership.destroy (holds : Ownership this start world) :
    ∃ next, world.destroy = some next ∧ ∀ action, next.processor_ action ≠ some this := by
  cases running : world.current_action_ with
  | none =>
    have held : world.held = world.actions_ := by rw [World.held, running]; rfl
    simp only [World.destroy, World.IsRunning, running, Option.isSome_none, Bool.false_eq_true,
      if_false, Option.bind_eq_bind, Option.bind_some]
    exact release_all (held ▸ holds.distinct) fun action => held ▸ holds.owned action
  | some current =>
    have held : world.held = current :: world.actions_ := by rw [World.held, running]; rfl
    have distinct := holds.distinct
    rw [held, List.nodup_cons] at distinct
    have pointer : (world.call (.TerminateProcessing current)).processor_ current ≠ none := by
      simp [World.call, (holds.owned current).mpr (by simp [held])]
    simp only [World.destroy, World.IsRunning, running, Option.isSome_some, if_true,
      World.StopProcessing, World.SetProcessor_none.mpr ⟨pointer, rfl⟩, Option.bind_eq_bind,
      Option.bind_some]
    refine release_all (by simpa [World.call] using distinct.2) fun action => ?_
    by_cases same : action = current
    · simp [World.call, same, distinct.1]
    · simp [World.call, same, holds.owned, held]

end Ownership

/-- What a `PerformAction` does beyond starting is done by operations that follow it. -/
def Follows (this : Processor)
    (PerformAction : World Action Processor → Action → Option (World Action Processor)) : Prop :=
  ∀ ⦃world next action⦄, world.current_action_ = some action → PerformAction world action = some next →
    ∃ operations, run (step this) (world.call (.PerformAction action)) operations = some next

section Nested

variable {this : Processor} {world next : World Action Processor}
variable {PerformAction : World Action Processor → Action → Option (World Action Processor)}

theorem Follows.ActionComplete (follows : Follows this PerformAction) {action : Action}
    {success : Bool} (taken : world.ActionComplete PerformAction action success = some next) :
    ∃ operations, run (step this) world (.ActionComplete action success :: operations) = some next := by
  by_cases running : world.current_action_ = some action
  swap
  · simp [World.ActionComplete, running] at taken
  rw [World.ActionComplete_eq running] at taken
  obtain ⟨released, set, taken⟩ := Option.bind_eq_some_iff.mp taken
  split at taken
  · next empty =>
    refine ⟨[], ?_⟩
    rw [run_cons, step, World.ActionComplete_eq running, set, Option.bind_some, empty]
    simp only [taken, Option.bind_some, run_nil]
  · next queued rest queue =>
    obtain ⟨operations, reached⟩ := follows rfl taken
    refine ⟨operations, ?_⟩
    rw [run_cons, step, World.ActionComplete_eq running, set, Option.bind_some, queue]
    exact reached

theorem Follows.StartProcessing (follows : Follows this PerformAction)
    (taken : world.StartProcessing PerformAction = some next) :
    ∃ operations, run (step this) world (.StartProcessing :: operations) = some next := by
  cases running : world.current_action_ with
  | some current => simp [World.StartProcessing, World.IsRunning, running] at taken
  | none =>
    cases queue : world.actions_ with
    | nil =>
      simp only [World.StartProcessing, World.IsRunning, running, queue, Option.isSome_none,
        Bool.false_eq_true, if_false] at taken
      refine ⟨[], ?_⟩
      simp only [run_cons, step, World.StartProcessing, World.IsRunning, running, queue,
        Option.isSome_none, Bool.false_eq_true, if_false, taken, Option.bind_some, run_nil]
    | cons action rest =>
      simp only [World.StartProcessing, World.IsRunning, running, queue, Option.isSome_none,
        Bool.false_eq_true, if_false] at taken
      obtain ⟨operations, reached⟩ := follows rfl taken
      refine ⟨operations, ?_⟩
      simp only [run_cons, step, World.StartProcessing, World.IsRunning, running, queue,
        Option.isSome_none, Bool.false_eq_true, if_false]
      exact reached

/-- Completions nested in `PerformAction`, to any depth, are operations that follow it. -/
theorem performNested_follows (this : Processor) (completes : Action → Option Bool) (depth : ℕ) :
    Follows this (World.performNested completes depth) := by
  induction depth with
  | zero =>
    intro world next action _ taken
    exact absurd taken (by simp [World.performNested])
  | succ depth ih =>
    intro world next action _ taken
    rw [World.performNested] at taken
    cases later : completes action with
    | none =>
      simp only [later] at taken
      exact ⟨[], taken⟩
    | some success =>
      simp only [later] at taken
      obtain ⟨operations, reached⟩ := ih.ActionComplete taken
      exact ⟨.ActionComplete action success :: operations, reached⟩

end Nested

/-- Along every run from a fresh processor, the back pointers are those of the held actions and
every action that has left can come back, exactly as long as no action fails with others queued. -/
theorem ownership_iff_no_discard {this : Processor} {start : World Action Processor}
    (fresh : Fresh this start) (operations : List (Operation Action)) :
    Always (step this) (fun world => Owned this world ∧ Enqueueable this start world) start operations ↔
      Throughout (step this) (fun world operation => ¬ Discards world operation) start operations := by
  refine always_iff_throughout (Ownership this start) (fun world holds => holds.property)
    (fun world operation next holds keeps taken => holds.change (change_of_step taken keeps)) ?_
    fresh.ownership operations
  intro world operation holds discards
  obtain ⟨next, taken, held, action, pointer⟩ := discard_of_step (not_not.mp discards)
    (fun action member => (holds.owned action).mpr member) holds.distinct
  refine ⟨next, taken, fun property => ?_⟩
  have member := World.mem_held.mpr ((property.1 action).mp pointer)
  rw [held] at member
  exact List.not_mem_nil member

/-- An idle processor; its actions are numbers. -/
def idleWorld : World ℕ Unit where
  actions_ := []
  current_action_ := none
  delegate_ := false
  processor_ := fun _ => none
  calls := []

theorem idleWorld_fresh : Fresh () idleWorld := ⟨rfl, rfl, fun _ => by simp [idleWorld]⟩

/-- Two actions of which the first fails. -/
def failingRun : List (Operation ℕ) :=
  [.EnqueueAction 1, .EnqueueAction 2, .StartProcessing, .ActionComplete 1 false]

theorem failingRun_not_owned :
    ¬ Always (step ()) (fun world => Owned () world ∧ Enqueueable () idleWorld world)
      idleWorld failingRun := by
  intro always
  obtain ⟨world, reached, pointer, idle, queue⟩ : ∃ world,
      run (step ()) idleWorld failingRun = some world ∧ world.processor_ 2 = some () ∧
        world.current_action_ = none ∧ world.actions_ = [] := ⟨_, rfl, rfl, rfl, rfl⟩
  obtain ⟨owned, -⟩ := always failingRun List.prefix_rfl world reached
  rcases (owned 2).mp pointer with running | queued
  · rw [idle] at running
    exact absurd running (by simp)
  · rw [queue] at queued
    exact List.not_mem_nil queued

/-- A run that only ever fails on its last action. -/
def carefulRun : List (Operation ℕ) :=
  [.EnqueueAction 1, .StartProcessing, .ActionComplete 1 false]

theorem carefulRun_owned :
    Always (step ()) (fun world => Owned () world ∧ Enqueueable () idleWorld world)
      idleWorld carefulRun := by
  refine (ownership_iff_no_discard idleWorld_fresh carefulRun).mpr ?_
  refine throughout_cons.mpr ⟨fun ⟨_, wrong, _⟩ => (by cases wrong), fun first taken => ?_⟩
  obtain rfl := Option.some.inj taken
  refine throughout_cons.mpr ⟨fun ⟨_, wrong, _⟩ => (by cases wrong), fun second taken => ?_⟩
  obtain rfl := Option.some.inj taken
  exact throughout_cons.mpr ⟨fun ⟨_, _, _, queued⟩ => queued rfl, fun _ _ => throughout_nil⟩

end ChromiumOS.UpdateEngine.ActionProcessor
