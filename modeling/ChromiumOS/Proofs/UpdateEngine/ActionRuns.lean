import ChromiumOS.Proofs.UpdateEngine.ActionOwnership

/-! # What a processor does with a queue

A completion starts the next action, which may complete before the call returns. The induction is
over the queue that is left: whether the next completion is nested in the current one or made by the
main loop later, the calls that follow are those of the rest of the queue.
-/

namespace ChromiumOS.UpdateEngine.ActionProcessor

variable {Action Processor : Type} [DecidableEq Action]

/-- The actions of a queue up to and including the first that fails. -/
def performed (result : Action → Bool) (queue : List Action) : List Action :=
  queue.takeWhile result ++ (queue.dropWhile result).take 1

/-- The calls for a list of performed actions, each completed before the next is performed, and the
call at their end. -/
def callsFor (result : Action → Bool) (actions : List Action) : List (Call Action) :=
  actions.flatMap (fun action => [.PerformAction action, .ActionCompleted action (result action)]) ++
    [.ProcessingDone (actions.all result)]

/-- An action is being performed with a queue behind it. -/
structure Performing (this : Processor) (world : World Action Processor) (action : Action)
    (rest : List Action) : Prop where
  running : world.current_action_ = some action
  queue : world.actions_ = rest
  delegate : world.delegate_ = true
  distinct : (action :: rest).Nodup
  owned : ∀ held ∈ action :: rest, world.processor_ held = some this

/-- A processor that has finished, after certain calls. -/
structure Finished (world : World Action Processor) (calls : List (Call Action)) : Prop where
  idle : world.current_action_ = none
  queue : world.actions_ = []
  calls : world.calls = calls

section Calls

variable {result : Action → Bool} {action : Action}

omit [DecidableEq Action] in
theorem callsFor_failed (failed : result action = false) (rest : List Action) :
    callsFor result (performed result (action :: rest)) =
      [.PerformAction action, .ActionCompleted action false, .ProcessingDone false] := by
  simp [callsFor, performed, failed]

omit [DecidableEq Action] in
theorem callsFor_succeeded (succeeded : result action = true) (rest : List Action) :
    callsFor result (performed result (action :: rest)) =
      .PerformAction action :: .ActionCompleted action true ::
        callsFor result (performed result rest) := by
  simp [callsFor, performed, succeeded]

end Calls

section Complete

variable {this : Processor} {result : Action → Bool} {world : World Action Processor}
variable {action : Action} {rest : List Action}

/-- A completion up to what it does with the rest of the queue. -/
theorem Performing.complete (performing : Performing this world action rest)
    (PerformAction : World Action Processor → Action → Option (World Action Processor))
    (success : Bool) : ∃ released : World Action Processor,
      released.delegate_ = true ∧ released.calls = world.calls ++ [.ActionCompleted action success] ∧
      (∀ held ∈ rest, released.processor_ held = some this) ∧
      world.ActionComplete PerformAction action success =
        match if success then rest else [] with
        | [] => some (World.call { released with current_action_ := none, actions_ := [] }
            (.ProcessingDone success))
        | queued :: rest => PerformAction
            { released with current_action_ := some queued, actions_ := rest } queued := by
  have notified : world.notify (.ActionCompleted action success) =
      world.call (.ActionCompleted action success) := by simp [World.notify, performing.delegate]
  have pointer : (world.call (.ActionCompleted action success)).processor_ action ≠ none := by
    simp [World.call, performing.owned action List.mem_cons_self]
  refine ⟨{ world.call (.ActionCompleted action success) with
    processor_ := Function.update world.processor_ action none }, performing.delegate, rfl, ?_, ?_⟩
  rotate_left
  · rw [World.ActionComplete_eq performing.running, notified,
      World.SetProcessor_none.mpr ⟨pointer, rfl⟩, Option.bind_some]
    have sameDelegate : (world.call (.ActionCompleted action success)).delegate_ = true :=
      performing.delegate
    have sameQueue : (world.call (.ActionCompleted action success)).actions_ = rest :=
      performing.queue
    simp only [sameQueue, World.notify, sameDelegate, if_true]
    rfl
  · intro held member
    have distinct := performing.distinct
    rw [List.nodup_cons] at distinct
    have different : held ≠ action := fun same => distinct.1 (same ▸ member)
    simp [different, performing.owned held (List.mem_cons_of_mem _ member)]

end Complete

theorem mainLoop_idle {PerformAction : World Action Processor → Action → Option (World Action Processor)}
    {result : Action → Bool} {turns : ℕ} {world : World Action Processor}
    (idle : world.current_action_ = none) : mainLoop PerformAction result turns world = some world := by
  cases turns with
  | zero => rfl
  | succ turns => rw [mainLoop, idle]

/-- A performed action completes either inside the call or in the next turn of the main loop. -/
private theorem performNested_then {synchronous result : Action → Bool} {depth turns : ℕ}
    {PerformAction : World Action Processor → Action → Option (World Action Processor)}
    {world started : World Action Processor} {action : Action}
    (call : world.call (.PerformAction action) = started)
    (running : started.current_action_ = some action) :
    (World.performNested (synchronously synchronous result) (depth + 1) world action).bind
        (mainLoop PerformAction result (turns + 1)) =
      if synchronous action then
        (started.ActionComplete (World.performNested (synchronously synchronous result) depth) action
          (result action)).bind (mainLoop PerformAction result (turns + 1))
      else
        (started.ActionComplete PerformAction action (result action)).bind
          (mainLoop PerformAction result turns) := by
  simp only [World.performNested, call]
  cases now : synchronous action with
  | true => simp only [synchronously, now, if_true]
  | false =>
    simp only [synchronously, now, Bool.false_eq_true, if_false, Option.bind_some, mainLoop, running,
      Option.bind_eq_bind]

/-- Once an action is performed, its completion and everything after it makes the calls of the
queue, whichever completions are nested and whichever are made by the main loop. -/
theorem Performing.finishes {this : Processor} (synchronous result : Action → Bool) {outer : ℕ}
    {rest : List Action} : ∀ {world : World Action Processor} {action : Action} {depth turns : ℕ}
    {before : List (Call Action)}, Performing this world action rest →
      world.calls = before ++ [.PerformAction action] → rest.length ≤ depth → rest.length ≤ outer →
      rest.length ≤ turns →
      ∃ last, (world.ActionComplete (World.performNested (synchronously synchronous result) depth)
          action (result action)).bind
          (mainLoop (World.performNested (synchronously synchronous result) outer) result turns) =
          some last ∧
        Finished last (before ++ callsFor result (performed result (action :: rest))) := by
  induction rest with
  | nil =>
    intro world action depth turns before performing calls _ _ _
    obtain ⟨released, -, made, -, completed⟩ := performing.complete
      (World.performNested (synchronously synchronous result) depth) (result action)
    rw [completed, ite_self, Option.bind_some]
    refine ⟨_, mainLoop_idle rfl, rfl, rfl, ?_⟩
    cases success : result action <;>
      simp [World.call, made, calls, success, callsFor, performed]
  | cons queued rest ih =>
    intro world action depth turns before performing calls deep outside long
    rw [List.length_cons] at deep outside long
    obtain ⟨released, delegate, made, owned, completed⟩ := performing.complete
      (World.performNested (synchronously synchronous result) depth) (result action)
    cases success : result action with
    | false =>
      rw [success] at completed made
      rw [completed]
      simp only [Bool.false_eq_true, if_false, Option.bind_some]
      refine ⟨_, mainLoop_idle rfl, rfl, rfl, ?_⟩
      rw [callsFor_failed success]
      simp [World.call, made, calls]
    | true =>
      rw [success] at completed made
      obtain ⟨depth, rfl⟩ : ∃ less, depth = less + 1 := ⟨depth - 1, by omega⟩
      obtain ⟨turns, rfl⟩ : ∃ less, turns = less + 1 := ⟨turns - 1, by omega⟩
      obtain ⟨started, startedEq⟩ : ∃ started : World Action Processor, World.call
          { released with current_action_ := some queued, actions_ := rest } (.PerformAction queued) =
          started := ⟨_, rfl⟩
      have next : Performing this started queued rest := by
        rw [← startedEq]
        exact ⟨rfl, rfl, delegate, (List.nodup_cons.mp performing.distinct).2, owned⟩
      have soFar : started.calls = before ++ [.PerformAction action, .ActionCompleted action true] ++
          [.PerformAction queued] := by
        rw [← startedEq]
        simp [World.call, made, calls]
      have regroup : before ++ callsFor result (performed result (action :: queued :: rest)) =
          before ++ [.PerformAction action, .ActionCompleted action true] ++
            callsFor result (performed result (queued :: rest)) := by
        rw [callsFor_succeeded success, List.append_assoc]
        rfl
      rw [completed, regroup]
      simp only [if_true]
      rw [performNested_then startedEq next.running]
      split <;> exact ih next soFar (by omega) (by omega) (by omega)

/-- Enqueueing distinct free actions. -/
theorem enqueue_all (this : Processor) {queue : List Action} :
    ∀ {world : World Action Processor}, queue.Nodup →
      (∀ action ∈ queue, world.processor_ action = none) →
      ∃ next, queue.foldlM (World.EnqueueAction this) world = some next ∧
        next.current_action_ = world.current_action_ ∧ next.actions_ = world.actions_ ++ queue ∧
        next.delegate_ = world.delegate_ ∧ next.calls = world.calls ∧
        ∀ action, next.processor_ action =
          if action ∈ queue then some this else world.processor_ action := by
  induction queue with
  | nil =>
    intro world _ _
    exact ⟨world, rfl, rfl, (List.append_nil _).symm, rfl, rfl, fun action => by simp⟩
  | cons first rest ih =>
    intro world distinct free
    rw [List.nodup_cons] at distinct
    obtain ⟨enqueued, enqueuedEq⟩ : ∃ enqueued, World.EnqueueAction this world first = some enqueued :=
      ⟨_, World.SetProcessor_some.mpr ⟨free first List.mem_cons_self, rfl⟩⟩
    obtain ⟨-, shape⟩ := World.SetProcessor_some.mp enqueuedEq
    have others : ∀ action ∈ rest, enqueued.processor_ action = none := by
      intro action member
      have different : action ≠ first := fun same => distinct.1 (same ▸ member)
      rw [shape]
      simp [different, free action (List.mem_cons_of_mem _ member)]
    obtain ⟨next, nextEq, running, queue, delegate, calls, pointers⟩ := ih distinct.2 others
    refine ⟨next, ?_, ?_, ?_, ?_, ?_, fun action => ?_⟩
    · rw [List.foldlM_cons, enqueuedEq]
      exact nextEq
    · rw [running, shape]
    · rw [queue, shape]
      simp
    · rw [delegate, shape]
    · rw [calls, shape]
    · rw [pointers, shape]
      by_cases same : action = first <;> by_cases later : action ∈ rest <;> simp [same, later]

/-- Processing a queue of distinct actions performs them in order up to the first that fails, tells
the delegate of each completion before the next action is performed, and tells it once at the end
whether all of them succeeded. -/
theorem processQueue_calls {this : Processor} (synchronous result : Action → Bool) {depth turns : ℕ}
    {world : World Action Processor} {queue : List Action} (fresh : Fresh this world)
    (delegate : world.delegate_ = true) (nonempty : queue ≠ []) (distinct : queue.Nodup)
    (free : ∀ action ∈ queue, world.processor_ action = none) (deep : queue.length ≤ depth)
    (long : queue.length ≤ turns) :
    ∃ last, processQueue this synchronous result depth turns world queue = some last ∧
      last.current_action_ = none ∧ last.actions_ = [] ∧
      last.calls = world.calls ++ callsFor result (performed result queue) := by
  obtain ⟨enqueued, enqueuedEq, running, actions, sameDelegate, calls, pointers⟩ :=
    enqueue_all this distinct free
  obtain ⟨first, rest, rfl⟩ := List.exists_cons_of_ne_nil nonempty
  rw [List.length_cons] at deep long
  rw [fresh.idle] at running
  rw [fresh.queue, List.nil_append] at actions
  obtain ⟨depth, rfl⟩ : ∃ less, depth = less + 1 := ⟨depth - 1, by omega⟩
  obtain ⟨turns, rfl⟩ : ∃ less, turns = less + 1 := ⟨turns - 1, by omega⟩
  obtain ⟨started, startedEq⟩ : ∃ started : World Action Processor, World.call
      { enqueued with current_action_ := some first, actions_ := rest } (.PerformAction first) =
      started := ⟨_, rfl⟩
  have performing : Performing this started first rest := by
    rw [← startedEq]
    refine ⟨rfl, rfl, sameDelegate.trans delegate, distinct, fun held member => ?_⟩
    exact (pointers held).trans (if_pos member)
  have soFar : started.calls = world.calls ++ [.PerformAction first] := by
    rw [← startedEq, ← calls]
    rfl
  obtain ⟨last, lastEq, finished⟩ : ∃ last,
      processQueue this synchronous result (depth + 1) (turns + 1) world (first :: rest) = some last ∧
        Finished last (world.calls ++ callsFor result (performed result (first :: rest))) := by
    simp only [processQueue, enqueuedEq, Option.bind_eq_bind, Option.bind_some,
      World.StartProcessing, World.IsRunning, running, actions, Option.isSome_none,
      Bool.false_eq_true, if_false]
    rw [performNested_then startedEq performing.running]
    split <;> exact performing.finishes synchronous result soFar (by omega) (by omega) (by omega)
  exact ⟨last, lastEq, finished.idle, finished.queue, finished.calls⟩

/-- Three actions, the middle one completing later and failing. -/
theorem processQueue_three : ∃ last,
    processQueue () (fun action => action != 2) (fun action => action != 2) 3 3
      { idleWorld with delegate_ := true } [1, 2, 3] = some last ∧
      last.current_action_ = none ∧ last.actions_ = [] ∧
      last.calls = [.PerformAction 1, .ActionCompleted 1 true, .PerformAction 2,
        .ActionCompleted 2 false, .ProcessingDone false] :=
  processQueue_calls (fun action => action != 2) (fun action => action != 2)
    ⟨rfl, rfl, fun _ => by simp [idleWorld]⟩ rfl (by simp) (by decide) (fun _ _ => rfl) le_rfl le_rfl

end ChromiumOS.UpdateEngine.ActionProcessor
