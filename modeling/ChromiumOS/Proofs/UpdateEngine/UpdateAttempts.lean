import ChromiumOS.Model.UpdateEngine.UpdateAttempter
import ChromiumOS.Proofs.UpdateEngine.ActionRuns

/-! # Attempts to update

No action is bonded in front of the postinstall runner, which checks that it has an input object. A run of the program
therefore never comes to the boot flag: an attempt fails, or it ends the program in the check once its download is
complete. A plan for a full update does not come to the download.
-/

namespace ChromiumOS.UpdateEngine

namespace ActionProcessor

variable {Action Processor : Type} [DecidableEq Action] {this : Processor} {rest : List Action} {object next : Action}
variable {processor_ : World Action Processor}

theorem Performing.released (performing : Performing this processor_ object rest) (success : Bool) :
    (processor_.notify (.ActionCompleted object success)).SetProcessor object none =
      some { processor_.call (.ActionCompleted object success) with
        processor_ := Function.update processor_.processor_ object none } := by
  have notified : processor_.notify (.ActionCompleted object success) =
      processor_.call (.ActionCompleted object success) := by simp [World.notify, performing.delegate]
  have owned : processor_.processor_ object = some this := performing.owned object List.mem_cons_self
  rw [notified]
  exact World.SetProcessor_none.mpr ⟨by simp [World.call, owned], rfl⟩

/-- The last completion of a queue, or one without success. -/
theorem Performing.stops (performing : Performing this processor_ object rest)
    (perform : World Action Processor → Action → Option (World Action Processor)) {success : Bool} (stop : success = false ∨ rest = []) :
    ∃ last, processor_.ActionComplete perform object success = some last ∧
      Finished last (processor_.calls ++ [.ActionCompleted object success, .ProcessingDone success]) ∧
      last.delegate_ = true ∧ ∀ other, other ≠ object → last.processor_ other = processor_.processor_ other := by
  have empty : (if success then rest else []) = [] := by
    rcases stop with rfl | rfl
    · rfl
    · exact ite_self _
  have queue : (processor_.call (.ActionCompleted object success)).actions_ = rest := performing.queue
  have delegate : processor_.delegate_ = true := performing.delegate
  rw [World.ActionComplete_eq performing.running, performing.released success, Option.bind_some]
  simp only [queue, empty]
  refine ⟨_, rfl, ⟨?_, ?_, ?_⟩, ?_, ?_⟩
  · exact World.notify_current_action_ _ _
  · exact World.notify_actions_ _ _
  · simp [World.notify, World.call, delegate]
  · simp [World.notify, World.call, delegate]
  · intro other differs
    rw [World.notify_processor_]
    exact Function.update_of_ne differs _ _

/-- The completion of an action that another is queued behind. -/
theorem Performing.continues (performing : Performing this processor_ object (next :: rest))
    (perform : World Action Processor → Action → Option (World Action Processor)) :
    ∃ started, processor_.ActionComplete perform object true = perform started next ∧
      Performing this started next rest ∧ started.calls = processor_.calls ++ [.ActionCompleted object true] ∧
      ∀ other, other ≠ object → started.processor_ other = processor_.processor_ other := by
  have queue : (processor_.call (.ActionCompleted object true)).actions_ = next :: rest := performing.queue
  have distinct := List.nodup_cons.mp performing.distinct
  rw [World.ActionComplete_eq performing.running, performing.released true, Option.bind_some]
  simp only [queue, if_true]
  refine ⟨_, rfl, ⟨rfl, rfl, performing.delegate, distinct.2, ?_⟩, rfl, ?_⟩
  · intro held member
    have differs : held ≠ object := fun same => distinct.1 (same ▸ member)
    exact (Function.update_of_ne differs _ _).trans (performing.owned held (List.mem_cons_of_mem _ member))
  · intro other differs
    exact Function.update_of_ne differs _ _

omit [DecidableEq Action] in
theorem Performing.call (performing : Performing this processor_ object rest) (made : Call Action) :
    Performing this (processor_.call made) object rest :=
  ⟨performing.running, performing.queue, performing.delegate, performing.distinct, performing.owned⟩

end ActionProcessor

namespace UpdateAttempter

open ActionProcessor

variable {Stream : Type} (zlib : Zlib Stream) (hash : List UInt8 → String) (inflateTurns : ℕ)
variable (met : Bool → Surroundings)

/-- The last two actions of the queue. -/
def Late (action : ActionType) : Prop := action = .PostinstallRunnerAction ∨ action = .SetBootableFlagAction

/-- Nothing is activated, and no attempt has been a success. -/
structure Inactive (calls : List (Call ActionObject)) : Prop where
  performed : ∀ object : ActionObject, Late object.2 → .PerformAction object ∉ calls
  done : .ProcessingDone true ∉ calls

/-- A queue that ends with the last two actions, which are not elsewhere in it. -/
def EndsLate (queue : List ActionObject) : Prop :=
  ∃ full front, queue = front ++ [(full, .PostinstallRunnerAction), (full, .SetBootableFlagAction)] ∧
    ∀ object ∈ front, ¬ Late object.2

/-- The state of the processor while the main loop runs. -/
structure Waiting (processor_ : Processor) : Prop where
  inactive : Inactive processor_.calls
  idle : processor_.current_action_ = none → processor_.actions_ = []
  running : ∀ object, processor_.current_action_ = some object → EndsLate processor_.actions_

theorem Inactive.notify {processor_ : Processor} (inactive : Inactive processor_.calls) {made : Call ActionObject}
    (performed : ∀ object, Late object.2 → made ≠ .PerformAction object) (done : made ≠ .ProcessingDone true) :
    Inactive (processor_.notify made).calls := by
  unfold World.notify World.call
  split
  · constructor
    · intro object late member
      rcases List.mem_append.mp member with before | last
      · exact inactive.performed object late before
      · exact performed object late (List.mem_singleton.mp last).symm
    · intro member
      rcases List.mem_append.mp member with before | last
      · exact inactive.done before
      · exact done (List.mem_singleton.mp last).symm
  · exact inactive

/-- The next action of a queue is not one of the last two, or it is the first of them. -/
theorem EndsLate.head {object : ActionObject} {rest : List ActionObject} (ends : EndsLate (object :: rest)) :
    object.2 = .PostinstallRunnerAction ∨ (¬ Late object.2 ∧ EndsLate rest) := by
  obtain ⟨full, front, queue, early⟩ := ends
  cases front with
  | nil =>
    obtain ⟨rfl, _⟩ := List.cons_eq_cons.mp queue
    exact .inl rfl
  | cons first front =>
    obtain ⟨rfl, same⟩ := List.cons_eq_cons.mp queue
    exact .inr ⟨early object (by simp), full, front, same, fun other member => early other (by simp [member])⟩

section Safety

/-- A way to perform the first action of a queue after which the state is as while the main loop runs. -/
def Safe (perform : Processor → ActionObject → Option Processor) : Prop :=
  ∀ processor_ object last, Inactive processor_.calls → processor_.current_action_ = some object →
    EndsLate (object :: processor_.actions_) → perform processor_ object = some last → Waiting last

theorem Safe.ActionComplete {perform : Processor → ActionObject → Option Processor} (safe : Safe perform)
    {processor_ last : Processor} (waiting : Waiting processor_) {object : ActionObject}
    (current : processor_.current_action_ = some object) {success : Bool}
    (completed : processor_.ActionComplete perform object success = some last) : Waiting last := by
  rw [World.ActionComplete_eq current] at completed
  obtain ⟨released, set, completed⟩ := Option.bind_eq_some_iff.mp completed
  obtain ⟨-, rfl⟩ := World.SetProcessor_none.mp set
  have inactive : Inactive (processor_.notify (.ActionCompleted object success)).calls := by
    apply waiting.inactive.notify
    · intro other late same
      cases same
    · intro same
      cases same
  have ends := waiting.running object current
  cases success with
  | false =>
    obtain rfl := Option.some.inj completed
    refine ⟨?_, ?_, ?_⟩
    · apply Inactive.notify
      · exact inactive
      · intro other late same
        cases same
      · intro same
        cases same
    · intro none_
      exact World.notify_actions_ _ _
    · intro other running
      rw [World.notify_current_action_] at running
      cases running
  | true =>
    obtain ⟨full, front, queue, early⟩ := ends
    have queued : ∃ next rest, processor_.actions_ = next :: rest := by
      cases front with
      | nil => exact ⟨_, _, queue⟩
      | cons next front => exact ⟨_, _, queue⟩
    obtain ⟨next, rest, shape⟩ := queued
    rw [if_pos rfl, World.notify_actions_, shape] at completed
    refine safe _ next last ?_ rfl ?_ completed
    · exact inactive
    · rw [← shape]
      exact ⟨full, front, queue, early⟩

theorem safe_PerformAction (depth : ℕ) : Safe (PerformAction zlib hash inflateTurns met depth) := by
  induction depth with
  | zero =>
    intro processor_ object last inactive current ends performed
    cases performed
  | succ depth ih =>
    intro processor_ object last inactive current ends performed
    unfold PerformAction at performed
    split at performed
    · cases performed
    · next checked =>
      rcases ends.head with postinstall | ⟨early, later⟩
      · rw [postinstall] at checked
        exact absurd (by decide) checked
      · have waiting : Waiting (processor_.call (.PerformAction object)) := by
          refine ⟨⟨?_, ?_⟩, ?_, ?_⟩
          · intro other late member
            rcases List.mem_append.mp member with before | last
            · exact inactive.performed other late before
            · cases List.mem_singleton.mp last
              exact early late
          · intro member
            rcases List.mem_append.mp member with before | last
            · exact inactive.done before
            · cases List.mem_singleton.mp last
          · intro none_
            exact absurd (current.symm.trans none_) (by simp)
          · intro other _
            exact later
        dsimp only at performed
        split at performed
        · split at performed
          · cases performed
          · exact ih.ActionComplete waiting current performed
        · obtain rfl := Option.some.inj performed
          exact waiting

theorem g_main_loop_waiting (depth turns : ℕ) {processor_ last : Processor} (waiting : Waiting processor_)
    (ran : g_main_loop zlib hash inflateTurns met depth turns processor_ = some last) : Waiting last := by
  induction turns generalizing processor_ with
  | zero =>
    obtain rfl := Option.some.inj ran
    exact waiting
  | succ turns ih =>
    unfold g_main_loop at ran
    split at ran
    · obtain rfl := Option.some.inj ran
      exact waiting
    · next object current =>
      split at ran
      · cases ran
      · obtain ⟨next, completed, ran⟩ := Option.bind_eq_some_iff.mp ran
        exact ih ((safe_PerformAction zlib hash inflateTurns met depth).ActionComplete waiting current completed) ran

/-- Enqueueing appends to the queue and makes no calls. -/
theorem EnqueueAction_foldlM {queue : List ActionObject} {processor_ last : Processor}
    (enqueued : queue.foldlM (World.EnqueueAction ()) processor_ = some last) :
    last.actions_ = processor_.actions_ ++ queue ∧ last.calls = processor_.calls ∧
      last.current_action_ = processor_.current_action_ := by
  induction queue generalizing processor_ with
  | nil =>
    obtain rfl := Option.some.inj enqueued
    simp
  | cons object queue ih =>
    obtain ⟨next, taken, enqueued⟩ := Option.bind_eq_some_iff.mp enqueued
    obtain ⟨-, rfl⟩ := World.SetProcessor_some.mp taken
    obtain ⟨actions, calls, current⟩ := ih enqueued
    exact ⟨by rw [actions]; simp, calls, current⟩

theorem Update_waiting (depth turns : ℕ) (full_update_ : Bool) {processor_ last : Processor}
    (inactive : Inactive processor_.calls) (empty : processor_.actions_ = [])
    (ran : Update zlib hash inflateTurns met depth turns full_update_ processor_ = some last) : Waiting last := by
  obtain ⟨queued, enqueued, ran⟩ := Option.bind_eq_some_iff.mp ran
  obtain ⟨started, starting, ran⟩ := Option.bind_eq_some_iff.mp ran
  obtain ⟨actions, calls, current⟩ := EnqueueAction_foldlM enqueued
  rw [empty, List.nil_append] at actions
  apply g_main_loop_waiting zlib hash inflateTurns met depth turns _ ran
  unfold World.StartProcessing at starting
  split at starting
  · cases starting
  · rw [actions] at starting
    refine safe_PerformAction zlib hash inflateTurns met depth _ _ started ?_ rfl ?_ starting
    · rw [calls]
      exact inactive
    · refine ⟨full_update_, ((actions_.take 5).map fun action => (full_update_, action)), rfl, ?_⟩
      intro object member
      obtain ⟨action, first, rfl⟩ := List.mem_map.mp member
      have early : ∀ action ∈ actions_.take 5, ¬ (action = .PostinstallRunnerAction ∨ action = .SetBootableFlagAction) := by
        decide
      exact early action first

/-- However long the program has run, nothing has been activated. -/
theorem main_inactive (depth turns : ℕ) {last : Processor} {left : Bool}
    (ran : main zlib hash inflateTurns met depth turns = some (last, left)) : Inactive last.calls := by
  obtain ⟨first, updated, ran⟩ := Option.bind_eq_some_iff.mp ran
  have start : Inactive newProcessor.calls := ⟨fun _ _ => by simp [newProcessor], by simp [newProcessor]⟩
  have waiting := Update_waiting zlib hash inflateTurns met depth turns false start rfl updated
  split at ran
  · cases ran
    exact waiting.inactive
  · next idle =>
    split at ran
    · cases ran
      exact waiting.inactive
    · obtain ⟨second, again, ran⟩ := Option.bind_eq_some_iff.mp ran
      cases ran
      have empty : first.actions_ = [] := by
        apply waiting.idle
        simpa [World.IsRunning] using idle
      exact (Update_waiting zlib hash inflateTurns met depth turns true waiting.inactive empty again).inactive

end Safety

section Outcome

theorem g_main_loop_idle {depth turns : ℕ} {processor_ : Processor} (idle : processor_.current_action_ = none) :
    g_main_loop zlib hash inflateTurns met depth turns processor_ = some processor_ := by
  cases turns with
  | zero => rfl
  | succ turns => rw [g_main_loop, idle]

/-- Whether a performed action ends the program at once. -/
def Blocked (action : ActionType) : Bool := checksInput action && !HasInputObject action

/-- What becomes of a queue: it is done with success or not, or it ends the program. -/
def outcome : List ActionObject → Option Bool
  | [] => some true
  | object :: rest =>
    if Blocked object.2 then none
    else (completion zlib hash inflateTurns met object).bind fun success => if success then outcome rest else some false

def result (object : ActionObject) : Bool := (completion zlib hash inflateTurns met object).getD false

/-- A run that ends the program, or that leaves the processor finished after certain calls. -/
def Ends (before : Processor) (queue : List ActionObject) (calls : List (Call ActionObject)) (ran : Option Processor) :
    Option Bool → Prop
  | none => ran = none
  | some _ => ∃ last, ran = some last ∧ Finished last calls ∧ last.delegate_ = true ∧
      ∀ object, object ∉ queue → last.processor_ object = before.processor_ object

/-- What a run did to the pointers of more actions, and from an earlier state on. -/
theorem Ends.earlier {before started : Processor} {queue more : List ActionObject} {calls : List (Call ActionObject)}
    {ran : Option Processor} {expected : Option Bool} (ends : Ends started queue calls ran expected)
    (inside : queue ⊆ more)
    (pointers : ∀ other, other ∉ more → started.processor_ other = before.processor_ other) :
    Ends before more calls ran expected := by
  cases expected with
  | none => exact ends
  | some done =>
    obtain ⟨last, same, finished, delegate, kept⟩ := ends
    refine ⟨last, same, finished, delegate, fun other outside => ?_⟩
    exact (kept other fun member => outside (inside member)).trans (pointers other outside)

theorem g_main_loop_running {depth turns : ℕ} {processor_ : Processor} {object : ActionObject}
    (running : processor_.current_action_ = some object) :
    g_main_loop zlib hash inflateTurns met depth (turns + 1) processor_ =
      (completion zlib hash inflateTurns met object).bind fun success =>
        (processor_.ActionComplete (PerformAction zlib hash inflateTurns met depth) object success).bind
          (g_main_loop zlib hash inflateTurns met depth turns) := by
  rw [g_main_loop, running]
  dsimp only
  cases completion zlib hash inflateTurns met object with
  | none => rfl
  | some success => rfl

variable {zlib hash inflateTurns met} in
/-- An action that is performed completes at once or later, or it ends the program. -/
theorem PerformAction_then {depth outer turns : ℕ} {started : Processor} {next : ActionObject}
    {queue : List ActionObject} {calls : List (Call ActionObject)} {rest : List ActionObject}
    (running : started.current_action_ = some next)
    (ends : ∀ success depth turns', completion zlib hash inflateTurns met next = some success →
      rest.length ≤ depth → turns ≤ turns' →
      Ends (started.call (.PerformAction next)) queue calls
        (((started.call (.PerformAction next)).ActionComplete (PerformAction zlib hash inflateTurns met depth) next
          success).bind (g_main_loop zlib hash inflateTurns met outer turns'))
        (if success then outcome zlib hash inflateTurns met rest else some false))
    (deep : rest.length ≤ depth) (outside : rest.length ≤ outer) :
    Ends (started.call (.PerformAction next)) queue calls
      ((PerformAction zlib hash inflateTurns met (depth + 1) started next).bind
        (g_main_loop zlib hash inflateTurns met outer (turns + 1)))
      (outcome zlib hash inflateTurns met (next :: rest)) := by
  have current : (started.call (.PerformAction next)).current_action_ = some next := running
  by_cases blocked : Blocked next.2 = true
  · have checked : (checksInput next.2 && !HasInputObject next.2) = true := blocked
    unfold PerformAction outcome
    rw [if_pos checked, if_pos blocked]
    exact rfl
  · have free : ¬ (checksInput next.2 && !HasInputObject next.2) = true := blocked
    unfold PerformAction outcome
    rw [if_neg free, if_neg blocked]
    dsimp only
    split
    · cases completes : completion zlib hash inflateTurns met next with
      | none => exact rfl
      | some success => exact ends success depth (turns + 1) completes deep (by omega)
    · rw [Option.bind_some, g_main_loop_running zlib hash inflateTurns met current]
      cases completes : completion zlib hash inflateTurns met next with
      | none => exact rfl
      | some success => exact ends success outer turns completes outside (le_refl turns)

/-- The completion of an action and everything after it. -/
theorem performing_ends {outer : ℕ} {rest : List ActionObject} : ∀ {processor_ : Processor} {object : ActionObject}
    {depth turns : ℕ} {before : List (Call ActionObject)} {success : Bool}, Performing () processor_ object rest →
      processor_.calls = before ++ [.PerformAction object] → rest.length ≤ depth → rest.length ≤ outer →
      rest.length ≤ turns → completion zlib hash inflateTurns met object = some success →
      Ends processor_ (object :: rest)
        (before ++ callsFor (result zlib hash inflateTurns met)
          (performed (result zlib hash inflateTurns met) (object :: rest)))
        ((processor_.ActionComplete (PerformAction zlib hash inflateTurns met depth) object success).bind
          (g_main_loop zlib hash inflateTurns met outer turns))
        (if success then outcome zlib hash inflateTurns met rest else some false) := by
  induction rest with
  | nil =>
    intro processor_ object depth turns before success performing calls _ _ _ completes
    obtain ⟨last, completed, finished, delegate, pointers⟩ :=
      @Performing.stops _ _ _ _ _ _ _ performing (PerformAction zlib hash inflateTurns met depth) success (.inr rfl)
    have flag : result zlib hash inflateTurns met object = success := by rw [result, completes, Option.getD_some]
    have same : (if success then outcome zlib hash inflateTurns met [] else some false) = some success := by
      cases success <;> rfl
    rw [same, completed, Option.bind_some]
    refine ⟨last, g_main_loop_idle zlib hash inflateTurns met finished.idle, ?_, delegate, fun other outside => ?_⟩
    · have regroup : before ++ callsFor (result zlib hash inflateTurns met)
          (performed (result zlib hash inflateTurns met) [object]) =
          processor_.calls ++ [.ActionCompleted object success, .ProcessingDone success] := by
        rw [calls]
        cases success <;> simp [callsFor, performed, flag]
      rw [regroup]
      exact finished
    · exact pointers other (by simpa using outside)
  | cons next rest ih =>
    intro processor_ object depth turns before success performing calls deep outside long completes
    have flag : result zlib hash inflateTurns met object = success := by rw [result, completes, Option.getD_some]
    cases success with
    | false =>
      obtain ⟨last, completed, finished, delegate, pointers⟩ :=
        @Performing.stops _ _ _ _ _ _ _ performing (PerformAction zlib hash inflateTurns met depth) false (.inl rfl)
      rw [if_neg Bool.false_ne_true, completed, Option.bind_some, callsFor_failed flag]
      refine ⟨last, g_main_loop_idle zlib hash inflateTurns met finished.idle, ?_, delegate, fun other outside => ?_⟩
      · have regroup : before ++ [.PerformAction object, .ActionCompleted object false, .ProcessingDone false] =
            processor_.calls ++ [.ActionCompleted object false, .ProcessingDone false] := by
          rw [calls, List.append_assoc]
          rfl
        rw [regroup]
        exact finished
      · exact pointers other fun same => outside (same ▸ List.mem_cons_self)
    | true =>
      rw [List.length_cons] at deep outside long
      obtain ⟨depth, rfl⟩ : ∃ less, depth = less + 1 := ⟨depth - 1, by omega⟩
      obtain ⟨turns, rfl⟩ : ∃ less, turns = less + 1 := ⟨turns - 1, by omega⟩
      obtain ⟨started, completed, nextPerforming, made, pointers⟩ :=
        performing.continues (PerformAction zlib hash inflateTurns met (depth + 1))
      have soFar : (started.call (.PerformAction next)).calls =
          before ++ [.PerformAction object, .ActionCompleted object true] ++ [.PerformAction next] := by
        simp [World.call, made, calls]
      have regroup : before ++ callsFor (result zlib hash inflateTurns met)
          (performed (result zlib hash inflateTurns met) (object :: next :: rest)) =
          before ++ [.PerformAction object, .ActionCompleted object true] ++
            callsFor (result zlib hash inflateTurns met)
              (performed (result zlib hash inflateTurns met) (next :: rest)) := by
        rw [callsFor_succeeded flag, List.append_assoc]
        rfl
      rw [if_pos rfl, completed, regroup]
      refine Ends.earlier (PerformAction_then nextPerforming.running ?_ (by omega) (by omega))
        (List.subset_cons_self _ _) fun other outside => pointers other fun same => outside (same ▸ List.mem_cons_self)
      intro success depth turns' completesNext deepNext later
      exact ih (nextPerforming.call _) soFar deepNext (by omega) (by omega) completesNext

theorem newProcessor_free (object : ActionObject) : newProcessor.processor_ object = none := rfl

/-- A call of `Update` on an idle processor whose actions are free. -/
theorem Update_ends {depth turns : ℕ} {full_update_ : Bool} {processor_ : Processor} (deep : 7 ≤ depth) (long : 7 ≤ turns)
    (idle : processor_.current_action_ = none) (empty : processor_.actions_ = []) (delegate : processor_.delegate_ = true)
    (free : ∀ action, processor_.processor_ (full_update_, action) = none) :
    Ends processor_ (actions_.map fun action => (full_update_, action))
      (processor_.calls ++ callsFor (result zlib hash inflateTurns met)
        (performed (result zlib hash inflateTurns met) (actions_.map fun action => (full_update_, action))))
      (Update zlib hash inflateTurns met depth turns full_update_ processor_)
      (outcome zlib hash inflateTurns met (actions_.map fun action => (full_update_, action))) := by
  have distinct : (actions_.map fun action => (full_update_, action)).Nodup := by
    cases full_update_ <;> decide
  have unowned : ∀ object ∈ actions_.map fun action => (full_update_, action), processor_.processor_ object = none := by
    intro object member
    obtain ⟨action, -, rfl⟩ := List.mem_map.mp member
    exact free action
  obtain ⟨enqueued, enqueuedEq, running, queue, sameDelegate, calls, pointers⟩ := enqueue_all () distinct unowned
  rw [idle] at running
  rw [empty, List.nil_append] at queue
  obtain ⟨depth, rfl⟩ : ∃ less, depth = less + 1 := ⟨depth - 1, by omega⟩
  obtain ⟨turns, rfl⟩ : ∃ less, turns = less + 1 := ⟨turns - 1, by omega⟩
  obtain ⟨first, rest, split_, short⟩ : ∃ first rest,
      (actions_.map fun action => (full_update_, action)) = first :: rest ∧ rest.length = 6 := ⟨_, _, rfl, rfl⟩
  rw [split_] at distinct queue pointers enqueuedEq ⊢
  obtain ⟨started, startedEq⟩ : ∃ started : Processor,
      { enqueued with current_action_ := some first, actions_ := rest } = started := ⟨_, rfl⟩
  have performing : Performing () started first rest := by
    rw [← startedEq]
    refine ⟨rfl, rfl, sameDelegate.trans delegate, distinct, fun held member => ?_⟩
    exact (pointers held).trans (if_pos member)
  have made : (started.call (.PerformAction first)).calls = processor_.calls ++ [.PerformAction first] := by
    rw [← startedEq, ← calls]
    rfl
  have updated : Update zlib hash inflateTurns met (depth + 1) (turns + 1) full_update_ processor_ =
      (PerformAction zlib hash inflateTurns met (depth + 1) started first).bind
        (g_main_loop zlib hash inflateTurns met (depth + 1) (turns + 1)) := by
    simp only [Update, split_, enqueuedEq, Option.bind_eq_bind, Option.bind_some, World.StartProcessing,
      World.IsRunning, running, Option.isSome_none, queue, ← startedEq]
    rfl
  rw [updated]
  refine Ends.earlier (PerformAction_then performing.running ?_ (by omega) (by omega)) (List.Subset.refl _) ?_
  · intro success inner turns' completes deepFirst later
    exact performing_ends zlib hash inflateTurns met (performing.call _) made (by omega) (by omega) (by omega) completes
  · intro other outside
    have kept : enqueued.processor_ other = processor_.processor_ other := (pointers other).trans (if_neg outside)
    rw [← startedEq]
    exact kept

/-- A call of `Update` that ends the program: the plan is made, and the copier ends the program or lets the download
do so, or the download is complete. -/
structure EndsProgram (met : Surroundings) : Prop where
  machine : met.GetMachineId = true
  planned : met.handled.2.isSome = true
  ends : met.copied = none ∨ (∃ action, met.copied = some action ∧ true ∈ action.completions) ∧
    (met.download zlib hash inflateTurns = none ∨ ∃ action, met.download zlib hash inflateTurns = some (true, action))

/-- The update check has come to the answer that there is no update. -/
structure NoUpdate (met : Surroundings) : Prop where
  machine : met.GetMachineId = true
  answer : ∃ response, met.response = some response ∧ response.update_exists = false

theorem response_of_planned {met : Surroundings} (planned : met.handled.2.isSome = true) : met.response.isSome = true := by
  cases response : met.response with
  | none =>
    have absent : met.handled = (true, none) := by
      rw [Surroundings.handled, response]
      rfl
    rw [absent] at planned
    cases planned
  | some response => rfl

/-- No call of `Update` is a success. -/
theorem outcome_actions (full_update_ : Bool) :
    (EndsProgram zlib hash inflateTurns (met full_update_) ∧
        outcome zlib hash inflateTurns met (actions_.map fun action => (full_update_, action)) = none) ∨
      (¬ EndsProgram zlib hash inflateTurns (met full_update_) ∧
        outcome zlib hash inflateTurns met (actions_.map fun action => (full_update_, action)) = some false) := by
  have blocked : (actions_.map fun action => Blocked action) = [false, false, false, false, false, true, false] := by
    decide
  simp only [actions_, List.map_cons, List.map_nil, List.cons.injEq, and_true] at blocked
  obtain ⟨prep, check, handler, copier, download, postinstall, _⟩ := blocked
  simp only [actions_, List.map_cons, List.map_nil, outcome, prep, check, handler, copier, download, postinstall,
    completion, Surroundings.completion, Bool.false_eq_true, if_false, if_true, Option.bind_some]
  by_cases machine : (met full_update_).GetMachineId = true
  · by_cases planned : (met full_update_).handled.2.isSome = true
    · have response := response_of_planned planned
      simp only [machine, response, planned, if_true]
      cases copied : (met full_update_).copied with
      | none => exact .inl ⟨⟨machine, planned, .inl copied⟩, rfl⟩
      | some action =>
        by_cases success : true ∈ action.completions
        · have contains : action.completions.contains true = true := by simpa using success
          simp only [Option.map_some, contains, if_true, Option.bind_some]
          cases downloaded : (met full_update_).download zlib hash inflateTurns with
          | none => exact .inl ⟨⟨machine, planned, .inr ⟨⟨action, copied, success⟩, .inl downloaded⟩⟩, rfl⟩
          | some pair =>
            rcases pair with ⟨flag, state⟩
            cases flag with
            | true => exact .inl ⟨⟨machine, planned, .inr ⟨⟨action, copied, success⟩, .inr ⟨state, downloaded⟩⟩⟩, rfl⟩
            | false =>
              refine .inr ⟨fun ends => ?_, rfl⟩
              rcases ends.ends with gone | ⟨-, gone | ⟨other, complete⟩⟩
              · rw [copied] at gone
                cases gone
              · rw [downloaded] at gone
                cases gone
              · rw [downloaded] at complete
                cases complete
        · refine .inr ⟨fun ends => ?_, by simp [success]⟩
          rcases ends.ends with gone | ⟨⟨other, same, works⟩, -⟩
          · rw [copied] at gone
            cases gone
          · rw [copied] at same
            exact success (Option.some.inj same ▸ works)
    · refine .inr ⟨fun ends => planned ends.planned, ?_⟩
      simp only [machine, planned, if_true]
      cases (met full_update_).response.isSome <;> rfl
  · exact .inr ⟨fun ends => machine ends.machine, by simp [machine]⟩

theorem mem_callsFor {results : ActionObject → Bool} {objects : List ActionObject} {object : ActionObject} :
    .PerformAction object ∈ callsFor results objects ↔ object ∈ objects := by
  simp [callsFor, eq_comm]

/-- The handler is performed unless an action before it fails. -/
theorem handler_performed (full_update_ : Bool) :
    (full_update_, .OmahaResponseHandlerAction) ∈ performed (result zlib hash inflateTurns met)
        (actions_.map fun action => (full_update_, action)) ↔
      (met full_update_).GetMachineId = true ∧ (met full_update_).response.isSome = true := by
  have prep : result zlib hash inflateTurns met (full_update_, .OmahaRequestPrepAction) =
      (met full_update_).GetMachineId := rfl
  have check : result zlib hash inflateTurns met (full_update_, .UpdateCheckAction) =
      (met full_update_).response.isSome := rfl
  cases machine : (met full_update_).GetMachineId with
  | false => simp [performed, actions_, prep, machine]
  | true =>
    cases response : (met full_update_).response.isSome with
    | false => simp [performed, actions_, prep, machine, check, response]
    | true =>
      cases handler : result zlib hash inflateTurns met (full_update_, .OmahaResponseHandlerAction) <;>
        simp [performed, actions_, prep, machine, check, response, handler]

theorem handled_of_response {met : Surroundings} {response : UpdateCheckResponse} (received : met.response = some response) :
    met.handled.1 = !response.update_exists := by
  rw [Surroundings.handled, received, Option.getD_some, OmahaResponseHandlerAction.PerformAction]
  cases response.update_exists with
  | false => rfl
  | true => cases OmahaResponseHandlerAction.GetInstallDev (Utils.BootDevice met.proc_cmdline) <;> rfl

theorem GotNoUpdateResponse_iff {last : Processor}
    (calls : last.calls = callsFor (result zlib hash inflateTurns met) (performed (result zlib hash inflateTurns met)
      (actions_.map fun action => (false, action)))) :
    GotNoUpdateResponse met false last = true ↔ NoUpdate (met false) := by
  have contained : last.calls.contains (.PerformAction (false, .OmahaResponseHandlerAction)) = true ↔
      (met false).GetMachineId = true ∧ (met false).response.isSome = true := by
    rw [List.contains_iff_mem, calls, mem_callsFor]
    exact handler_performed zlib hash inflateTurns met false
  unfold GotNoUpdateResponse
  rw [Bool.and_eq_true, contained]
  constructor
  · rintro ⟨⟨machine, some_⟩, none_⟩
    obtain ⟨response, received⟩ := Option.isSome_iff_exists.mp some_
    refine ⟨machine, response, received, ?_⟩
    rw [handled_of_response received] at none_
    simpa using none_
  · rintro ⟨machine, response, received, none_⟩
    refine ⟨⟨machine, by rw [received]; rfl⟩, ?_⟩
    rw [handled_of_response received, none_]
    rfl

end Outcome

/-- A plan for a full update is not forwarded by the copier, and what the download opens instead has no name. -/
theorem full_plan_fails {met : Surroundings} {plan : InstallPlan String} (handled : met.handled.2 = some plan)
    (full : plan.is_full_update = true) (unnamed : (met.replies "").fd < 0) :
    ¬ EndsProgram zlib hash inflateTurns met := by
  have input : met.copierSteps.in_pipe_ = some plan := by
    rw [Surroundings.copierSteps, handled]
    rfl
  have copied : met.copied = some ((FilesystemCopierAction.new met.copierSteps).ActionComplete true) := by
    have forced : met.copierSteps.is_full_update = true := by
      rw [CopierSteps.is_full_update, CopierSteps.install_plan_, input]
      exact full
    have has : met.copierSteps.hasInputObject = true := by rw [CopierSteps.hasInputObject, input]; rfl
    simp [Surroundings.copied, FilesystemCopierAction.run, FilesystemCopierAction.beforeThread, has, forced]
  have empty : met.downloadPlan = .empty := by
    rw [Surroundings.downloadPlan, copied]
    rfl
  have downloaded : ∃ state, met.download zlib hash inflateTurns = some (false, state) := by
    have negative : ¬ (0 : ℤ) ≤ -((met.replies "").errno : ℤ) := by
      have positive := (met.replies "").errno.pos
      omega
    simp only [Surroundings.download, Surroundings.downloadReplies, empty, DownloadAction.download,
      DownloadAction.PerformAction, InstallPlan.empty, FileWriter.Open, DirectFileWriter.Open]
    simp [unnamed]
  intro ends
  obtain ⟨state, failed⟩ := downloaded
  rcases ends.ends with gone | ⟨-, gone | ⟨other, complete⟩⟩
  · rw [copied] at gone
    cases gone
  · rw [failed] at gone
    cases gone
  · rw [failed] at complete
    cases complete

/-- However long the program runs, neither the postinstall script nor the boot flag is come to. Run to its end, the
program leaves its main loop after one or two failed attempts, or an attempt ends it; it does not try again if there is
no update. A full update does not end it if the empty path cannot be opened. -/
theorem update_never_activates :
    (∀ depth turns last left, main zlib hash inflateTurns met depth turns = some (last, left) →
      ∀ object : ActionObject, Late object.2 → .PerformAction object ∉ last.calls) ∧
    (∀ depth turns, 7 ≤ depth → 7 ≤ turns →
      (main zlib hash inflateTurns met depth turns = none ↔
        EndsProgram zlib hash inflateTurns (met false) ∨
          ¬ NoUpdate (met false) ∧ EndsProgram zlib hash inflateTurns (met true)) ∧
      ∀ last left, main zlib hash inflateTurns met depth turns = some (last, left) → left = true) ∧
    ∀ full_update_ plan, (met full_update_).handled.2 = some plan → plan.is_full_update = true →
      ((met full_update_).replies "").fd < 0 → ¬ EndsProgram zlib hash inflateTurns (met full_update_) := by
  refine ⟨fun depth turns last left ran => (main_inactive zlib hash inflateTurns met depth turns ran).performed, ?_,
    fun full_update_ plan => full_plan_fails zlib hash inflateTurns⟩
  intro depth turns deep long
  have start : Inactive newProcessor.calls := ⟨fun _ _ => by simp [newProcessor], by simp [newProcessor]⟩
  have firstEnds : Ends newProcessor _ _ (Update zlib hash inflateTurns met depth turns false newProcessor) _ :=
    Update_ends zlib hash inflateTurns met deep long rfl rfl rfl fun action => rfl
  rcases outcome_actions zlib hash inflateTurns met false with ⟨ends, gone⟩ | ⟨goesOn, failed⟩
  · rw [gone] at firstEnds
    have none_ : main zlib hash inflateTurns met depth turns = none := by
      unfold main
      rw [firstEnds]
      rfl
    rw [none_]
    exact ⟨⟨fun _ => .inl ends, fun _ => rfl⟩, fun last left impossible => (by cases impossible)⟩
  · rw [failed] at firstEnds
    obtain ⟨first, updated, finished, delegate, pointers⟩ := firstEnds
    have inactive := (Update_waiting zlib hash inflateTurns met depth turns false start rfl updated).inactive
    have idle : first.IsRunning = false := by rw [World.IsRunning, finished.idle]; rfl
    have notDone : first.calls.contains (.ProcessingDone true) = false := by
      rw [← Bool.not_eq_true, List.contains_iff_mem]
      exact inactive.done
    have answer : GotNoUpdateResponse met false first = true ↔ NoUpdate (met false) := by
      apply GotNoUpdateResponse_iff zlib hash inflateTurns met
      rw [finished.calls]
      rfl
    have continued : main zlib hash inflateTurns met depth turns =
        if GotNoUpdateResponse met false first then some (first, true)
        else (Update zlib hash inflateTurns met depth turns true first).bind
          fun second => some (second, !second.IsRunning) := by
      unfold main
      rw [updated]
      simp only [Option.bind_eq_bind, Option.bind_some, idle, Bool.false_eq_true, if_false, notDone, Bool.or_false]
    rw [continued]
    by_cases noUpdate : NoUpdate (met false)
    · rw [if_pos (answer.mpr noUpdate)]
      refine ⟨⟨fun impossible => (by cases impossible), ?_⟩, ?_⟩
      · rintro (ends | ⟨update, -⟩)
        · exact absurd ends goesOn
        · exact absurd noUpdate update
      · intro last left same
        cases same
        rfl
    · rw [if_neg fun got => noUpdate (answer.mp got)]
      have free : ∀ action, first.processor_ (true, action) = none := by
        intro action
        apply pointers
        intro member
        obtain ⟨other, -, same⟩ := List.mem_map.mp member
        cases same
      have secondEnds := Update_ends zlib hash inflateTurns met deep long finished.idle finished.queue delegate free
      rcases outcome_actions zlib hash inflateTurns met true with ⟨ends, gone⟩ | ⟨again, failedAgain⟩
      · rw [gone] at secondEnds
        have none_ : Update zlib hash inflateTurns met depth turns true first = none := secondEnds
        rw [none_]
        exact ⟨⟨fun _ => .inr ⟨noUpdate, ends⟩, fun _ => rfl⟩, fun last left impossible => (by cases impossible)⟩
      · rw [failedAgain] at secondEnds
        obtain ⟨second, updatedAgain, finishedAgain, -⟩ := secondEnds
        rw [updatedAgain, Option.bind_some]
        refine ⟨⟨fun impossible => (by cases impossible), ?_⟩, ?_⟩
        · rintro (ends | ⟨-, ends⟩)
          · exact absurd ends goesOn
          · exact absurd ends again
        · intro last left same
          cases same
          rw [World.IsRunning, finishedAgain.idle]
          rfl

end UpdateAttempter

namespace OmahaResponseHandlerAction

/-- The other number of a pair. -/
def paired (number : ℕ) : ℕ := if number % 2 = 1 then number + 1 else number - 1

theorem paired_paired {number : ℕ} (positive : 0 < number) : paired (paired number) = number := by
  unfold paired
  split <;> split <;> omega

theorem GetInstallDev_eq_some {boot_dev install_dev : List Char} :
    GetInstallDev boot_dev = some install_dev ↔
      ∃ stem digit, boot_dev = stem ++ [digit] ∧ '0'.toNat ≤ digit.toNat ∧ digit.toNat ≤ '9'.toNat ∧
        install_dev = stem ++ [Char.ofNat (paired digit.toNat)] := by
  induction boot_dev using List.reverseRecOn with
  | nil => simp [GetInstallDev]
  | append_singleton stem digit =>
    have range : ('0' ≤ digit ∧ digit ≤ '9') ↔ '0'.toNat ≤ digit.toNat ∧ digit.toNat ≤ '9'.toNat := Iff.rfl
    simp only [GetInstallDev, List.getLast?_append, List.getLast?_singleton, Option.some_or, List.dropLast_concat, range]
    constructor
    · intro found
      split at found
      · next inside => exact ⟨stem, digit, rfl, inside.1, inside.2, (Option.some.inj found).symm⟩
      · cases found
    · rintro ⟨other, last, same, lower, upper, rfl⟩
      obtain ⟨rfl, ends⟩ := List.append_inj' same rfl
      obtain rfl := List.singleton_inj.mp ends
      rw [if_pos ⟨lower, upper⟩]
      rfl

theorem toNat_paired {digit : Char} (lower : '0'.toNat ≤ digit.toNat) (upper : digit.toNat ≤ '9'.toNat) :
    (Char.ofNat (paired digit.toNat)).toNat = paired digit.toNat := by
  have small : '0'.toNat = 48 ∧ '9'.toNat = 57 := by decide
  have valid : (paired digit.toNat).isValidChar := by
    left
    unfold paired
    split <;> omega
  rw [Char.toNat_ofNat, if_pos valid]

/-- The other device is never the one that was booted. A system that is installed on it installs on the first one in
turn, except if the number is zero or nine, which have no other in their pair. -/
theorem install_device_pairs {boot_dev install_dev : List Char} (found : GetInstallDev boot_dev = some install_dev) :
    install_dev ≠ boot_dev ∧ install_dev.dropLast = boot_dev.dropLast ∧
      (GetInstallDev install_dev = some boot_dev ↔ boot_dev.getLast? ≠ some '0' ∧ boot_dev.getLast? ≠ some '9') := by
  obtain ⟨stem, digit, rfl, lower, upper, rfl⟩ := GetInstallDev_eq_some.mp found
  have value := toNat_paired lower upper
  have zero : '0'.toNat = 48 := rfl
  have nine : '9'.toNat = 57 := rfl
  have same (other : Char) : digit = other ↔ digit.toNat = other.toNat := Char.toNat_inj.symm
  have ends : (stem ++ [digit]).getLast? = some digit := List.getLast?_concat
  refine ⟨?_, by simp, ?_⟩
  · intro equal
    obtain ⟨-, last⟩ := List.append_inj' equal rfl
    have numbers := congrArg Char.toNat (List.singleton_inj.mp last)
    rw [value, paired] at numbers
    split at numbers <;> omega
  · rw [ends, Ne, Ne, Option.some.injEq, Option.some.injEq, same '0', same '9', zero, nine, GetInstallDev_eq_some]
    constructor
    · rintro ⟨other, last, swapped, lowerLast, upperLast, _⟩
      obtain ⟨-, lasts⟩ := List.append_inj' swapped rfl
      have numbers := congrArg Char.toNat (List.singleton_inj.mp lasts)
      rw [value, paired] at numbers
      split at numbers <;> omega
    · rintro ⟨notZero, notNine⟩
      refine ⟨stem, Char.ofNat (paired digit.toNat), rfl, ?_, ?_, ?_⟩
      · rw [value, paired]
        split <;> omega
      · rw [value, paired]
        split <;> omega
      · rw [value, paired_paired (by omega), Char.ofNat_toNat]

theorem install_device_pairs_sda3 :
    "/dev/sda4".toList ≠ "/dev/sda3".toList ∧ "/dev/sda4".toList.dropLast = "/dev/sda3".toList.dropLast ∧
      (GetInstallDev "/dev/sda4".toList = some "/dev/sda3".toList ↔
        "/dev/sda3".toList.getLast? ≠ some '0' ∧ "/dev/sda3".toList.getLast? ≠ some '9') :=
  install_device_pairs (by decide +kernel)

end OmahaResponseHandlerAction

end ChromiumOS.UpdateEngine
