import ChromiumOS.Proofs.UpdateEngine.FilesystemCopy

/-! # The plan in the copier's output pipe

The copier stores its plan where a marker is found and at the end of the thread. The exit for a full
update reports success with the pipe as it was made.
-/

namespace ChromiumOS.UpdateEngine.FilesystemCopierAction

variable (tree : SourceTree) (steps : CopierSteps)

/-- Whenever the action completes with success, the next action finds the plan in the pipe. -/
def ForwardsPlan : Prop :=
  ∀ last, run tree steps = some last → true ∈ last.completions → last.out_pipe_ = steps.in_pipe_

variable {tree steps} {action last : FilesystemCopierAction} {works success : Bool}

theorem Mount_out_pipe_ (mounted : action.Mount works = some (success, last)) :
    last.out_pipe_ = action.out_pipe_ := by
  rw [Mount] at mounted
  split at mounted
  · cases mounted
  · cases mounted
    rfl

theorem Unmount_out_pipe_ (unmounted : action.Unmount works = some (success, last)) :
    last.out_pipe_ = action.out_pipe_ := by
  rw [Unmount] at unmounted
  split at unmounted
  · cases unmounted
    rfl
  · cases unmounted

theorem formatAndCopy_out_pipe_ (copied : action.formatAndCopy tree steps = some (success, last)) :
    last.out_pipe_ = action.out_pipe_ := by
  rw [formatAndCopy] at copied
  split at copied
  · simp only [copyMounted, Option.bind_eq_bind, Option.bind_eq_some_iff] at copied
    obtain ⟨⟨mounted, between⟩, mount, copied⟩ := copied
    have kept := Mount_out_pipe_ mount
    dsimp only at copied
    split at copied
    · obtain ⟨outcome, -, copied⟩ := Option.bind_eq_some_iff.mp copied
      cases copied
      exact kept
    · cases copied
      exact kept
  · cases copied
    rfl

/-- The thread stores the plan whether or not the copy worked. -/
theorem HelperThreadMain_out_pipe_ (bonded : action.out_pipe_.isSome = true)
    (ran : action.HelperThreadMain tree steps = some (success, last)) :
    last.out_pipe_ = some steps.install_plan_ := by
  simp only [HelperThreadMain, Option.bind_eq_bind, Option.bind_eq_some_iff] at ran
  obtain ⟨⟨copied, between⟩, copy, ⟨unmounted, after⟩, unmount, ran⟩ := ran
  cases ran
  have kept : after.out_pipe_ = action.out_pipe_ :=
    (Unmount_out_pipe_ unmount).trans (formatAndCopy_out_pipe_ copy)
  obtain ⟨contents, holds⟩ := Option.isSome_iff_exists.mp bonded
  rw [SetOutputObject, kept, holds, Option.map_some]

/-- For a delta update, what is reported before the thread is a failure, or a copy made before. -/
theorem beforeThread_out_pipe_ (delta : steps.is_full_update = false)
    (bonded : action.out_pipe_.isSome = true) (fresh : action.completions = []) {spawned : Bool}
    (began : beforeThread steps action = some (spawned, last)) :
    last.out_pipe_.isSome = true ∧
      (true ∈ last.completions → last.out_pipe_ = some steps.install_plan_) := by
  obtain ⟨contents, holds⟩ := Option.isSome_iff_exists.mp bonded
  rw [beforeThread, delta] at began
  cases hasInput : steps.hasInputObject with
  | false =>
    rw [hasInput] at began
    cases began
    exact ⟨bonded, by simp [ActionComplete, fresh]⟩
  | true =>
    cases mounted : action.is_mounted_ <;> cases probe : steps.probeMount <;>
      cases unmount : steps.probeUnmount <;> cases marked : steps.markerExists <;>
      simp [hasInput, Mount, mounted, probe, Unmount, unmount, marked, ActionComplete,
        SetOutputObject] at began <;>
      obtain ⟨-, rfl⟩ := began <;> simp [fresh, holds]

theorem new_out_pipe_ (bonded : steps.hasOutputPipe = true) :
    (new steps).out_pipe_ = some InstallPlan.empty := by
  rw [new, if_pos bonded]

/-- The plan is forwarded unless the update is a full one. -/
theorem forwards_plan_iff {plan : InstallPlan String} (input : steps.in_pipe_ = some plan)
    (bonded : steps.hasOutputPipe = true) :
    ForwardsPlan tree steps ↔ plan.is_full_update = false := by
  have made := new_out_pipe_ bonded
  have works : steps.install_plan_ = plan := by rw [CopierSteps.install_plan_, input, Option.getD_some]
  constructor
  · intro forwards
    by_contra notDelta
    have full : steps.is_full_update = true := by
      rw [CopierSteps.is_full_update, works]
      exact Bool.eq_true_of_not_eq_false notDelta
    have ran : run tree steps = some ((new steps).ActionComplete true) := by
      simp [run, beforeThread, CopierSteps.hasInputObject, input, full]
    have stored := forwards _ ran (by simp [ActionComplete])
    rw [input, ActionComplete, made, Option.some.injEq] at stored
    rw [← stored] at notDelta
    exact notDelta rfl
  · intro delta last ran completed
    rw [← works] at delta
    rw [input, ← works]
    rw [run, Option.bind_eq_bind, Option.bind_eq_some_iff] at ran
    obtain ⟨⟨spawned, action⟩, began, ran⟩ := ran
    obtain ⟨still, stored⟩ := beforeThread_out_pipe_ delta (by rw [made, Option.isSome_some]) rfl began
    cases spawned with
    | false =>
      cases ran
      exact stored completed
    | true =>
      obtain ⟨⟨success, finished⟩, thread, collected⟩ := Option.bind_eq_some_iff.mp ran
      have forwarded := HelperThreadMain_out_pipe_ still thread
      dsimp only [CollectThread] at collected
      split at collected
      · cases collected
      · cases collected
        exact forwarded

theorem forwards_plan_calmSteps :
    ForwardsPlan smallTree calmSteps ∧
      (run smallTree calmSteps).map (fun last => (last.completions, last.out_pipe_)) =
        some ([true], calmSteps.in_pipe_) :=
  ⟨(forwards_plan_iff rfl rfl).mpr rfl, by decide +kernel⟩

def fullPlan : InstallPlan String where
  is_full_update := true
  download_url := "http://127.0.0.1:8080/full.gz"
  download_hash := "iuILlJGnEBvYTPvROrrbHFeIyn0="
  install_path := "/dev/sda3"

/-- The same steps with a plan for a full update. -/
def fullSteps : CopierSteps := { calmSteps with in_pipe_ := some fullPlan }

/-- The full update is reported as done, and the next action finds the empty plan. -/
theorem full_plan_not_forwarded :
    ¬ ForwardsPlan smallTree fullSteps ∧
      run smallTree fullSteps = some ((new fullSteps).ActionComplete true) ∧
      ((new fullSteps).ActionComplete true).out_pipe_ = some .empty := by
  have ran : run smallTree fullSteps = some ((new fullSteps).ActionComplete true) := rfl
  refine ⟨?_, ran, rfl⟩
  intro forwards
  have stored := forwards _ ran (by simp [ActionComplete])
  exact absurd stored (by decide)

end ChromiumOS.UpdateEngine.FilesystemCopierAction
