import Mathlib

/-! # Runs of a partial machine

A machine takes a state and an operation to the next state or aborts. A run folds a list of
operations; an invariant of a run is a statement about every state it passes through, and so is a
condition on the states in which its operations are applied.
-/

namespace ChromiumOS.PartialRun

variable {State Operation : Type*} (step : State → Operation → Option State)

/-- The state after a list of operations, if none of them aborts. -/
def run (start : State) (operations : List Operation) : Option State := operations.foldlM step start

@[simp] theorem run_nil (start : State) : run step start [] = some start := rfl

theorem run_cons (start : State) (operation : Operation) (rest : List Operation) :
    run step start (operation :: rest) = (step start operation).bind fun next => run step next rest :=
  List.foldlM_cons

theorem run_append (start : State) (first second : List Operation) :
    run step start (first ++ second) =
      (run step start first).bind fun middle => run step middle second :=
  List.foldlM_append

/-- A statement about every state that a run passes through. -/
def Always (property : State → Prop) (start : State) (operations : List Operation) : Prop :=
  ∀ past, past <+: operations → ∀ state, run step start past = some state → property state

/-- A condition on every operation of a run and the state it is applied in. -/
def Throughout (condition : State → Operation → Prop) (start : State)
    (operations : List Operation) : Prop :=
  ∀ past operation, past ++ [operation] <+: operations →
    ∀ state, run step start past = some state → condition state operation

variable {step}

theorem always_nil {property : State → Prop} {start : State} :
    Always step property start [] ↔ property start := by
  constructor
  · intro always
    exact always [] List.nil_prefix start rfl
  · intro holds past before state reached
    rw [List.prefix_nil.mp before, run_nil, Option.some.injEq] at reached
    exact reached ▸ holds

theorem always_cons {property : State → Prop} {start : State} {operation : Operation}
    {rest : List Operation} :
    Always step property start (operation :: rest) ↔
      property start ∧ ∀ next, step start operation = some next → Always step property next rest := by
  constructor
  · intro always
    refine ⟨always [] List.nil_prefix start rfl, fun next taken past before state reached => ?_⟩
    refine always (operation :: past) (List.cons_prefix_cons.mpr ⟨rfl, before⟩) state ?_
    rw [run_cons, taken, Option.bind_some, reached]
  · rintro ⟨holds, later⟩ past before state reached
    cases past with
    | nil =>
      rw [run_nil, Option.some.injEq] at reached
      exact reached ▸ holds
    | cons first past =>
      obtain ⟨rfl, inside⟩ := List.cons_prefix_cons.mp before
      rw [run_cons] at reached
      obtain ⟨next, taken, reached⟩ := Option.bind_eq_some_iff.mp reached
      exact later next taken past inside state reached

theorem throughout_nil {condition : State → Operation → Prop} {start : State} :
    Throughout step condition start [] := by
  intro past operation before
  exact absurd (List.prefix_nil.mp before) (by simp)

theorem throughout_cons {condition : State → Operation → Prop} {start : State}
    {operation : Operation} {rest : List Operation} :
    Throughout step condition start (operation :: rest) ↔ condition start operation ∧
      ∀ next, step start operation = some next → Throughout step condition next rest := by
  constructor
  · intro throughout
    refine ⟨throughout [] operation (by simp) start rfl, ?_⟩
    intro next taken past last before state reached
    refine throughout (operation :: past) last (List.cons_prefix_cons.mpr ⟨rfl, before⟩) state ?_
    rw [run_cons, taken, Option.bind_some, reached]
  · rintro ⟨holds, later⟩ past last before state reached
    cases past with
    | nil =>
      rw [run_nil, Option.some.injEq] at reached
      obtain ⟨rfl, -⟩ := List.cons_prefix_cons.mp before
      exact reached ▸ holds
    | cons first past =>
      obtain ⟨rfl, inside⟩ := List.cons_prefix_cons.mp before
      rw [run_cons] at reached
      obtain ⟨next, taken, reached⟩ := Option.bind_eq_some_iff.mp reached
      exact later next taken past last inside state reached

/-- What every step under a condition preserves holds along a run that meets the condition. -/
theorem always_of_throughout {property : State → Prop} {condition : State → Operation → Prop}
    {start : State} (holds : property start)
    (preserved : ∀ state operation next, property state → condition state operation →
      step state operation = some next → property next)
    {operations : List Operation} (throughout : Throughout step condition start operations) :
    Always step property start operations := by
  induction operations generalizing start with
  | nil => exact always_nil.mpr holds
  | cons operation rest ih =>
    obtain ⟨met, later⟩ := throughout_cons.mp throughout
    refine always_cons.mpr ⟨holds, fun next taken => ?_⟩
    exact ih (preserved start operation next holds met taken) (later next taken)

/-- What every step preserves holds along a run. -/
theorem always_of_preserved {property : State → Prop} {start : State} (holds : property start)
    (preserved : ∀ state operation next, property state → step state operation = some next → property next)
    (operations : List Operation) : Always step property start operations :=
  always_of_throughout holds (fun state operation next known (_ : True) => preserved state operation next known)
    fun _ _ _ _ _ => trivial

/-- Let an invariant be preserved by every step under the condition, and every step outside of it break the
property. Then the property holds along a run, in which what is given holds throughout, exactly when the condition
does. -/
theorem always_iff_throughout_of (invariant : State → Prop) {property : State → Prop}
    {given condition : State → Operation → Prop} (implied : ∀ state, invariant state → property state)
    (preserved : ∀ state operation next, invariant state → given state operation → condition state operation →
      step state operation = some next → invariant next)
    (broken : ∀ state operation, invariant state → ¬ condition state operation →
      ∃ next, step state operation = some next ∧ ¬ property next)
    {start : State} (holds : invariant start) {operations : List Operation}
    (throughout : Throughout step given start operations) :
    Always step property start operations ↔ Throughout step condition start operations := by
  induction operations generalizing start with
  | nil => exact iff_of_true (always_nil.mpr (implied start holds)) throughout_nil
  | cons operation rest ih =>
    obtain ⟨known, after⟩ := throughout_cons.mp throughout
    rw [always_cons, throughout_cons]
    constructor
    · rintro ⟨-, later⟩
      have met : condition start operation := by
        by_contra unmet
        obtain ⟨next, taken, wrong⟩ := broken start operation holds unmet
        exact wrong (later next taken [] List.nil_prefix next rfl)
      refine ⟨met, fun next taken => ?_⟩
      exact (ih (preserved start operation next holds known met taken) (after next taken)).mp (later next taken)
    · rintro ⟨met, later⟩
      refine ⟨implied start holds, fun next taken => ?_⟩
      exact (ih (preserved start operation next holds known met taken) (after next taken)).mpr (later next taken)

/-- An invariant that every step under the condition preserves, and that every step outside of it
breaks visibly, holds along a run exactly when the condition does. -/
theorem always_iff_throughout (invariant : State → Prop) {property : State → Prop}
    {condition : State → Operation → Prop} (implied : ∀ state, invariant state → property state)
    (preserved : ∀ state operation next, invariant state → condition state operation →
      step state operation = some next → invariant next)
    (broken : ∀ state operation, invariant state → ¬ condition state operation →
      ∃ next, step state operation = some next ∧ ¬ property next)
    {start : State} (holds : invariant start) (operations : List Operation) :
    Always step property start operations ↔ Throughout step condition start operations :=
  always_iff_throughout_of invariant implied
    (fun state operation next known (_ : True) => preserved state operation next known) broken holds
    fun _ _ _ _ _ => trivial

/-- A machine that keeps an invariant and moves on under the condition completes every run that meets
the condition. -/
theorem completes_of_throughout (invariant : State → Prop) {condition : State → Operation → Prop}
    (preserved : ∀ state operation, invariant state → condition state operation →
      ∃ next, step state operation = some next ∧ invariant next)
    {start : State} (holds : invariant start) {operations : List Operation}
    (throughout : Throughout step condition start operations) :
    ∃ last, run step start operations = some last := by
  induction operations generalizing start with
  | nil => exact ⟨start, rfl⟩
  | cons operation rest ih =>
    obtain ⟨met, later⟩ := throughout_cons.mp throughout
    obtain ⟨next, taken, kept⟩ := preserved start operation holds met
    obtain ⟨last, reached⟩ := ih kept (later next taken)
    exact ⟨last, by rw [run_cons, taken, Option.bind_some, reached]⟩

/-- If it also aborts outside of the condition, it completes exactly the runs that meet it. -/
theorem completes_iff_throughout (invariant : State → Prop) {condition : State → Operation → Prop}
    (preserved : ∀ state operation, invariant state → condition state operation →
      ∃ next, step state operation = some next ∧ invariant next)
    (aborts : ∀ state operation, invariant state → ¬ condition state operation →
      step state operation = none)
    {start : State} (holds : invariant start) (operations : List Operation) :
    (∃ last, run step start operations = some last) ↔
      Throughout step condition start operations := by
  constructor
  · intro completes
    induction operations generalizing start with
    | nil => exact throughout_nil
    | cons operation rest ih =>
      have met : condition start operation := by
        by_contra unmet
        rw [run_cons, aborts start operation holds unmet, Option.bind_none] at completes
        exact nomatch completes
      obtain ⟨next, taken, kept⟩ := preserved start operation holds met
      rw [run_cons, taken, Option.bind_some] at completes
      refine throughout_cons.mpr ⟨met, fun other same => ?_⟩
      cases taken.symm.trans same
      exact ih kept completes
  · exact completes_of_throughout invariant preserved holds

/-- A run relates its ends by any preorder that its steps respect, and so it does with the state in which an
operation of it is applied. -/
theorem run_relates {related : State → State → Prop} (refl : ∀ state, related state state)
    (trans : ∀ first second third, related first second → related second third → related first third)
    (respects : ∀ state operation next, step state operation = some next → related state next)
    {start last : State} {operations : List Operation} (done : run step start operations = some last) :
    related start last ∧ ∀ operation ∈ operations, ∃ state next, related start state ∧
      step state operation = some next := by
  induction operations generalizing start with
  | nil =>
    rw [run_nil, Option.some.injEq] at done
    exact ⟨done ▸ refl start, fun _ member => nomatch member⟩
  | cons operation rest ih =>
    rw [run_cons] at done
    obtain ⟨next, taken, done⟩ := Option.bind_eq_some_iff.mp done
    obtain ⟨ends, inside⟩ := ih done
    have first := respects start operation next taken
    refine ⟨trans _ _ _ first ends, fun other member => ?_⟩
    rcases List.mem_cons.mp member with rfl | later
    · exact ⟨start, next, refl start, taken⟩
    · obtain ⟨state, after, before, applied⟩ := inside other later
      exact ⟨state, after, trans _ _ _ first before, applied⟩

end ChromiumOS.PartialRun
