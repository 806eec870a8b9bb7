import ChromiumOS.Proofs.WindowManager.KeyIndexes

/-! # Traces of key actions

An action runs from the press of one of its combinations to the release of one of its keys. While its
closures have run whole cycles, from the begin closure over repeats to the end closure, it is not running;
in the middle of a cycle it is.
-/

namespace ChromiumOS.WindowManager.KeyBindings

open PartialRun

section Words

/-- A whole cycle with some repeats. -/
def cycle (repeats : ℕ) : List Closure :=
  .begin_closure :: List.replicate repeats .repeat_closure ++ [.end_closure]

/-- Whole cycles. -/
def Closed (word : List Closure) : Prop := ∃ cycles : List ℕ, word = cycles.flatMap cycle

/-- Whole cycles and one that has begun. -/
def Begun (word : List Closure) : Prop := ∃ (cycles : List ℕ) (repeats : ℕ),
  word = cycles.flatMap cycle ++ .begin_closure :: List.replicate repeats .repeat_closure

theorem closed_nil : Closed [] := ⟨[], rfl⟩

theorem Closed.begun {word : List Closure} (closed : Closed word) : Begun (word ++ [.begin_closure]) := by
  obtain ⟨cycles, rfl⟩ := closed
  exact ⟨cycles, 0, rfl⟩

theorem Begun.repeated {word : List Closure} (begun : Begun word) : Begun (word ++ [.repeat_closure]) := by
  obtain ⟨cycles, repeats, rfl⟩ := begun
  refine ⟨cycles, repeats + 1, ?_⟩
  rw [List.append_assoc, List.cons_append, List.replicate_succ']

theorem Begun.closed {word : List Closure} (begun : Begun word) : Closed (word ++ [.end_closure]) := by
  obtain ⟨cycles, repeats, rfl⟩ := begun
  refine ⟨cycles ++ [repeats], ?_⟩
  rw [List.flatMap_append, List.flatMap_singleton, cycle, List.append_assoc]

theorem Closed.isPrefix {word : List Closure} (closed : Closed word) :
    ∃ cycles : List ℕ, word <+: cycles.flatMap cycle := by
  obtain ⟨cycles, rfl⟩ := closed
  exact ⟨cycles, List.prefix_rfl⟩

theorem Begun.isPrefix {word : List Closure} (begun : Begun word) :
    ∃ cycles : List ℕ, word <+: cycles.flatMap cycle := by
  obtain ⟨cycles, same⟩ := begun.closed
  exact ⟨cycles, same ▸ List.prefix_append _ _⟩

/-- The word has begun a cycle when it does not end with an end closure. -/
theorem Closed.getLast_ne {word : List Closure} (closed : Closed word) {last : Closure}
    (ends : word.getLast? = some last) : last = .end_closure := by
  obtain ⟨cycles, rfl⟩ := closed
  rcases List.eq_nil_or_concat' cycles with rfl | ⟨front, repeats, rfl⟩
  · cases ends
  · rw [List.flatMap_append, List.flatMap_singleton, cycle, ← List.append_assoc, List.getLast?_concat] at ends
    exact (Option.some.inj ends).symm

end Words

/-- The closures of an action among those that were run. -/
def closuresOf (name : String) (ran : List ClosureRun) : List Closure :=
  (ran.filter fun run => run.action_name = name).map ClosureRun.closure

@[simp] theorem closuresOf_nil (name : String) : closuresOf name [] = [] := rfl

@[simp] theorem closuresOf_append (name : String) (ran later : List ClosureRun) :
    closuresOf name (ran ++ later) = closuresOf name ran ++ closuresOf name later := by
  rw [closuresOf, List.filter_append, List.map_append, ← closuresOf, ← closuresOf]

theorem closuresOf_cons (name : String) (run : ClosureRun) (ran : List ClosureRun) :
    closuresOf name (run :: ran) =
      if run.action_name = name then run.closure :: closuresOf name ran else closuresOf name ran := by
  rw [closuresOf, List.filter_cons]
  split
  · next same =>
    rw [if_pos (of_decide_eq_true same), List.map_cons, ← closuresOf]
  · next other =>
    rw [if_neg (fun same => other (decide_eq_true same)), ← closuresOf]

/-- An action whose begin closure was run and whose end closure was not since then. -/
def IsOpen (name : String) (ran : List ClosureRun) : Prop :=
  ∃ last ≠ Closure.end_closure, (closuresOf name ran).getLast? = some last

/-- Whether an action is there and running. -/
def isRunning (kb : KeyBindings) (name : String) : Option Bool := (kb.actions_ name).map Action.running

/-- What was run of an action, given whether it is there and running. -/
def Reflects : Option Bool → List Closure → Prop
  | none, word => word = []
  | some false, word => Closed word
  | some true, word => Begun word

theorem Reflects.isPrefix {running : Option Bool} {word : List Closure} (reflects : Reflects running word) :
    ∃ cycles : List ℕ, word <+: cycles.flatMap cycle := by
  cases running with
  | none =>
    rw [show word = [] from reflects]
    exact ⟨[], List.nil_prefix⟩
  | some running =>
    cases running with
    | false => exact Closed.isPrefix reflects
    | true => exact Begun.isPrefix reflects

section Running

variable {keyboard : Keyboard} {kb next : KeyBindings} {combo : KeyCombo} {name : String} {action : Action}

theorem setRunning_indexed (indexed : kb.Indexed) (found : kb.actions_ name = some action) (running : Bool) :
    (kb.setRunning name action running).Indexed := by
  refine ⟨⟨?_, indexed.keysyms, indexed.nonempty⟩, ?_, indexed.single⟩
  · intro combo owner
    rw [setRunning, indexed.actions]
    simp only [Function.update_apply]
    by_cases same : owner = name
    · simp [same, found]
    · simp only [if_neg same]
  · intro owner other owned
    simp only [setRunning, Function.update_apply] at owned
    split at owned
    · cases owned
      exact indexed.nodup name action found
    · exact indexed.nodup owner other owned

theorem setRunning_isRunning (running : Bool) (other : String) :
    (kb.setRunning name action running).isRunning other =
      if other = name then some running else kb.isRunning other := by
  simp only [setRunning, isRunning, Function.update_apply]
  split <;> rfl

theorem isRunning_eq_some {running : Bool} (same : kb.isRunning name = some running) :
    ∃ action, kb.actions_ name = some action ∧ action.running = running :=
  Option.map_eq_some_iff.mp same

/-- What closures were run fits what became of the actions. -/
structure Follows (kb next : KeyBindings) (runs : List ClosureRun) : Prop where
  indexed : next.Indexed
  bindings : next.bindings_ = kb.bindings_
  keysyms : next.action_names_by_keysym_ = kb.action_names_by_keysym_
  reflects : ∀ name word, Reflects (kb.isRunning name) word →
    Reflects (next.isRunning name) (word ++ closuresOf name runs)

theorem Follows.unchanged (indexed : kb.Indexed) : Follows kb kb [] := by
  refine ⟨indexed, rfl, rfl, fun name word reflects => ?_⟩
  rw [closuresOf_nil, List.append_nil]
  exact reflects

/-- An action that is set running, or not, with a closure that fits. -/
theorem Follows.setRunning (indexed : kb.Indexed) (found : kb.actions_ name = some action) {running : Bool}
    {closure : Closure} (fits : ∀ word, Reflects (some action.running) word → Reflects (some running) (word ++ [closure])) :
    Follows kb (kb.setRunning name action running) [⟨name, closure⟩] := by
  refine ⟨setRunning_indexed indexed found running, rfl, rfl, fun other word reflects => ?_⟩
  rw [setRunning_isRunning, closuresOf_cons]
  by_cases same : other = name
  · subst same
    rw [if_pos (rfl), if_pos (rfl)]
    rw [isRunning, found] at reflects
    exact fits word reflects
  · rw [if_neg same, if_neg (Ne.symm same), closuresOf_nil, List.append_nil]
    exact reflects

theorem Follows.trans {last : KeyBindings} {runs later : List ClosureRun} (first : Follows kb next runs)
    (second : Follows next last later) : Follows kb last (runs ++ later) := by
  refine ⟨second.indexed, second.bindings.trans first.bindings, second.keysyms.trans first.keysyms, ?_⟩
  intro name word reflects
  rw [closuresOf_append, ← List.append_assoc]
  exact second.reflects name _ (first.reflects name word reflects)

variable {closures : String → Closure → Bool} (allSet : ∀ name closure, closures name closure = true)

include allSet

variable (keyboard) in
theorem HandleKeyPress_follows (indexed : kb.Indexed) (keysym : KeySym) (modifiers : UInt32) :
    ∃ handled next runs, kb.HandleKeyPress keyboard closures keysym modifiers = some (handled, next, runs) ∧
      Follows kb next runs := by
  rw [HandleKeyPress]
  cases known : kb.bindings_ (keyboard.KeyCombo keysym modifiers) with
  | none => exact ⟨_, _, _, rfl, .unchanged indexed⟩
  | some name =>
    obtain ⟨action, found, -⟩ := (indexed.actions _ name).mp known
    simp only [found, allSet, Option.bind_eq_bind, Option.bind_some, if_true]
    cases running : action.running with
    | true =>
      refine ⟨_, _, _, rfl, indexed, rfl, rfl, fun other word reflects => ?_⟩
      rw [closuresOf_cons]
      by_cases same : name = other
      · subst same
        rw [isRunning, found, Option.map_some, running] at reflects ⊢
        rw [if_pos (rfl)]
        exact Begun.repeated reflects
      · rw [if_neg same, closuresOf_nil, List.append_nil]
        exact reflects
    | false =>
      refine ⟨_, _, _, rfl, .setRunning indexed found fun word reflects => ?_⟩
      rw [running] at reflects
      exact Closed.begun reflects

/-- The loop ends every action that is running, once. -/
theorem endActions_follows (names : List String) (indexed : kb.Indexed) (ran_end_closure : Bool)
    (known : ∀ name ∈ names, kb.isRunning name ≠ none) :
    ∃ handled next runs, kb.endActions closures ran_end_closure names = some (handled, next, runs) ∧
      Follows kb next runs ∧ (∀ name, kb.isRunning name ≠ some true → closuresOf name runs = []) ∧
      ∀ name ∈ names, kb.isRunning name = some true → closuresOf name runs = [.end_closure] := by
  induction names generalizing kb ran_end_closure with
  | nil => exact ⟨_, _, _, rfl, .unchanged indexed, fun _ _ => rfl, nofun⟩
  | cons name names ih =>
    obtain ⟨knownFirst, knownRest⟩ := List.forall_mem_cons.mp known
    obtain ⟨action, found⟩ : ∃ action, kb.actions_ name = some action := by
      rw [isRunning, Ne, Option.map_eq_none_iff] at knownFirst
      exact Option.ne_none_iff_exists'.mp knownFirst
    have running : kb.isRunning name = some action.running := by rw [isRunning, found, Option.map_some]
    rw [endActions, found, Option.bind_eq_bind, Option.bind_some]
    cases runs : action.running with
    | false =>
      rw [runs] at running
      obtain ⟨handled, next, later, looped, follows, untouched, ended⟩ := ih indexed ran_end_closure knownRest
      refine ⟨handled, next, later, ?_, follows, untouched, fun other member open_ => ?_⟩
      · rw [if_neg Bool.false_ne_true, looped]
      · rcases List.mem_cons.mp member with rfl | member
        · rw [running] at open_
          cases open_
        · exact ended other member open_
    | true =>
      have first : Follows kb (kb.setRunning name action false) [⟨name, .end_closure⟩] := by
        apply Follows.setRunning indexed found
        rw [runs]
        exact fun word begun => Begun.closed begun
      have knownRest : ∀ other ∈ names, (kb.setRunning name action false).isRunning other ≠ none := by
        intro other member
        rw [setRunning_isRunning]
        split
        · exact nofun
        · exact knownRest other member
      obtain ⟨handled, next, later, looped, follows, untouched, ended⟩ := ih first.indexed true knownRest
      have once : closuresOf name later = [] := by
        apply untouched
        rw [setRunning_isRunning, if_pos (rfl)]
        exact nofun
      refine ⟨handled, next, ⟨name, .end_closure⟩ :: later, ?_, first.trans follows, ?_, ?_⟩
      · simp only [allSet, if_true, looped]
        rfl
      · intro other still
        rw [closuresOf_cons]
        by_cases same : name = other
        · rw [← same, running, runs] at still
          exact absurd (rfl) still
        · rw [if_neg same]
          apply untouched
          rwa [setRunning_isRunning, if_neg (Ne.symm same)]
      · intro other member open_
        rw [closuresOf_cons]
        by_cases same : name = other
        · rw [if_pos same, ← same, once]
        · rw [if_neg same]
          apply ended other ((List.mem_cons.mp member).resolve_left (Ne.symm same))
          rwa [setRunning_isRunning, if_neg (Ne.symm same)]

variable (keyboard) in
theorem HandleKeyRelease_follows (indexed : kb.Indexed) (keysym : KeySym) (modifiers : UInt32) :
    ∃ handled next runs, kb.HandleKeyRelease keyboard closures keysym modifiers = some (handled, next, runs) ∧
      Follows kb next runs ∧ ∀ name combo, kb.bindings_ combo = some name →
        combo.key = keyboard.XConvertCase keysym → kb.isRunning name = some true →
        closuresOf name runs = [.end_closure] := by
  have listed (name : String) := indexed.keysyms (keyboard.XConvertCase keysym) name
  change ∀ name, name ∈ (kb.action_names_by_keysym_ (keyboard.KeyCombo keysym modifiers).key).getD ∅ ↔ _ at listed
  rw [HandleKeyRelease]
  cases same : kb.action_names_by_keysym_ (keyboard.KeyCombo keysym modifiers).key with
  | none =>
    refine ⟨_, _, _, rfl, .unchanged indexed, fun name combo taken key => ?_⟩
    have absent := (listed name).mpr ⟨combo, key, taken⟩
    rw [same] at absent
    exact absurd absent (Finset.notMem_empty name)
  | some names =>
    rw [same, Option.getD_some] at listed
    have known : ∀ name ∈ names.sort (· ≤ ·), kb.isRunning name ≠ none := by
      intro name member
      obtain ⟨combo, -, taken⟩ := (listed name).mp ((Finset.mem_sort _).mp member)
      obtain ⟨action, found, -⟩ := (indexed.actions combo name).mp taken
      rw [isRunning, found]
      exact nofun
    obtain ⟨handled, next, runs, looped, follows, -, ended⟩ :=
      endActions_follows allSet (names.sort (· ≤ ·)) indexed false known
    refine ⟨handled, next, runs, looped, follows, fun name combo taken key => ended name ?_⟩
    exact (Finset.mem_sort _).mpr ((listed name).mpr ⟨combo, key, taken⟩)

omit allSet in
theorem AddAction_reflects {added : Bool} (indexed : kb.Indexed) (returned : kb.AddAction name = some (added, next)) :
    next.Indexed ∧ ∀ owner word, Reflects (kb.isRunning owner) word → Reflects (next.isRunning owner) word := by
  obtain ⟨-, rfl | ⟨unknown, rfl⟩⟩ := AddAction_eq_some returned
  · exact ⟨indexed, fun _ _ reflects => reflects⟩
  · refine ⟨AddAction_indexed indexed unknown, fun owner word reflects => ?_⟩
    simp only [isRunning, Function.update_apply]
    split
    · next same =>
      rw [same, isRunning, unknown] at reflects
      rw [show word = [] from reflects]
      exact closed_nil
    · exact reflects

omit allSet in
theorem AddBinding_reflects {added : Bool} {key_param : KeySym} {modifiers_param : UInt32} (indexed : kb.Indexed)
    (returned : kb.AddBinding keyboard (keyboard.KeyCombo key_param modifiers_param) name = some (added, next)) :
    next.Indexed ∧ ∀ owner, next.isRunning owner = kb.isRunning owner := by
  by_cases declined : kb.bindings_ (keyboard.KeyCombo key_param modifiers_param) ≠ none ∨ kb.actions_ name = none
  · rw [AddBinding_declined declined] at returned
    cases returned
    exact ⟨indexed, fun _ => rfl⟩
  · push Not at declined
    obtain ⟨free, known⟩ := declined
    obtain ⟨action, found⟩ := Option.ne_none_iff_exists'.mp known
    have single (other : KeyCombo) (taken : kb.bindings_ other = some name) :
        other.key ≠ (keyboard.KeyCombo key_param modifiers_param).key := by
      intro key
      rw [AddBinding_aborts indexed free found taken key] at returned
      cases returned
    rw [AddBinding_bound indexed free found single] at returned
    cases returned
    refine ⟨bound_indexed keyboard indexed free found single, fun owner => ?_⟩
    simp only [bound, isRunning, Function.update_apply]
    split
    · next same => rw [same, found, Option.map_some, Option.map_some]
    · rfl

end Running

section Runs

variable (keyboard : Keyboard) {closures : String → Closure → Bool}

/-- The indexes agree, and what was run of every action fits whether it is running. -/
structure WellTraced (state : Traced) : Prop where
  indexed : state.kb.Indexed
  reflects : ∀ name, Reflects (state.kb.isRunning name) (closuresOf name state.ran)

theorem Follows.wellTraced {kb next : KeyBindings} {ran runs : List ClosureRun} (follows : Follows kb next runs)
    (wellTraced : WellTraced ⟨kb, ran⟩) : WellTraced ⟨next, ran ++ runs⟩ := by
  refine ⟨follows.indexed, fun name => ?_⟩
  rw [closuresOf_append]
  exact follows.reflects name _ (wellTraced.reflects name)

/-- The closures run for each action are the start of whole cycles, and the release of a key ends every open
action with a binding for its keysym, whatever the modifiers are. -/
structure Traces (closures : String → Closure → Bool) (state : Traced) : Prop where
  words : ∀ name, ∃ cycles : List ℕ, closuresOf name state.ran <+: cycles.flatMap cycle
  releases : ∀ keysym modifiers, ∃ next,
    state.handle keyboard closures (.HandleKeyRelease keysym modifiers) = some next ∧
      ∀ name combo, state.kb.bindings_ combo = some name → combo.key = keyboard.XConvertCase keysym →
        IsOpen name state.ran → closuresOf name next.ran = closuresOf name state.ran ++ [.end_closure]

/-- What a caller must observe of the calls that add something. -/
def DistinctEvent (state : Traced) : KeyEvent → Prop
  | .AddAction action_name => Distinct keyboard state.kb (.AddAction action_name)
  | .AddBinding key_param modifiers_param action_name =>
    Distinct keyboard state.kb (.AddBinding key_param modifiers_param action_name)
  | .HandleKeyPress _ _ => True
  | .HandleKeyRelease _ _ => True

variable {keyboard} (allSet : ∀ name closure, closures name closure = true)

theorem WellTraced.running_of_open {state : Traced} (wellTraced : WellTraced state) {name : String}
    (isOpen : IsOpen name state.ran) : state.kb.isRunning name = some true := by
  obtain ⟨last, notEnd, ends⟩ := isOpen
  have reflects := wellTraced.reflects name
  cases running : state.kb.isRunning name with
  | none =>
    rw [running] at reflects
    rw [show closuresOf name state.ran = [] from reflects] at ends
    cases ends
  | some runs =>
    cases runs with
    | true => rfl
    | false =>
      rw [running] at reflects
      exact absurd (Closed.getLast_ne reflects ends) notEnd

include allSet

theorem WellTraced.traces {state : Traced} (wellTraced : WellTraced state) : Traces keyboard closures state := by
  refine ⟨fun name => (wellTraced.reflects name).isPrefix, fun keysym modifiers => ?_⟩
  obtain ⟨handled, next, runs, released, -, ended⟩ :=
    HandleKeyRelease_follows keyboard allSet wellTraced.indexed keysym modifiers
  refine ⟨⟨next, state.ran ++ runs⟩, by rw [Traced.handle, released, Option.map_some], ?_⟩
  intro name combo taken key isOpen
  rw [closuresOf_append, ended name combo taken key (wellTraced.running_of_open isOpen)]

theorem handle_wellTraced {state next : Traced} (event : KeyEvent) (wellTraced : WellTraced state)
    (taken : state.handle keyboard closures event = some next) : WellTraced next := by
  cases event with
  | AddAction action_name =>
    obtain ⟨kb, stepped, rfl⟩ := Option.map_eq_some_iff.mp taken
    obtain ⟨⟨added, kb⟩, returned, rfl⟩ := Option.map_eq_some_iff.mp stepped
    obtain ⟨indexed, reflects⟩ := AddAction_reflects wellTraced.indexed returned
    exact ⟨indexed, fun name => reflects name _ (wellTraced.reflects name)⟩
  | AddBinding key_param modifiers_param action_name =>
    obtain ⟨kb, stepped, rfl⟩ := Option.map_eq_some_iff.mp taken
    obtain ⟨⟨added, kb⟩, returned, rfl⟩ := Option.map_eq_some_iff.mp stepped
    obtain ⟨indexed, same⟩ := AddBinding_reflects wellTraced.indexed returned
    refine ⟨indexed, fun name => ?_⟩
    rw [same]
    exact wellTraced.reflects name
  | HandleKeyPress keysym modifiers =>
    obtain ⟨handled, kb, runs, pressed, follows⟩ :=
      HandleKeyPress_follows keyboard allSet wellTraced.indexed keysym modifiers
    rw [Traced.handle, pressed] at taken
    cases taken
    exact follows.wellTraced wellTraced
  | HandleKeyRelease keysym modifiers =>
    obtain ⟨handled, kb, runs, released, follows, -⟩ :=
      HandleKeyRelease_follows keyboard allSet wellTraced.indexed keysym modifiers
    rw [Traced.handle, released] at taken
    cases taken
    exact follows.wellTraced wellTraced

theorem handle_goes {state : Traced} (event : KeyEvent) (wellTraced : WellTraced state)
    (distinct : DistinctEvent keyboard state event) :
    ∃ next, state.handle keyboard closures event = some next ∧ WellTraced next := by
  have goes : ∃ next, state.handle keyboard closures event = some next := by
    cases event with
    | AddAction action_name =>
      obtain ⟨kb, stepped, -⟩ := step_indexed (.AddAction action_name) wellTraced.indexed (by exact distinct)
      exact ⟨_, by rw [Traced.handle, stepped, Option.map_some]⟩
    | AddBinding key_param modifiers_param action_name =>
      obtain ⟨kb, stepped, -⟩ := step_indexed (.AddBinding key_param modifiers_param action_name)
        wellTraced.indexed (by exact distinct)
      exact ⟨_, by rw [Traced.handle, stepped, Option.map_some]⟩
    | HandleKeyPress keysym modifiers =>
      obtain ⟨handled, kb, runs, pressed, -⟩ :=
        HandleKeyPress_follows keyboard allSet wellTraced.indexed keysym modifiers
      exact ⟨_, by rw [Traced.handle, pressed, Option.map_some]⟩
    | HandleKeyRelease keysym modifiers =>
      obtain ⟨handled, kb, runs, released, -⟩ :=
        HandleKeyRelease_follows keyboard allSet wellTraced.indexed keysym modifiers
      exact ⟨_, by rw [Traced.handle, released, Option.map_some]⟩
  obtain ⟨next, taken⟩ := goes
  exact ⟨next, taken, handle_wellTraced allSet event wellTraced taken⟩

omit allSet in
theorem initial_wellTraced : WellTraced {} := ⟨initial_indexed, fun _ => rfl⟩

/-- The traces hold whatever happens, and nothing is aborted when no action gets a second combination with
a keysym. -/
theorem key_traces_hold (events : List KeyEvent) :
    Always (Traced.handle keyboard closures) (Traces keyboard closures) {} events ∧
      (Throughout (Traced.handle keyboard closures) (DistinctEvent keyboard) {} events →
        ∃ last, run (Traced.handle keyboard closures) {} events = some last) := by
  constructor
  · have always : Always (Traced.handle keyboard closures) WellTraced {} events :=
      always_of_preserved initial_wellTraced
        (fun state event next wellTraced taken => handle_wellTraced allSet event wellTraced taken) events
    exact fun past before state reached => (always past before state reached).traces allSet
  · exact completes_of_throughout WellTraced
      (fun state event wellTraced distinct => handle_goes allSet event wellTraced distinct) initial_wellTraced

end Runs

/-- Tab with Alt held down is pressed and repeated, and released after Alt is. -/
def tabEvents : List KeyEvent :=
  [.AddAction "next", .AddBinding 0xff09 8 "next", .HandleKeyPress 0xff09 8, .HandleKeyPress 0xff09 8,
    .HandleKeyRelease 0xff09 0]

theorem key_traces_hold_tab :
    Always (Traced.handle plainKeyboard fun _ _ => true) (Traces plainKeyboard fun _ _ => true) {} tabEvents ∧
      (run (Traced.handle plainKeyboard fun _ _ => true) {} tabEvents).map Traced.ran =
        some [⟨"next", .begin_closure⟩, ⟨"next", .repeat_closure⟩, ⟨"next", .end_closure⟩] :=
  ⟨(key_traces_hold (fun _ _ => rfl) tabEvents).1, by decide +kernel⟩

end ChromiumOS.WindowManager.KeyBindings
