import ChromiumOS.Proofs.WindowManager.KeyIndexes

/-! # Grabbed key combinations

Bindings are kept by keysym and grabs by key code. Removing a binding releases its key, also when
another binding with the same modifiers has a keysym on that key.
-/

namespace ChromiumOS.WindowManager.KeyBindings

open PartialRun

variable {keyboard : Keyboard} {kb next : KeyBindings} {combo other : KeyCombo} {call : Call}

/-- The grabs held are those of the combinations that are bound. -/
def GrabsMatch (keyboard : Keyboard) (kb : KeyBindings) : Prop :=
  ∀ pair, pair ∈ kb.grabbed_keys_ ↔
    ∃ combo, kb.bindings_ combo ≠ none ∧ pair ∈ grabs keyboard combo

/-- Two combinations are the same to the X server. -/
def SameKeys (keyboard : Keyboard) (combo other : KeyCombo) : Prop :=
  keyboard.GetKeyCodeFromKeySym combo.key = keyboard.GetKeyCodeFromKeySym other.key ∧
    combo.modifiers = other.modifiers

theorem or_LockMask_and {modifiers : UInt32} (lockless : modifiers &&& LockMask = 0) :
    (modifiers ||| LockMask) &&& ~~~LockMask = modifiers := by
  apply UInt32.eq_of_toBitVec_eq
  have lockless := congrArg UInt32.toBitVec lockless
  simp only [UInt32.toBitVec_and, UInt32.toBitVec_or, UInt32.toBitVec_not] at lockless ⊢
  ext index inside
  have bit := congrArg (fun bits => bits.getLsbD index) lockless
  simp at bit ⊢
  grind

theorem or_LockMask_ne {modifiers : UInt32} (lockless : modifiers &&& LockMask = 0) (locked : UInt32) :
    modifiers ≠ locked ||| LockMask := by
  rintro rfl
  have all : (locked ||| LockMask) &&& LockMask = LockMask := by
    apply UInt32.eq_of_toBitVec_eq
    simp only [UInt32.toBitVec_and, UInt32.toBitVec_or]
    ext index inside
    simp
    grind
  rw [all] at lockless
  exact absurd lockless (by decide)

theorem grabs_eq_of_sameKeys (same : SameKeys keyboard combo other) :
    grabs keyboard combo = grabs keyboard other := by
  rw [grabs, grabs, same.1, same.2]

/-- Two combinations share a grab only if they share both. -/
theorem sameKeys_of_mem {pair : KeyCode × UInt32} (left : pair ∈ grabs keyboard combo)
    (right : pair ∈ grabs keyboard other) : SameKeys keyboard combo other := by
  simp only [grabs, Finset.mem_insert, Finset.mem_singleton] at left right
  rcases left with rfl | rfl <;> rcases right with same | same <;>
    simp only [Prod.mk.injEq] at same <;> obtain ⟨code, modifiers⟩ := same
  · exact ⟨code, modifiers⟩
  · exact absurd modifiers (or_LockMask_ne combo.lockless other.modifiers)
  · exact absurd modifiers.symm (or_LockMask_ne other.lockless combo.modifiers)
  · refine ⟨code, ?_⟩
    rw [← or_LockMask_and combo.lockless, modifiers, or_LockMask_and other.lockless]

/-- The combinations that a call unbinds. -/
def released (keyboard : Keyboard) (kb : KeyBindings) : Call → List KeyCombo
  | .AddAction _ => []
  | .RemoveAction action_name => ((kb.actions_ action_name).map Action.bindings).getD []
  | .AddBinding _ _ _ => []
  | .RemoveBinding key_param modifiers_param =>
    if kb.bindings_ (keyboard.KeyCombo key_param modifiers_param) = none then []
    else [keyboard.KeyCombo key_param modifiers_param]

/-- No combination that stays bound is on a key, with the modifiers, of one that a call unbinds. -/
def Unshared (keyboard : Keyboard) (kb : KeyBindings) (call : Call) : Prop :=
  ∀ combo ∈ released keyboard kb call, ∀ other, kb.bindings_ other ≠ none →
    other ∉ released keyboard kb call → ¬ SameKeys keyboard combo other

/-- A call that unbinds combinations releases their grabs and changes nothing else. -/
structure Releases (keyboard : Keyboard) (kb next : KeyBindings) (combos : List KeyCombo) : Prop where
  bindings : ∀ combo, next.bindings_ combo = if combo ∈ combos then none else kb.bindings_ combo
  grabbed : ∀ pair, pair ∈ next.grabbed_keys_ ↔
    pair ∈ kb.grabbed_keys_ ∧ ∀ combo ∈ combos, pair ∉ grabs keyboard combo

/-- Every call that unbinds a combination succeeds. -/
theorem step_releases (indexed : kb.Indexed) (inside : combo ∈ released keyboard kb call) :
    ∃ next, kb.step keyboard call = some next ∧
      Releases keyboard kb next (released keyboard kb call) := by
  cases call with
  | AddAction action_name => simp [released] at inside
  | RemoveAction action_name =>
    cases known : kb.actions_ action_name with
    | none => simp [released, known] at inside
    | some action =>
      obtain ⟨middle, cleared, removed⟩ := RemoveAction_cleared keyboard indexed known
      refine ⟨_, by rw [step, removed]; rfl, ?_⟩
      rw [released, known]
      exact ⟨cleared.bindings, cleared.grabbed⟩
  | AddBinding key_param modifiers_param action_name => simp [released] at inside
  | RemoveBinding key_param modifiers_param =>
    rw [released] at inside ⊢
    cases known : kb.bindings_ (keyboard.KeyCombo key_param modifiers_param) with
    | none => simp [known] at inside
    | some name =>
      obtain ⟨action, names, -, -, -, -, removed⟩ := RemoveBinding_unbound keyboard indexed known
      refine ⟨_, by rw [step, removed]; rfl, ?_, ?_⟩
      · intro combo
        simp only [unbound, Function.update_apply, reduceCtorEq, if_false, List.mem_singleton]
      · intro pair
        simp only [mem_unbound_grabbed, reduceCtorEq, if_false, List.forall_mem_singleton]

theorem Releases.grabsMatch_iff {combos : List KeyCombo} (releases : Releases keyboard kb next combos)
    (grabsMatch : GrabsMatch keyboard kb) :
    GrabsMatch keyboard next ↔ ∀ combo ∈ combos, ∀ other, kb.bindings_ other ≠ none →
      other ∉ combos → ¬ SameKeys keyboard combo other := by
  constructor
  · intro kept combo inside other otherBound outside same
    have released := (releases.grabbed (keyboard.GetKeyCodeFromKeySym combo.key, combo.modifiers)).mp
      ((kept _).mpr ⟨other, by rwa [releases.bindings, if_neg outside],
        by rw [← grabs_eq_of_sameKeys same]; simp [grabs]⟩)
    exact released.2 combo inside (by simp [grabs])
  · intro unshared pair
    rw [releases.grabbed, grabsMatch]
    constructor
    · rintro ⟨⟨combo, combo_bound, grabbed⟩, free⟩
      refine ⟨combo, ?_, grabbed⟩
      rwa [releases.bindings, if_neg fun inside => free combo inside grabbed]
    · rintro ⟨other, other_bound, grabbed⟩
      rw [releases.bindings] at other_bound
      split at other_bound
      · exact absurd rfl other_bound
      · next outside =>
        refine ⟨⟨other, other_bound, grabbed⟩, fun combo inside shared => ?_⟩
        exact unshared combo inside other other_bound outside (sameKeys_of_mem shared grabbed)

/-- A binding that is added brings its grabs along. -/
theorem bound_grabsMatch {name : String} {action : Action} (grabsMatch : GrabsMatch keyboard kb)
    (free : kb.bindings_ combo = none) :
    GrabsMatch keyboard (bound keyboard kb combo name action) := by
  intro pair
  rw [mem_bound_grabbed, grabsMatch]
  simp only [bound, Function.update_apply]
  constructor
  · rintro (grabbed | ⟨other, other_bound, grabbed⟩)
    · exact ⟨combo, by simp, grabbed⟩
    · refine ⟨other, ?_, grabbed⟩
      rwa [if_neg]
      rintro rfl
      exact other_bound free
  · rintro ⟨other, other_bound, grabbed⟩
    split at other_bound
    · next same => exact .inl (same ▸ grabbed)
    · exact .inr ⟨other, other_bound, grabbed⟩

/-- A call that unbinds nothing keeps the grabs matched. -/
theorem step_grabsMatch (indexed : kb.Indexed) (grabsMatch : GrabsMatch keyboard kb)
    (nothing : released keyboard kb call = []) (stepped : kb.step keyboard call = some next) :
    GrabsMatch keyboard next := by
  cases call with
  | AddAction action_name =>
    obtain ⟨⟨added, last⟩, returned, rfl⟩ := Option.map_eq_some_iff.mp stepped
    rcases (AddAction_eq_some returned).2 with rfl | ⟨-, rfl⟩
    · exact grabsMatch
    · exact grabsMatch
  | RemoveAction action_name =>
    cases known : kb.actions_ action_name with
    | none =>
      simp only [step, RemoveAction, known, Option.map_some, Option.some.injEq] at stepped
      exact stepped ▸ grabsMatch
    | some action =>
      obtain ⟨middle, cleared, removed⟩ := RemoveAction_cleared keyboard indexed known
      simp only [step, removed, Option.map_some, Option.some.injEq] at stepped
      subst stepped
      rw [released, known, Option.map_some, Option.getD_some] at nothing
      have releases : Releases keyboard kb middle action.bindings := ⟨cleared.bindings, cleared.grabbed⟩
      rw [nothing] at releases
      exact (releases.grabsMatch_iff grabsMatch).mpr (by simp)
  | AddBinding key_param modifiers_param action_name =>
    have distinct : Distinct keyboard kb (.AddBinding key_param modifiers_param action_name) := by
      by_contra clash
      simp [step_aborts _ indexed clash] at stepped
    cases free : kb.bindings_ (keyboard.KeyCombo key_param modifiers_param) with
    | some name =>
      rw [step, AddBinding_declined (.inl (by simp [free]))] at stepped
      exact Option.some.inj stepped ▸ grabsMatch
    | none =>
      cases known : kb.actions_ action_name with
      | none =>
        rw [step, AddBinding_declined (.inr known)] at stepped
        exact Option.some.inj stepped ▸ grabsMatch
      | some action =>
        rw [step, AddBinding_bound indexed free known (Distinct.single indexed distinct free known)]
          at stepped
        exact Option.some.inj stepped ▸ bound_grabsMatch grabsMatch free
  | RemoveBinding key_param modifiers_param =>
    rw [released] at nothing
    split at nothing
    · next known =>
      simp only [step, RemoveBinding, known, Option.map_some, Option.some.injEq] at stepped
      exact stepped ▸ grabsMatch
    · simp at nothing

theorem step_keeps_indexed (indexed : kb.Indexed) (stepped : kb.step keyboard call = some next) :
    next.Indexed := by
  by_cases distinct : Distinct keyboard kb call
  · obtain ⟨reached, same, kept⟩ := step_indexed call indexed distinct
    rwa [← Option.some.inj (same.symm.trans stepped)]
  · simp [step_aborts call indexed distinct] at stepped

/-- A keyboard with the keysyms of the digit one and of the exclamation mark on one key. -/
def digitKeyboard : Keyboard where
  XConvertCase := id
  GetKeyCodeFromKeySym := fun keysym => if keysym = 0x21 then 10 else if keysym = 0x31 then 10 else 0

end ChromiumOS.WindowManager.KeyBindings
