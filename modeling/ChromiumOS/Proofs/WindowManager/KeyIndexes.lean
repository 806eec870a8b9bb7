import ChromiumOS.Model.WindowManager.KeyBindings
import ChromiumOS.ToMathlib.PartialRun

/-! # Three indexes of one relation

`bindings_`, the bindings of the actions and `action_names_by_keysym_` describe which combinations
are bound to which actions. The keysym index forgets modifiers, so a second combination with the same
key cannot be bound to the same action.
-/

namespace ChromiumOS.WindowManager.KeyBindings

open PartialRun

/-- The three indexes describe the same relation. -/
structure Consistent (kb : KeyBindings) : Prop where
  actions : ∀ combo name, kb.bindings_ combo = some name ↔
    ∃ action, kb.actions_ name = some action ∧ combo ∈ action.bindings
  keysyms : ∀ key name, name ∈ (kb.action_names_by_keysym_ key).getD ∅ ↔
    ∃ combo, combo.key = key ∧ kb.bindings_ combo = some name
  nonempty : ∀ key, kb.action_names_by_keysym_ key ≠ some ∅

/-- The indexes agree, and an action has one combination for a key at most. -/
structure Indexed (kb : KeyBindings) : Prop extends Consistent kb where
  nodup : ∀ name action, kb.actions_ name = some action → action.bindings.Nodup
  single : ∀ combo other name, kb.bindings_ combo = some name → kb.bindings_ other = some name →
    combo.key = other.key → combo = other

theorem initial_indexed : Indexed {} := by
  constructor
  · constructor <;> simp
  · simp
  · simp

variable {keyboard : Keyboard} {kb next : KeyBindings} {combo : KeyCombo} {name : String}
  {action : Action}

/-- The bindings with a new combination for an action that has none for the key. -/
def bound (keyboard : Keyboard) (kb : KeyBindings) (combo : KeyCombo) (name : String)
    (action : Action) : KeyBindings :=
  { actions_ := Function.update kb.actions_ name (some { action with
      bindings := action.bindings.orderedInsert (fun a b => KeyComboComparator a b) combo })
    bindings_ := Function.update kb.bindings_ combo (some name)
    action_names_by_keysym_ := Function.update kb.action_names_by_keysym_ combo.key
      (some (insert name ((kb.action_names_by_keysym_ combo.key).getD ∅)))
    grabbed_keys_ := insert (keyboard.GetKeyCodeFromKeySym combo.key, combo.modifiers ||| LockMask)
      (insert (keyboard.GetKeyCodeFromKeySym combo.key, combo.modifiers) kb.grabbed_keys_) }

/-- The bindings without a combination of an action. -/
def unbound (keyboard : Keyboard) (kb : KeyBindings) (combo : KeyCombo) (name : String)
    (action : Action) (names : Finset String) : KeyBindings :=
  { actions_ := Function.update kb.actions_ name
      (some { running := false, bindings := action.bindings.erase combo })
    bindings_ := Function.update kb.bindings_ combo none
    action_names_by_keysym_ := Function.update kb.action_names_by_keysym_ combo.key
      (if names.erase name = ∅ then none else some (names.erase name))
    grabbed_keys_ := (kb.grabbed_keys_.erase
      (keyboard.GetKeyCodeFromKeySym combo.key, combo.modifiers)).erase
      (keyboard.GetKeyCodeFromKeySym combo.key, combo.modifiers ||| LockMask) }

/-- A binding that the code turns down: the combination is taken or the action is unknown. -/
theorem AddBinding_declined (taken : kb.bindings_ combo ≠ none ∨ kb.actions_ name = none) :
    kb.AddBinding keyboard combo name = some (false, kb) := by
  rw [AddBinding]
  cases known : kb.bindings_ combo with
  | some other => rfl
  | none =>
    rw [known] at taken
    rw [taken.resolve_left (fun wrong => wrong rfl)]

theorem AddBinding_bound (indexed : kb.Indexed) (free : kb.bindings_ combo = none)
    (found : kb.actions_ name = some action)
    (single : ∀ other, kb.bindings_ other = some name → other.key ≠ combo.key) :
    kb.AddBinding keyboard combo name = some (true, bound keyboard kb combo name action) := by
  have unbound : combo ∉ action.bindings := by
    intro inside
    have taken := (indexed.actions combo name).mpr ⟨action, found, inside⟩
    rw [free] at taken
    exact nomatch taken
  have unnamed : name ∉ (kb.action_names_by_keysym_ combo.key).getD ∅ := by
    intro inside
    obtain ⟨other, key, taken⟩ := (indexed.keysyms combo.key name).mp inside
    exact single other taken key
  simp only [AddBinding, free, found, unbound, unnamed, not_false_eq_true, guard_true]
  rfl

/-- The `CHECK` on the keysym index fails on the second combination with a key. -/
theorem AddBinding_aborts (indexed : kb.Indexed) (free : kb.bindings_ combo = none)
    (found : kb.actions_ name = some action) {other : KeyCombo}
    (taken : kb.bindings_ other = some name) (key : other.key = combo.key) :
    kb.AddBinding keyboard combo name = none := by
  have named : name ∈ (kb.action_names_by_keysym_ combo.key).getD ∅ :=
    (indexed.keysyms combo.key name).mpr ⟨other, key, taken⟩
  by_cases inside : combo ∈ action.bindings <;> simp [AddBinding, free, found, named, inside]

variable (keyboard) in
theorem RemoveBinding_unbound (indexed : kb.Indexed) (taken : kb.bindings_ combo = some name) :
    ∃ action names, kb.actions_ name = some action ∧ combo ∈ action.bindings ∧
      kb.action_names_by_keysym_ combo.key = some names ∧ name ∈ names ∧
      kb.RemoveBinding keyboard combo =
        some (true, unbound keyboard kb combo name action names) := by
  obtain ⟨action, found, inside⟩ := (indexed.actions combo name).mp taken
  have named := (indexed.keysyms combo.key name).mpr ⟨combo, rfl, taken⟩
  cases listed : kb.action_names_by_keysym_ combo.key with
  | none => simp [listed] at named
  | some names =>
    rw [listed, Option.getD_some] at named
    refine ⟨action, names, found, inside, rfl, named, ?_⟩
    simp only [RemoveBinding, taken, found, listed, Option.bind_eq_bind, Option.bind_some, inside,
      named, guard_true]
    rfl

variable (keyboard) in
theorem bound_indexed (indexed : kb.Indexed) (free : kb.bindings_ combo = none)
    (found : kb.actions_ name = some action)
    (single : ∀ other, kb.bindings_ other = some name → other.key ≠ combo.key) :
    (bound keyboard kb combo name action).Indexed := by
  have unbound : combo ∉ action.bindings := by
    intro inside
    have taken := (indexed.actions combo name).mpr ⟨action, found, inside⟩
    rw [free] at taken
    exact nomatch taken
  refine ⟨⟨?_, ?_, ?_⟩, ?_, ?_⟩
  · intro other owner
    have known := indexed.actions other owner
    simp only [bound, Function.update_apply]
    by_cases sameCombo : other = combo
    · subst sameCombo
      by_cases sameName : owner = name
      · simp [sameName]
      · have absent : ¬ ∃ action, kb.actions_ owner = some action ∧ other ∈ action.bindings := by
          rw [← known, free]
          exact nofun
        simp only [if_true, if_neg sameName, Option.some.injEq]
        exact iff_of_false (Ne.symm sameName) absent
    · by_cases sameName : owner = name
      · subst sameName
        simp only [sameCombo, if_false, if_true, known, found, Option.some.injEq, exists_eq_left',
          List.mem_orderedInsert, false_or]
      · simp only [sameCombo, sameName, if_false, known]
  · intro key owner
    have known := indexed.keysyms key owner
    simp only [bound, Function.update_apply]
    by_cases sameKey : key = combo.key
    · subst sameKey
      simp only [if_true, Option.getD_some, Finset.mem_insert, known]
      constructor
      · rintro (rfl | ⟨other, sameKey, taken⟩)
        · exact ⟨combo, rfl, by rw [if_pos rfl]⟩
        · refine ⟨other, sameKey, ?_⟩
          rw [if_neg, taken]
          rintro rfl
          rw [free] at taken
          exact nomatch taken
      · rintro ⟨other, sameKey, taken⟩
        split at taken
        · exact .inl (Option.some.inj taken).symm
        · exact .inr ⟨other, sameKey, taken⟩
    · simp only [if_neg sameKey, known]
      constructor
      · rintro ⟨other, rfl, taken⟩
        refine ⟨other, rfl, ?_⟩
        rwa [if_neg fun same => sameKey (congrArg KeyCombo.key same)]
      · rintro ⟨other, rfl, taken⟩
        refine ⟨other, rfl, ?_⟩
        rwa [if_neg fun same => sameKey (congrArg KeyCombo.key same)] at taken
  · intro key
    simp only [bound, Function.update_apply]
    split
    · simp
    · exact indexed.nonempty key
  · intro owner other owned
    simp only [bound, Function.update_apply] at owned
    split at owned
    · cases owned
      rw [(List.perm_orderedInsert _ _ _).nodup_iff, List.nodup_cons]
      exact ⟨unbound, indexed.nodup name action found⟩
    · exact indexed.nodup owner other owned
  · intro left right owner leftBound rightBound key
    simp only [bound, Function.update_apply] at leftBound rightBound
    split at leftBound
    · next sameLeft =>
      split at rightBound
      · next sameRight => rw [sameLeft, sameRight]
      · cases leftBound
        rw [sameLeft] at key
        exact absurd key.symm (single right rightBound)
    · split at rightBound
      · next sameRight =>
        cases rightBound
        rw [sameRight] at key
        exact absurd key (single left leftBound)
      · exact indexed.single left right owner leftBound rightBound key

theorem mem_getD_of_pruned {names : Finset String} (owner : String) :
    owner ∈ (if names = ∅ then none else some names : Option (Finset String)).getD ∅ ↔
      owner ∈ names := by
  split
  · next empty => simp [empty]
  · rfl

variable (keyboard) in
theorem unbound_indexed (indexed : kb.Indexed) (taken : kb.bindings_ combo = some name)
    (found : kb.actions_ name = some action) {names : Finset String}
    (listed : kb.action_names_by_keysym_ combo.key = some names) :
    (unbound keyboard kb combo name action names).Indexed := by
  have nodup := indexed.nodup name action found
  refine ⟨⟨?_, ?_, ?_⟩, ?_, ?_⟩
  · intro other owner
    have known := indexed.actions other owner
    simp only [unbound, Function.update_apply]
    by_cases sameName : owner = name
    · subst sameName
      simp only [if_true, Option.some.injEq, exists_eq_left', nodup.mem_erase_iff]
      by_cases sameCombo : other = combo
      · simp [sameCombo]
      · simp only [sameCombo, if_false, known, found, Option.some.injEq, exists_eq_left', ne_eq,
          not_false_eq_true, true_and]
    · simp only [if_neg sameName, ← known]
      by_cases sameCombo : other = combo
      · subst sameCombo
        simp [taken, Ne.symm sameName]
      · simp only [if_neg sameCombo]
  · intro key owner
    have known := indexed.keysyms key owner
    simp only [unbound, Function.update_apply]
    by_cases sameKey : key = combo.key
    · subst sameKey
      rw [listed, Option.getD_some] at known
      simp only [if_true, mem_getD_of_pruned, Finset.mem_erase, known]
      constructor
      · rintro ⟨otherName, other, sameKey, otherTaken⟩
        refine ⟨other, sameKey, ?_⟩
        rw [if_neg, otherTaken]
        rintro rfl
        rw [taken, Option.some.injEq] at otherTaken
        exact otherName otherTaken.symm
      · rintro ⟨other, sameKey, otherTaken⟩
        split at otherTaken
        · exact nomatch otherTaken
        · next otherCombo =>
          refine ⟨?_, other, sameKey, otherTaken⟩
          rintro rfl
          exact otherCombo (indexed.single other combo owner otherTaken taken sameKey)
    · simp only [if_neg sameKey, known]
      constructor
      · rintro ⟨other, rfl, otherTaken⟩
        refine ⟨other, rfl, ?_⟩
        rwa [if_neg fun same => sameKey (congrArg KeyCombo.key same)]
      · rintro ⟨other, rfl, otherTaken⟩
        refine ⟨other, rfl, ?_⟩
        rwa [if_neg fun same => sameKey (congrArg KeyCombo.key same)] at otherTaken
  · intro key
    simp only [unbound, Function.update_apply]
    split
    · split
      · exact nofun
      · next left => exact fun same => left (Option.some.inj same)
    · exact indexed.nonempty key
  · intro owner other owned
    simp only [unbound, Function.update_apply] at owned
    split at owned
    · cases owned
      exact nodup.erase combo
    · exact indexed.nodup owner other owned
  · intro left right owner leftBound rightBound key
    simp only [unbound, Function.update_apply] at leftBound rightBound
    split at leftBound
    · exact nomatch leftBound
    · split at rightBound
      · exact nomatch rightBound
      · exact indexed.single left right owner leftBound rightBound key

/-- The two key combinations that a binding grabs. -/
def grabs (keyboard : Keyboard) (combo : KeyCombo) : Finset (KeyCode × UInt32) :=
  {(keyboard.GetKeyCodeFromKeySym combo.key, combo.modifiers),
    (keyboard.GetKeyCodeFromKeySym combo.key, combo.modifiers ||| LockMask)}

theorem mem_bound_grabbed (pair : KeyCode × UInt32) :
    pair ∈ (bound keyboard kb combo name action).grabbed_keys_ ↔
      pair ∈ grabs keyboard combo ∨ pair ∈ kb.grabbed_keys_ := by
  simp only [bound, grabs, Finset.mem_insert, Finset.mem_singleton]
  tauto

theorem mem_unbound_grabbed {names : Finset String} (pair : KeyCode × UInt32) :
    pair ∈ (unbound keyboard kb combo name action names).grabbed_keys_ ↔
      pair ∈ kb.grabbed_keys_ ∧ pair ∉ grabs keyboard combo := by
  simp only [unbound, grabs, Finset.mem_erase, Finset.mem_insert, Finset.mem_singleton]
  tauto

/-- An action has lost all its combinations and everything else is as it was. -/
structure Cleared (keyboard : Keyboard) (kb next : KeyBindings) (name : String)
    (combos : List KeyCombo) : Prop where
  indexed : next.Indexed
  cleared : ∃ action, next.actions_ name = some action ∧ action.bindings = []
  bindings : ∀ combo, next.bindings_ combo = if combo ∈ combos then none else kb.bindings_ combo
  grabbed : ∀ pair, pair ∈ next.grabbed_keys_ ↔
    pair ∈ kb.grabbed_keys_ ∧ ∀ combo ∈ combos, pair ∉ grabs keyboard combo

variable (keyboard) in
theorem RemoveBindings_cleared (indexed : kb.Indexed) (found : kb.actions_ name = some action) :
    ∃ next, kb.RemoveBindings keyboard name action.bindings.length = some next ∧
      Cleared keyboard kb next name action.bindings := by
  generalize combos : action.bindings = bindings
  induction bindings generalizing kb action with
  | nil =>
    refine ⟨kb, rfl, indexed, ⟨action, found, combos⟩, ?_, ?_⟩ <;> simp
  | cons first rest ih =>
    have taken : kb.bindings_ first = some name :=
      (indexed.actions first name).mpr ⟨action, found, by simp [combos]⟩
    obtain ⟨owner, names, owned, -, listed, -, removed⟩ :=
      RemoveBinding_unbound keyboard indexed taken
    obtain rfl : owner = action := Option.some.inj (owned.symm.trans found)
    have left : (unbound keyboard kb first name owner names).actions_ name =
        some { running := false, bindings := rest } := by
      simp [unbound, combos]
    obtain ⟨next, looped, cleared⟩ :=
      ih (unbound_indexed keyboard indexed taken found listed) left rfl
    refine ⟨next, ?_, cleared.indexed, cleared.cleared, ?_, ?_⟩
    · simp only [List.length_cons, RemoveBindings, found, Option.bind_eq_bind, Option.bind_some, combos,
        removed, guard_true]
      exact looped
    · intro combo
      simp only [cleared.bindings, unbound, Function.update_apply]
      by_cases same : combo = first
      · simp [same]
      · simp [same]
    · intro pair
      rw [cleared.grabbed, mem_unbound_grabbed, List.forall_mem_cons, and_assoc]

variable (keyboard) in
/-- Removing an action that exists succeeds and takes its combinations along. -/
theorem RemoveAction_cleared (indexed : kb.Indexed) (found : kb.actions_ name = some action) :
    ∃ middle, Cleared keyboard kb middle name action.bindings ∧ kb.RemoveAction keyboard name =
      some (true, { middle with actions_ := Function.update middle.actions_ name none }) := by
  obtain ⟨middle, looped, cleared⟩ := RemoveBindings_cleared keyboard indexed found
  obtain ⟨last, lastFound, empty⟩ := cleared.cleared
  refine ⟨middle, cleared, ?_⟩
  simp only [RemoveAction, found, looped, Option.bind_eq_bind, Option.bind_some, lastFound, empty,
    guard_true]
  rfl

theorem Cleared.forget_indexed {combos : List KeyCombo} (cleared : Cleared keyboard kb next name combos) :
    Indexed { next with actions_ := Function.update next.actions_ name none } := by
  obtain ⟨last, lastFound, empty⟩ := cleared.cleared
  have indexed := cleared.indexed
  refine ⟨⟨?_, indexed.keysyms, indexed.nonempty⟩, ?_, indexed.single⟩
  · intro combo owner
    rw [indexed.actions]
    simp only [Function.update_apply]
    by_cases same : owner = name
    · simp [same, lastFound, empty]
    · simp only [if_neg same]
  · intro owner action owned
    simp only [Function.update_apply] at owned
    split at owned
    · exact nomatch owned
    · exact indexed.nodup owner action owned

theorem AddAction_indexed (indexed : kb.Indexed) (unknown : kb.actions_ name = none) :
    Indexed { kb with actions_ := Function.update kb.actions_ name (some {}) } := by
  refine ⟨⟨?_, indexed.keysyms, indexed.nonempty⟩, ?_, indexed.single⟩
  · intro combo owner
    rw [indexed.actions]
    simp only [Function.update_apply]
    by_cases same : owner = name
    · simp [same, unknown]
    · simp only [if_neg same]
  · intro owner action owned
    simp only [Function.update_apply] at owned
    split at owned
    · cases owned
      exact List.nodup_nil
    · exact indexed.nodup owner action owned

/-- What a caller must observe: actions have names, and an action gets one combination for a key. -/
def Distinct (keyboard : Keyboard) (kb : KeyBindings) : Call → Prop
  | .AddAction action_name => action_name ≠ ""
  | .RemoveAction _ => True
  | .AddBinding key_param modifiers_param action_name =>
    kb.bindings_ (keyboard.KeyCombo key_param modifiers_param) = none →
      ∀ action, kb.actions_ action_name = some action →
        ∀ other ∈ action.bindings, other.key ≠ (keyboard.KeyCombo key_param modifiers_param).key
  | .RemoveBinding _ _ => True

/-- The combinations of an action have other keys than a new one. -/
theorem Distinct.single {key_param : KeySym} {modifiers_param : UInt32} (indexed : kb.Indexed)
    (distinct : Distinct keyboard kb (.AddBinding key_param modifiers_param name))
    (free : kb.bindings_ (keyboard.KeyCombo key_param modifiers_param) = none)
    (found : kb.actions_ name = some action) (other : KeyCombo) (taken : kb.bindings_ other = some name) :
    other.key ≠ (keyboard.KeyCombo key_param modifiers_param).key := by
  obtain ⟨owner, owned, inside⟩ := (indexed.actions other name).mp taken
  obtain rfl : owner = action := Option.some.inj (owned.symm.trans found)
  exact distinct free owner found other inside

/-- An action is added with a name only, and nothing happens if there is one already. -/
theorem AddAction_eq_some {added : Bool} (returned : kb.AddAction name = some (added, next)) :
    name ≠ "" ∧ (next = kb ∨ kb.actions_ name = none ∧
      next = { kb with actions_ := Function.update kb.actions_ name (some {}) }) := by
  by_cases unnamed : name = ""
  · simp [AddAction, unnamed] at returned
  · refine ⟨unnamed, ?_⟩
    cases known : kb.actions_ name with
    | none =>
      simp only [AddAction, ne_eq, unnamed, not_false_eq_true, guard_true, known, Option.bind_eq_bind,
        Option.bind_some, pure, Option.some.injEq, Prod.mk.injEq] at returned
      exact .inr ⟨rfl, returned.2.symm⟩
    | some action =>
      simp only [AddAction, ne_eq, unnamed, not_false_eq_true, guard_true, known, Option.bind_eq_bind,
        Option.bind_some, pure, Option.some.injEq, Prod.mk.injEq] at returned
      exact .inl returned.2.symm

theorem step_indexed (call : Call) (indexed : kb.Indexed) (distinct : Distinct keyboard kb call) :
    ∃ next, kb.step keyboard call = some next ∧ next.Indexed := by
  cases call with
  | AddAction action_name =>
    have named : action_name ≠ "" := distinct
    cases known : kb.actions_ action_name with
    | none => exact ⟨_, by simp [step, AddAction, named, known], AddAction_indexed indexed known⟩
    | some action => exact ⟨kb, by simp [step, AddAction, named, known], indexed⟩
  | RemoveAction action_name =>
    cases known : kb.actions_ action_name with
    | none => exact ⟨kb, by simp [step, RemoveAction, known], indexed⟩
    | some action =>
      obtain ⟨middle, cleared, removed⟩ := RemoveAction_cleared keyboard indexed known
      exact ⟨_, by rw [step, removed]; rfl, cleared.forget_indexed⟩
  | AddBinding key_param modifiers_param action_name =>
    by_cases free : kb.bindings_ (keyboard.KeyCombo key_param modifiers_param) = none
    · cases known : kb.actions_ action_name with
      | none =>
        refine ⟨kb, ?_, indexed⟩
        rw [step, AddBinding_declined (.inr known)]
        rfl
      | some action =>
        have single := Distinct.single indexed distinct free known
        refine ⟨_, ?_, bound_indexed keyboard indexed free known single⟩
        rw [step, AddBinding_bound indexed free known single]
        rfl
    · refine ⟨kb, ?_, indexed⟩
      rw [step, AddBinding_declined (.inl free)]
      rfl
  | RemoveBinding key_param modifiers_param =>
    cases known : kb.bindings_ (keyboard.KeyCombo key_param modifiers_param) with
    | none => exact ⟨kb, by simp [step, RemoveBinding, known], indexed⟩
    | some name =>
      obtain ⟨action, names, found, -, listed, -, removed⟩ :=
        RemoveBinding_unbound keyboard indexed known
      exact ⟨_, by rw [step, removed]; rfl,
        unbound_indexed keyboard indexed known found listed⟩

theorem step_aborts (call : Call) (indexed : kb.Indexed) (clash : ¬ Distinct keyboard kb call) :
    kb.step keyboard call = none := by
  cases call with
  | AddAction action_name =>
    have unnamed : action_name = "" := not_not.mp clash
    simp [step, AddAction, unnamed]
  | RemoveAction action_name => exact absurd trivial clash
  | AddBinding key_param modifiers_param action_name =>
    simp only [Distinct, not_forall, not_not] at clash
    obtain ⟨free, action, found, other, inside, key⟩ := clash
    have taken := (indexed.actions other action_name).mpr ⟨action, found, inside⟩
    rw [step, AddBinding_aborts indexed free found taken key]
    rfl
  | RemoveBinding key_param modifiers_param => exact absurd trivial clash

/-- A keyboard whose keysyms are lowercase and whose key codes are their low bytes. -/
def plainKeyboard : Keyboard where
  XConvertCase := id
  GetKeyCodeFromKeySym := UInt64.toUInt8

end ChromiumOS.WindowManager.KeyBindings
