import ChromiumOS.Proofs.Autox.KeyboardMap

/-! # What the string command types

The events of a text are strokes, one for each keysym of the text in order, and a keyboard with the same mapping types
these keysyms. An escape that is not closed, names nothing or begins with another character ends the command.
-/

namespace ChromiumOS.Autox

open KeyboardMapping

/-- A keyboard: the keys that are down, whether Shift is down with no other key pressed since, and what was typed. -/
structure Keyboard where
  down : List KeyCode := []
  lone_shift : Bool := false
  typed : List KeySym := []

namespace Keyboard

variable (mapping : KeyboardMapping)

/-- Shift is held while a key is down that gives Shift_L. -/
def held (keyboard : Keyboard) : Bool := keyboard.down.any fun keycode => mapping.gives false keycode == XK_Shift_L

/-- A key that goes down types its keysym, and Shift when it comes up alone. A key that is down cannot be pressed. -/
def step (keyboard : Keyboard) (event : KeyEvent) : Keyboard :=
  if event.is_press then
    if event.keycode ∈ keyboard.down then keyboard
    else
      let keysym := mapping.gives (keyboard.held mapping) event.keycode
      { down := event.keycode :: keyboard.down
        lone_shift := keysym == XK_Shift_L
        typed := if keysym = XK_Shift_L ∨ keysym = NoSymbol then keyboard.typed else keyboard.typed ++ [keysym] }
  else if event.keycode ∈ keyboard.down then
    let lone := keyboard.lone_shift && mapping.gives false event.keycode == XK_Shift_L
    { down := keyboard.down.erase event.keycode
      lone_shift := keyboard.lone_shift && !lone
      typed := if lone then keyboard.typed ++ [XK_Shift_L] else keyboard.typed }
  else keyboard

/-- What a keyboard types for events, from the first to the last. -/
def typedBy (events : List KeyEvent) : List KeySym := (events.foldl (step mapping) {}).typed

end Keyboard

/-- Events that type keysyms: each by a key that is pressed and released before the next, with Shift held around it
only where no key gives the keysym without. -/
inductive Strokes (mapping : KeyboardMapping) : List KeySym → List KeyEvent → Prop where
  | nil : Strokes mapping [] []
  | plain {keysym : KeySym} {keysyms : List KeySym} {keycode : KeyCode} {events : List KeyEvent}
      (given : mapping.gives false keycode = keysym) (rest : Strokes mapping keysyms events) :
      Strokes mapping (keysym :: keysyms) (⟨keycode, true⟩ :: ⟨keycode, false⟩ :: events)
  | shifted {keysym : KeySym} {keysyms : List KeySym} {shift keycode : KeyCode} {events : List KeyEvent}
      (needed : ∀ other, mapping.gives false other ≠ keysym)
      (shift_key : mapping.gives false shift = XK_Shift_L) (apart : keycode ≠ shift)
      (given : mapping.gives true keycode = keysym) (rest : Strokes mapping keysyms events) :
      Strokes mapping (keysym :: keysyms)
        (⟨shift, true⟩ :: ⟨keycode, true⟩ :: ⟨keycode, false⟩ :: ⟨shift, false⟩ :: events)

/-- A text stands for keysyms. -/
inductive Parses (runner : ScriptRunner) : List Char → List KeySym → Prop where
  | nil : Parses runner [] []
  | plain {ch : Char} {keysym : KeySym} {text : List Char} {keysyms : List KeySym} (other : ch ≠ '\\')
      (known : runner.ConvertCharToKeySym ch = some keysym) (rest : Parses runner text keysyms) :
      Parses runner (ch :: text) (keysym :: keysyms)
  | backslash {text : List Char} {keysyms : List KeySym} (rest : Parses runner text keysyms) :
      Parses runner ('\\' :: '\\' :: text) (XK_backslash :: keysyms)
  | escape {name text : List Char} {keysyms : List KeySym} (named : name ≠ []) (closed : ')' ∉ name)
      (rest : Parses runner text keysyms) :
      Parses runner ('\\' :: '(' :: (name ++ ')' :: text))
        (runner.XStringToKeysym (ScriptRunner.c_str name) :: keysyms)

/-- What follows a backslash is no escape. -/
inductive BadEscape (runner : ScriptRunner) : List Char → Prop where
  | nothing : BadEscape runner []
  | other {ch : Char} {text : List Char} (not_backslash : ch ≠ '\\') (not_open : ch ≠ '(') :
      BadEscape runner (ch :: text)
  | unterminated {text : List Char} (unclosed : ')' ∉ text) : BadEscape runner ('(' :: text)
  | nameless {text : List Char} : BadEscape runner ('(' :: ')' :: text)
  | unknown {name text : List Char} (closed : ')' ∉ name)
      (symbol : runner.XStringToKeysym (ScriptRunner.c_str name) = NoSymbol) :
      BadEscape runner ('(' :: (name ++ ')' :: text))

/-- A text has a malformed escape behind characters and escapes. -/
inductive Malformed (runner : ScriptRunner) : List Char → Prop where
  | here {text : List Char} (bad : BadEscape runner text) : Malformed runner ('\\' :: text)
  | plain {ch : Char} {text : List Char} (other : ch ≠ '\\') (rest : Malformed runner text) :
      Malformed runner (ch :: text)
  | backslash {text : List Char} (rest : Malformed runner text) : Malformed runner ('\\' :: '\\' :: text)
  | escape {name text : List Char} (closed : ')' ∉ name) (rest : Malformed runner text) :
      Malformed runner ('\\' :: '(' :: (name ++ ')' :: text))

namespace Keyboard

variable {mapping : KeyboardMapping}

theorem step_tap {typed : List KeySym} {keycode : KeyCode} {keysym : KeySym} (known : keysym ≠ NoSymbol)
    (given : mapping.gives false keycode = keysym) :
    step mapping (step mapping ⟨[], false, typed⟩ ⟨keycode, true⟩) ⟨keycode, false⟩ =
      ⟨[], false, typed ++ [keysym]⟩ := by
  have up : held mapping ⟨[], false, typed⟩ = false := rfl
  have pressed : step mapping ⟨[], false, typed⟩ ⟨keycode, true⟩ =
      ⟨[keycode], keysym == XK_Shift_L, if keysym = XK_Shift_L then typed else typed ++ [keysym]⟩ := by
    simp [step, up, given, known]
  rw [pressed]
  by_cases shift : keysym = XK_Shift_L
  · simp [step, given, shift]
  · simp [step, given, shift]

theorem step_shifted {typed : List KeySym} {shift keycode : KeyCode} {keysym : KeySym} (known : keysym ≠ NoSymbol)
    (shift_key : mapping.gives false shift = XK_Shift_L) (apart : keycode ≠ shift)
    (other : keysym ≠ XK_Shift_L) (given : mapping.gives true keycode = keysym) :
    [⟨shift, true⟩, ⟨keycode, true⟩, ⟨keycode, false⟩, ⟨shift, false⟩].foldl (step mapping) ⟨[], false, typed⟩ =
      ⟨[], false, typed ++ [keysym]⟩ := by
  have first : step mapping ⟨[], false, typed⟩ ⟨shift, true⟩ = ⟨[shift], true, typed⟩ := by
    have up : held mapping ⟨[], false, typed⟩ = false := rfl
    simp [step, up, shift_key]
  have second : step mapping ⟨[shift], true, typed⟩ ⟨keycode, true⟩ =
      ⟨[keycode, shift], false, typed ++ [keysym]⟩ := by
    have down : held mapping ⟨[shift], true, typed⟩ = true := by simp [held, shift_key]
    simp [step, down, apart, given, other, known]
  have third : step mapping ⟨[keycode, shift], false, typed ++ [keysym]⟩ ⟨keycode, false⟩ =
      ⟨[shift], false, typed ++ [keysym]⟩ := by
    simp [step]
  have fourth : step mapping ⟨[shift], false, typed ++ [keysym]⟩ ⟨shift, false⟩ = ⟨[], false, typed ++ [keysym]⟩ := by
    simp [step]
  rw [List.foldl_cons, first, List.foldl_cons, second, List.foldl_cons, third, List.foldl_cons, fourth, List.foldl_nil]

/-- Strokes leave no key down and type their keysyms. -/
theorem foldl_strokes {keysyms : List KeySym} {events : List KeyEvent} (strokes : Strokes mapping keysyms events)
    (known : ∀ keysym ∈ keysyms, keysym ≠ NoSymbol) (typed : List KeySym) :
    events.foldl (step mapping) ⟨[], false, typed⟩ = ⟨[], false, typed ++ keysyms⟩ := by
  induction strokes generalizing typed with
  | nil => rw [List.append_nil, List.foldl_nil]
  | @plain keysym keysyms keycode events given rest ih =>
    rw [List.foldl_cons, List.foldl_cons, step_tap (known _ List.mem_cons_self) given,
      ih (fun other member => known other (List.mem_cons_of_mem _ member)), List.append_assoc]
    rfl
  | @shifted keysym keysyms shift keycode events needed shift_key apart given rest ih =>
    have other : keysym ≠ XK_Shift_L := fun equal => needed shift (shift_key.trans equal.symm)
    have stroke := @step_shifted _ typed _ _ _ (known _ List.mem_cons_self) shift_key apart other given
    change events.foldl (step mapping) ([⟨shift, true⟩, ⟨keycode, true⟩, ⟨keycode, false⟩, ⟨shift, false⟩].foldl
      (step mapping) ⟨[], false, typed⟩) = _
    rw [stroke, ih (fun other member => known other (List.mem_cons_of_mem _ member)), List.append_assoc]
    rfl

end Keyboard

namespace ScriptRunner

variable {runner : ScriptRunner} {keysym : KeySym} {keysyms : List KeySym} {ch : Char} {name text rest : List Char}
  {shift_keycode : KeyCode}

theorem ConvertEscaped_backslash (text : List Char) :
    runner.ConvertEscapedStringToKeySym ('\\' :: '\\' :: text) = some (XK_backslash, 2) := by
  rw [ConvertEscapedStringToKeySym, if_neg (by simp), if_neg (by simp)]
  exact if_pos rfl

theorem findIdx_closed (closed : ')' ∉ name) (text : List Char) :
    (name ++ ')' :: text).findIdx? (· = ')') = some name.length := by
  have none_there : name.findIdx? (fun ch => decide (ch = ')')) = none :=
    List.findIdx?_eq_none_iff.mpr fun ch member => decide_eq_false fun equal => closed (equal ▸ member)
  rw [List.findIdx?_append, none_there, List.findIdx?_cons, decide_eq_true rfl]
  simp

/-- An escape with a name ends behind it. -/
theorem ConvertEscaped_escape (closed : ')' ∉ name) (text : List Char) :
    runner.ConvertEscapedStringToKeySym ('\\' :: '(' :: (name ++ ')' :: text)) =
      if name = [] ∨ runner.XStringToKeysym (c_str name) = NoSymbol then none
      else some (runner.XStringToKeysym (c_str name), name.length + 3) := by
  have behind : ('\\' :: '(' :: (name ++ ')' :: text)).drop 2 = name ++ ')' :: text := rfl
  rw [ConvertEscapedStringToKeySym, if_neg (by simp), if_neg (by simp), if_neg (by simp), if_neg (by simp), behind,
    findIdx_closed closed]
  simp only [Nat.add_sub_cancel, List.take_left']
  by_cases empty : name = []
  · rw [if_pos (by rw [empty]; rfl), if_pos (.inl empty)]
  · have long : ¬ name.length + 2 = 2 := by
      have := List.length_pos_iff.mpr empty
      omega
    rw [if_neg long]
    by_cases unknown : runner.XStringToKeysym (c_str name) = NoSymbol
    · rw [if_pos unknown, if_pos (.inr unknown)]
    · rw [if_neg unknown, if_neg (by simp [empty, unknown])]

theorem ConvertEscaped_bad (bad : BadEscape runner text) :
    runner.ConvertEscapedStringToKeySym ('\\' :: text) = none := by
  cases bad with
  | nothing => rfl
  | @other ch text not_backslash not_open =>
    rw [ConvertEscapedStringToKeySym, if_neg (by simp), if_neg (by simp), if_neg (by simpa using not_backslash),
      if_pos (by simpa using not_open)]
  | @unterminated text unclosed =>
    have none_there : text.findIdx? (fun ch => decide (ch = ')')) = none :=
      List.findIdx?_eq_none_iff.mpr fun ch member => decide_eq_false fun equal => unclosed (equal ▸ member)
    have behind : ('\\' :: '(' :: text).drop 2 = text := rfl
    rw [ConvertEscapedStringToKeySym, if_neg (by simp), if_neg (by simp), if_neg (by simp), if_neg (by simp), behind,
      none_there]
  | @nameless text =>
    have closed : ')' ∉ ([] : List Char) := List.not_mem_nil
    exact (ConvertEscaped_escape closed text).trans (if_pos (.inl rfl))
  | @unknown name text closed symbol => exact (ConvertEscaped_escape closed text).trans (if_pos (.inr symbol))

theorem typeText_next {next : KeySym × ℕ} (found : runner.nextKeySym ch (ch :: rest) = some next)
    (positive : 1 ≤ next.2) :
    runner.typeText shift_keycode (ch :: rest) =
      (runner.typeKeySym shift_keycode next.1).bind fun events =>
        (runner.typeText shift_keycode ((ch :: rest).drop next.2)).map (events ++ ·) := by
  rw [typeText, found]
  exact dif_pos positive

/-- A text is not typed if the rest behind its first keysym is not. -/
theorem typeText_none
    (behind : ∀ next, runner.nextKeySym ch (ch :: rest) = some next →
      runner.typeText shift_keycode ((ch :: rest).drop next.2) = none) :
    runner.typeText shift_keycode (ch :: rest) = none := by
  cases found : runner.nextKeySym ch (ch :: rest) with
  | none => rw [typeText, found]
  | some next =>
    by_cases positive : 1 ≤ next.2
    · rw [typeText_next found positive, behind next found]
      cases runner.typeKeySym shift_keycode next.1 <;> rfl
    · rw [typeText, found]
      exact dif_neg positive

/-- A text with a malformed escape is not typed. -/
theorem typeText_malformed (malformed : Malformed runner text) : runner.typeText shift_keycode text = none := by
  induction malformed with
  | here bad =>
    refine typeText_none fun next found => ?_
    rw [nextKeySym, if_pos rfl, ConvertEscaped_bad bad] at found
    exact nomatch found
  | plain other rest ih =>
    refine typeText_none fun next found => ?_
    rw [nextKeySym, if_neg other] at found
    obtain ⟨keysym, -, equal⟩ := Option.map_eq_some_iff.mp found
    rw [← equal]
    exact ih
  | backslash rest ih =>
    refine typeText_none fun next found => ?_
    rw [nextKeySym, if_pos rfl, ConvertEscaped_backslash] at found
    cases found
    exact ih
  | @escape name text closed rest ih =>
    refine typeText_none fun next found => ?_
    rw [nextKeySym, if_pos rfl, ConvertEscaped_escape closed] at found
    split at found
    · exact nomatch found
    · cases found
      have behind : ('\\' :: '(' :: (name ++ ')' :: text)).drop (name.length + 3) = text := by
        simp
      rw [behind]
      exact ih

theorem GetKeyCodeForKeySym_eq {code : KeyCode × Bool} (found : LoadKeyboardMapping runner.mapping keysym = some code) :
    runner.GetKeyCodeForKeySym keysym = code.1 ∧ runner.KeySymRequiresShift keysym = code.2 := by
  rw [GetKeyCodeForKeySym, KeySymRequiresShift, keysyms_to_keycodes_, found]
  exact ⟨rfl, rfl⟩

/-- A key that gives a keysym has a keycode of the X server. -/
theorem keycode_ne_zero {mapping : KeyboardMapping} {held : Bool} {keycode : ℕ} (known : keysym ≠ NoSymbol)
    (given : mapping.gives held keycode = keysym) : keycode ≠ 0 := by
  obtain ⟨i, -, equal, -⟩ := gives_known known given
  have least := mapping.min_ge
  omega

/-- The Shift key of the runner carries no other keysym. -/
theorem shift_keycode_spec (shift : runner.mapping.PlainShift) :
    runner.mapping.gives false (runner.GetKeyCodeForKeySym XK_Shift_L) = XK_Shift_L ∧
      runner.mapping.gives true (runner.GetKeyCodeForKeySym XK_Shift_L) = NoSymbol := by
  obtain ⟨keycode, given, lone, first⟩ := shift
  have known : XK_Shift_L ≠ NoSymbol := by decide
  have occurs : runner.mapping.Occurs XK_Shift_L := ⟨known, false, keycode, given⟩
  obtain ⟨code, found⟩ := occurs.found
  rw [(GetKeyCodeForKeySym_eq found).1]
  obtain ⟨code, required⟩ := code
  cases required with
  | true => exact absurd given ((LoadKeyboardMapping_shifted known found).2 keycode)
  | false =>
    obtain ⟨given', first'⟩ := LoadKeyboardMapping_plain known found
    have same : code = keycode := by
      rcases lt_trichotomy code keycode with below | equal | above
      · exact absurd given' (first code below)
      · exact equal
      · exact absurd given (first' keycode above)
    rw [same]
    exact ⟨given, lone⟩

/-- The events for a keysym are a stroke. -/
theorem typeKeySym_spec (shift : runner.mapping.PlainShift) (occurs : runner.mapping.Occurs keysym) :
    ∃ stroke, runner.typeKeySym (runner.GetKeyCodeForKeySym XK_Shift_L) keysym = some stroke ∧
      ∀ keysyms events, Strokes runner.mapping keysyms events →
        Strokes runner.mapping (keysym :: keysyms) (stroke ++ events) := by
  obtain ⟨code, found⟩ := occurs.found
  obtain ⟨keycode, required⟩ := code
  have known := occurs.1
  obtain ⟨key, shifts⟩ := GetKeyCodeForKeySym_eq found
  obtain ⟨shift_key, lone⟩ := shift_keycode_spec shift
  cases required with
  | false =>
    have given := (LoadKeyboardMapping_plain known found).1
    refine ⟨[⟨keycode, true⟩, ⟨keycode, false⟩], ?_, fun keysyms events rest => .plain given rest⟩
    rw [typeKeySym, key, shifts]
    exact if_neg (keycode_ne_zero known given)
  | true =>
    obtain ⟨given, needed⟩ := LoadKeyboardMapping_shifted known found
    have apart : keycode ≠ runner.GetKeyCodeForKeySym XK_Shift_L := by
      intro equal
      rw [equal] at given
      exact known (given.symm.trans lone)
    refine ⟨[⟨_, true⟩, ⟨keycode, true⟩, ⟨keycode, false⟩, ⟨_, false⟩], ?_,
      fun keysyms events rest => .shifted needed shift_key apart given rest⟩
    rw [typeKeySym, key, shifts]
    exact if_neg (keycode_ne_zero known given)

/-- A text that stands for keysyms of the keyboard is typed by strokes. -/
theorem typeText_parses (shift : runner.mapping.PlainShift) (parses : Parses runner text keysyms)
    (occur : ∀ keysym ∈ keysyms, runner.mapping.Occurs keysym) :
    ∃ events, runner.typeText (runner.GetKeyCodeForKeySym XK_Shift_L) text = some events ∧
      Strokes runner.mapping keysyms events := by
  induction parses with
  | nil => exact ⟨[], by rw [typeText], .nil⟩
  | @plain ch keysym text keysyms other converted rest ih =>
    obtain ⟨events, typed, strokes⟩ := ih fun keysym member => occur keysym (List.mem_cons_of_mem _ member)
    obtain ⟨stroke, keyed, extends_⟩ := typeKeySym_spec shift (occur keysym List.mem_cons_self)
    have found : runner.nextKeySym ch (ch :: text) = some (keysym, 1) := by
      rw [nextKeySym, if_neg other, converted]
      rfl
    have behind : (ch :: text).drop 1 = text := rfl
    refine ⟨stroke ++ events, ?_, extends_ keysyms events strokes⟩
    rw [typeText_next found le_rfl, keyed, behind, typed]
    rfl
  | @backslash text keysyms rest ih =>
    obtain ⟨events, typed, strokes⟩ := ih fun keysym member => occur keysym (List.mem_cons_of_mem _ member)
    obtain ⟨stroke, keyed, extends_⟩ := typeKeySym_spec shift (occur XK_backslash List.mem_cons_self)
    have found : runner.nextKeySym '\\' ('\\' :: '\\' :: text) = some (XK_backslash, 2) := by
      rw [nextKeySym, if_pos rfl, ConvertEscaped_backslash]
    have behind : ('\\' :: '\\' :: text).drop 2 = text := rfl
    refine ⟨stroke ++ events, ?_, extends_ keysyms events strokes⟩
    rw [typeText_next found (by decide), keyed, behind, typed]
    rfl
  | @escape name text keysyms named closed rest ih =>
    obtain ⟨events, typed, strokes⟩ := ih fun keysym member => occur keysym (List.mem_cons_of_mem _ member)
    have here := occur (runner.XStringToKeysym (c_str name)) List.mem_cons_self
    obtain ⟨stroke, keyed, extends_⟩ := typeKeySym_spec shift here
    have bad : ¬ (name = [] ∨ runner.XStringToKeysym (c_str name) = NoSymbol) := fun bad =>
      bad.elim named here.1
    have found : runner.nextKeySym '\\' ('\\' :: '(' :: (name ++ ')' :: text)) =
        some (runner.XStringToKeysym (c_str name), name.length + 3) := by
      rw [nextKeySym, if_pos rfl, ConvertEscaped_escape closed, if_neg bad]
    have behind : ('\\' :: '(' :: (name ++ ')' :: text)).drop (name.length + 3) = text := by
      simp
    refine ⟨stroke ++ events, ?_, extends_ keysyms events strokes⟩
    rw [typeText_next found (Nat.le_add_left 1 _), keyed, behind, typed]
    rfl

theorem HandleStringCommand_eq (shift : runner.mapping.PlainShift) (text : List Char) :
    runner.HandleStringCommand text = runner.typeText (runner.GetKeyCodeForKeySym XK_Shift_L) text := by
  have shift_key := (shift_keycode_spec shift).1
  rw [HandleStringCommand]
  exact if_neg (keycode_ne_zero (by decide) shift_key)

theorem HandleStringCommand_none
    (untyped : runner.typeText (runner.GetKeyCodeForKeySym XK_Shift_L) text = none) :
    runner.HandleStringCommand text = none := by
  rw [HandleStringCommand]
  split
  · rfl
  · exact untyped

end ScriptRunner

section Keyboards

/-- The names of letters and digits are the names of their keysyms. -/
def letterKeysym (name : List Char) : KeySym :=
  match name with
  | [ch] => if ch.isAlphanum then ch.toNat else NoSymbol
  | _ => NoSymbol

/-- A key for Shift and one for the backquote and the tilde. -/
def twoKeys : KeyboardMapping where
  min_keycode := 8
  num_keycodes := 2
  keysyms_per_keycode := 2
  keysyms := [XK_Shift_L, NoSymbol, 0x60, 0x7e]
  min_ge := le_rfl
  max_le := by decide
  one_keysym := by decide

/-- Two keys for Shift, the first of which gives a letter as well. -/
def twoShifts : KeyboardMapping where
  min_keycode := 8
  num_keycodes := 2
  keysyms_per_keycode := 2
  keysyms := [XK_Shift_L, 0x42, XK_Shift_L, NoSymbol]
  min_ge := le_rfl
  max_le := by decide
  one_keysym := by decide

def backquote : Char := Char.ofNat 96

theorem twoKeys_shift : twoKeys.PlainShift := by
  refine ⟨8, rfl, rfl, fun earlier below given => ?_⟩
  obtain ⟨i, -, equal, -⟩ := KeyboardMapping.gives_known (by decide) given
  have least := twoKeys.min_ge
  omega

end Keyboards

end ChromiumOS.Autox
