import Mathlib

/-! # Scripts that type text

The `string` command of `script_runner.cc`: a text with escapes is turned into events of keys, with the help of a map
from keysyms to keycodes that is built from the mapping of the X server. Text is the list of its bytes, written as
characters. A failed `CHECK` is `none`.
-/

namespace ChromiumOS.Autox

abbrev KeySym := ℕ
abbrev KeyCode := ℕ

def NoSymbol : KeySym := 0
def XK_backslash : KeySym := 0x5c
def XK_Shift_L : KeySym := 0xffe1

/-- What `XGetKeyboardMapping` returns, for the keycodes that X has. -/
structure KeyboardMapping where
  min_keycode : ℕ
  num_keycodes : ℕ
  keysyms_per_keycode : ℕ
  keysyms : List KeySym
  min_ge : 8 ≤ min_keycode
  max_le : min_keycode + num_keycodes ≤ 256
  one_keysym : 1 ≤ keysyms_per_keycode

/-- The keysym of a key in a column. -/
def KeyboardMapping.keysym (mapping : KeyboardMapping) (i j : ℕ) : KeySym :=
  mapping.keysyms.getD (i * mapping.keysyms_per_keycode + j) NoSymbol

/-- The keycode for a keysym, and whether Shift is required. -/
abbrev KeyCodes := KeySym → Option (KeyCode × Bool)

/-- The inner loop of `LoadKeyboardMapping`. -/
def loadKeySym (mapping : KeyboardMapping) (i : ℕ) (keysyms_to_keycodes : KeyCodes) (j : ℕ) : KeyCodes :=
  let keysym := mapping.keysym i j
  if j > 1 then keysyms_to_keycodes
  else if keysym = NoSymbol then keysyms_to_keycodes
  else if (keysyms_to_keycodes keysym).any fun found => !found.2 || j != 0 then keysyms_to_keycodes
  else Function.update keysyms_to_keycodes keysym (some (mapping.min_keycode + i, j == 1))

def loadKeyCode (mapping : KeyboardMapping) (keysyms_to_keycodes : KeyCodes) (i : ℕ) : KeyCodes :=
  (List.range mapping.keysyms_per_keycode).foldl (loadKeySym mapping i) keysyms_to_keycodes

def LoadKeyboardMapping (mapping : KeyboardMapping) : KeyCodes :=
  (List.range mapping.num_keycodes).foldl (loadKeyCode mapping) fun _ => none

/-- The keysyms of the characters that are not alphanumeric. -/
def chars_to_keysyms_ : List (Char × KeySym) :=
  [(' ', 0x20), ('\n', 0xff0d), ('\t', 0xff09), ('~', 0x7e), ('!', 0x21), ('@', 0x40), ('#', 0x23), ('$', 0x24),
    ('%', 0x25), ('^', 0x5e), ('&', 0x26), ('*', 0x2a), ('(', 0x28), (')', 0x29), ('-', 0x2d), ('_', 0x5f),
    ('+', 0x2b), ('=', 0x3d), ('{', 0x7b), ('[', 0x5b), ('}', 0x7d), (']', 0x5d), ('|', 0x7c), (':', 0x3a),
    (';', 0x3b), ('"', 0x22), ('\'', 0x27), (',', 0x2c), ('<', 0x3c), ('.', 0x2e), ('>', 0x3e), ('/', 0x2f),
    ('?', 0x3f)]

/-- An event of a key. -/
structure KeyEvent where
  keycode : KeyCode
  is_press : Bool
deriving DecidableEq, Repr

/-- A runner of scripts, with the keysyms that the X library has for names. -/
structure ScriptRunner where
  XStringToKeysym : List Char → KeySym
  mapping : KeyboardMapping

namespace ScriptRunner

variable (runner : ScriptRunner)

def keysyms_to_keycodes_ : KeyCodes := LoadKeyboardMapping runner.mapping

/-- The text of `c_str`, up to the first NUL. -/
def c_str (text : List Char) : List Char := text.takeWhile (· ≠ Char.ofNat 0)

/-- The keysym of an escape at the start of a text, and the number of characters of the escape. -/
def ConvertEscapedStringToKeySym (escaped_str : List Char) : Option (KeySym × ℕ) :=
  if escaped_str.head? ≠ some '\\' then none
  else if escaped_str.length < 2 then none
  else if escaped_str[1]? = some '\\' then some (XK_backslash, 2)
  else if escaped_str[1]? ≠ some '(' then none
  else
    match (escaped_str.drop 2).findIdx? (· = ')') with
    | none => none
    | some found =>
      let end_pos := found + 2
      if end_pos = 2 then none
      else
        let keysym := runner.XStringToKeysym (c_str ((escaped_str.drop 2).take (end_pos - 2)))
        if keysym = NoSymbol then none else some (keysym, end_pos + 1)

/-- The keysym of a character; the check of a letter's keysym tests a pointer and is always true. -/
def ConvertCharToKeySym (ch : Char) : Option KeySym :=
  if ch.isAlphanum then some (runner.XStringToKeysym [ch]) else chars_to_keysyms_.lookup ch

def KeySymRequiresShift (keysym : KeySym) : Bool := (runner.keysyms_to_keycodes_ keysym).any (·.2)

def GetKeyCodeForKeySym (keysym : KeySym) : KeyCode := ((runner.keysyms_to_keycodes_ keysym).map (·.1)).getD 0

/-- The first keysym of a text, and the number of characters to go on by. -/
def nextKeySym (ch : Char) (text : List Char) : Option (KeySym × ℕ) :=
  if ch = '\\' then runner.ConvertEscapedStringToKeySym text
  else (runner.ConvertCharToKeySym ch).map fun keysym => (keysym, 1)

/-- The events for a keysym. -/
def typeKeySym (shift_keycode : KeyCode) (keysym : KeySym) : Option (List KeyEvent) :=
  let keycode := runner.GetKeyCodeForKeySym keysym
  let shift_required := runner.KeySymRequiresShift keysym
  if keycode = 0 then none
  else some
    ((if shift_required then [⟨shift_keycode, true⟩] else []) ++ [⟨keycode, true⟩, ⟨keycode, false⟩] ++
      if shift_required then [⟨shift_keycode, false⟩] else [])

/-- The loop of `HandleStringCommand`, over what is left of the text. -/
def typeText (shift_keycode : KeyCode) : List Char → Option (List KeyEvent)
  | [] => some []
  | ch :: rest =>
    match runner.nextKeySym ch (ch :: rest) with
    | none => none
    | some next =>
      if _ : 1 ≤ next.2 then
        (runner.typeKeySym shift_keycode next.1).bind fun events =>
          (typeText shift_keycode ((ch :: rest).drop next.2)).map (events ++ ·)
      else none
termination_by text => text.length
decreasing_by
  rw [List.length_drop, List.length_cons]
  omega

def HandleStringCommand (text : List Char) : Option (List KeyEvent) :=
  let shift_keycode := runner.GetKeyCodeForKeySym XK_Shift_L
  if shift_keycode = 0 then none else runner.typeText shift_keycode text

end ScriptRunner

end ChromiumOS.Autox
