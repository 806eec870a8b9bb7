import ChromiumOS.ToMathlib.TextSearch

/-! # String utilities of the update engine

`utils.cc` and the functions that read a value out of a text file. A string is the list of its characters,
a position that is `string::npos` is `none`, and a file that cannot be read has no content.
-/

namespace ChromiumOS.UpdateEngine.Utils

open TextSearch

def StringHasPrefix (str start : List Char) : Bool :=
  if start.length > str.length then false else str.take start.length == start

/-- One more than a position, which for `npos` wraps around. -/
def increment : Option ℕ → Option ℕ
  | none => some 0
  | some position => some (position + 1)

/-- The loop at the end of `BootDevice`, from the name of the device on. -/
def deviceName : List Char → List Char
  | [] => []
  | c :: rest => if c = ' ' then [] else c :: deviceName rest

/-- `BootDevice` with what `/proc/cmdline` reads as. -/
def BootDevice (proc_cmdline : Option (List Char)) : List Char :=
  match proc_cmdline with
  | none => []
  | some text =>
    let pos :=
      if StringHasPrefix text "root=".toList then some 0 else increment (find " root=".toList text)
    match pos with
    | none => []
    | some pos => deviceName (text.drop (pos + "root=".length))

def kStatefulPartition : List Char := "/mnt/stateful_partition".toList

section GetLsbValue

/-- `substr(pos, length)` -/
def substr (str : List Char) (pos : ℕ) : Option ℕ → List Char
  | none => str.drop pos
  | some length => (str.drop pos).take length

/-- `find` from a position on. -/
def findFrom (pattern str : List Char) (pos : ℕ) : Option ℕ :=
  (find pattern (str.drop pos)).map (· + pos)

variable (ReadFileToString : List Char → Option (List Char)) (key : List Char)

/-- The body of the loop in `GetLsbValue`, with no value when it continues. -/
def lsbValueOf (file_data : List Char) : Option (List Char) :=
  let pos :=
    if StringHasPrefix file_data (key ++ ['=']) then some 0
    else (find ('\n' :: key ++ ['=']) file_data).map (· + 1)
  match pos with
  | none => none
  | some pos =>
    let pos := pos + (key.length + 1)
    let endpos := findFrom ['\n'] file_data pos
    some (substr file_data pos (endpos.map (· - pos)))

def GetLsbValue (root_ : List Char) : List Char :=
  let files := [kStatefulPartition ++ "/etc/lsb-release".toList, "/etc/lsb-release".toList]
  (files.findSome? fun file => (ReadFileToString (root_ ++ file)).bind (lsbValueOf key)).getD []

end GetLsbValue

end ChromiumOS.UpdateEngine.Utils
