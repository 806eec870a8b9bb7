import ChromiumOS.ToMathlib.Overwrite

/-! # Marking a partition bootable

`set_bootable_flag_action.cc`. What the system calls reply is given beforehand, a failed call as `none` or
`false`, and a `read` or a `write` handles at most as many bytes as it was asked for. A run that needs more
turns of the loop in `WriteMbr` than allowed has not returned and is `none`.
-/

namespace ChromiumOS.UpdateEngine.SetBootableFlagAction

open Overwrite

/-- What the calls reply; the calls of `write` are counted from zero. -/
structure Replies where
  openRead : Bool
  read : Option ℕ
  openWrite : Bool
  write : ℕ → Option ℕ

/-- What became of the action: its success, the contents of the device, how many bytes of the table were
written, and the object set for the output pipe. -/
structure Outcome where
  success : Bool
  contents : List UInt8
  written : ℕ
  output : Option (List Char)
deriving DecidableEq, Repr

/-- The partition that a device name ends with, if it is a valid one. -/
def partitionNumber (device : List Char) : Option ℕ :=
  if device.length < 2 then none
  else
    let last_char := device.getD (device.length - 1) ' '
    let second_to_last_char := device.getD (device.length - 2) ' '
    if last_char < '1' ∨ last_char > '4' then none
    else if second_to_last_char ≥ '0' ∧ second_to_last_char ≤ '9' then none
    else some (last_char.toNat - '0'.toNat)

def ReadMbr (replies : Replies) (contents : List UInt8) (buffer_len : ℕ) : Option (List UInt8) :=
  if replies.openRead then
    match replies.read with
    | none => none
    | some count =>
      let buffer := contents.take (min count buffer_len)
      if buffer.length = buffer_len then some buffer else none
  else none

/-- The offset of a partition's flag, the partitions counted from zero. -/
def flagOffset (i : ℕ) : ℕ := 446 + 16 * i

/-- The table with a partition bootable and all others not. -/
def markBootable (mbr : List UInt8) (partition_number : ℕ) : List UInt8 :=
  (List.range 4).foldl
    (fun mbr i => mbr.set (flagOffset i) (if i + 1 = partition_number then 0x80 else 0)) mbr

/-- The loop of `WriteMbr`: whether all was written, the contents and how much was written. -/
def writeLoop (replies : Replies) (buffer : List UInt8) :
    ℕ → ℕ → ℕ → List UInt8 → Option (Bool × List UInt8 × ℕ)
  | 0, _, _, _ => none
  | turns + 1, call, bytes_written, contents =>
    if bytes_written < buffer.length then
      match replies.write call with
      | none => some (false, contents, bytes_written)
      | some count =>
        let r := min count (buffer.length - bytes_written)
        writeLoop replies buffer turns (call + 1) (bytes_written + r)
          (overwrite 0 contents bytes_written ((buffer.drop bytes_written).take r))
    else some (bytes_written == buffer.length, contents, bytes_written)

def WriteMbr (replies : Replies) (turns : ℕ) (buffer contents : List UInt8) :
    Option (Bool × List UInt8 × ℕ) :=
  if replies.openWrite then writeLoop replies buffer turns 0 0 contents else some (false, contents, 0)

/-- The action on an input object, if there is one, with an output pipe or without. -/
def PerformAction (replies : Replies) (input : Option (List Char)) (hasOutputPipe : Bool)
    (contents : List UInt8) (turns : ℕ) : Option Outcome :=
  let failed : Outcome := ⟨false, contents, 0, none⟩
  match input with
  | none => some failed
  | some [] => some failed
  | some device =>
    match partitionNumber device with
    | none => some failed
    | some partition_number =>
      match ReadMbr replies contents 512 with
      | none => some failed
      | some mbr =>
        if mbr.getD 510 0 ≠ 0x55 ∨ mbr.getD 511 0 ≠ 0xaa then some failed
        else
          (WriteMbr replies turns (markBootable mbr partition_number) contents).map fun (success, contents, written) =>
            ⟨success, contents, written, if success && hasOutputPipe then some device else none⟩

end ChromiumOS.UpdateEngine.SetBootableFlagAction
