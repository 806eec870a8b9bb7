import ChromiumOS.Model.UpdateEngine.Utils

/-! # Values looked up in text files

`GetLsbValue` finds the first line that starts with the key and an equals sign, in the first of the two files
that has one. `BootDevice` finds the first token that starts with `root=`, but it takes the end of the line
with the last token, and when there is no such token it goes on from the sixth character.
-/

namespace ChromiumOS.UpdateEngine.Utils

open TextSearch

@[simp] theorem StringHasPrefix_iff {str start : List Char} : StringHasPrefix str start = true ↔ start <+: str := by
  rw [StringHasPrefix]
  split
  · next longer =>
    constructor
    · exact fun absurd => (Bool.false_ne_true absurd).elim
    · intro starts
      exact absurd starts.length_le (Nat.not_le.mpr longer)
  · rw [beq_iff_eq, eq_comm, List.prefix_iff_eq_take]

section Lines

theorem find_char (char : Char) (text : List Char) :
    (find [char] text).elim text text.take = text.takeWhile (· ≠ char) := by
  induction text with
  | nil => rfl
  | cons head text ih =>
    rw [find, List.takeWhile_cons]
    by_cases same : char = head
    · rw [if_pos (List.cons_prefix_cons.mpr ⟨same, List.nil_prefix⟩)]
      simp [same]
    · rw [if_neg (fun starts => same (List.cons_prefix_cons.mp starts).1), ← ih]
      cases find [char] text <;> simp [Ne.symm same]

theorem substr_to_newline (file_data : List Char) (pos : ℕ) :
    substr file_data pos ((findFrom ['\n'] file_data pos).map (· - pos)) = fieldAt '\n' file_data pos := by
  rw [fieldAt, ← find_char, findFrom]
  cases find ['\n'] (file_data.drop pos) with
  | none => rfl
  | some length => simp [substr]

/-- The value in a file is that of the first line that starts with the key and an equals sign. -/
theorem lsbValueOf_eq {key : List Char} (oneLine : '\n' ∉ key) (file_data : List Char) :
    lsbValueOf key file_data = valueOf (key ++ ['=']) (file_data.splitOn '\n') := by
  have clear : '\n' ∉ key ++ ['='] := by simp [oneLine]
  rw [← startOf_value clear, lsbValueOf, startOf]
  simp only [StringHasPrefix_iff, List.cons_append, substr_to_newline]
  split <;> simp_all

/-- `GetLsbValue` returns the value in the stateful partition's file, or else the one in the root's. -/
theorem GetLsbValue_eq (ReadFileToString : List Char → Option (List Char)) (root_ : List Char) {key : List Char}
    (oneLine : '\n' ∉ key) :
    GetLsbValue ReadFileToString key root_ =
      let valueIn (file : List Char) := (ReadFileToString (root_ ++ file)).bind fun file_data =>
        valueOf (key ++ ['=']) (file_data.splitOn '\n')
      ((valueIn (kStatefulPartition ++ "/etc/lsb-release".toList)).or
        (valueIn "/etc/lsb-release".toList)).getD [] := by
  have found (file : List Char) : (ReadFileToString (root_ ++ file)).bind (lsbValueOf key) =
      (ReadFileToString (root_ ++ file)).bind fun file_data =>
        valueOf (key ++ ['=']) (file_data.splitOn '\n') :=
    congrArg _ (funext (lsbValueOf_eq oneLine))
  rw [GetLsbValue]
  simp only [List.findSome?_cons, List.findSome?_nil, found]
  generalize (ReadFileToString (root_ ++ (kStatefulPartition ++ _))).bind _ = stateful
  generalize (ReadFileToString (root_ ++ _)).bind _ = rootfs
  cases stateful with
  | none => cases rootfs <;> rfl
  | some value => rfl

/-- A board that only the root's file names, after a longer key and the key inside a line. -/
theorem GetLsbValue_board :
    GetLsbValue (fun path =>
      if path = "/etc/lsb-release".toList then some "MY_BOARD=x\n#BOARD=y\nBOARD=z".toList else none)
      "BOARD".toList [] = "z".toList := by
  rw [GetLsbValue_eq _ _ (by decide)]
  decide +kernel

end Lines

section BootDevice

/-- The key that `BootDevice` looks for. -/
def rootKey : List Char := "root=".toList

/-- A kernel command line with some tokens. -/
def commandLine (tokens : List (List Char)) : List Char := [' '].intercalate tokens ++ ['\n']

/-- Some token before the last one starts with `root=`, or none does and what is read from the sixth
character on is empty. -/
def RootLegible (tokens : List (List Char)) : Prop :=
  (∃ token ∈ tokens.dropLast, rootKey <+: token) ∨
    (∀ token ∈ tokens, ¬ rootKey <+: token) ∧ (commandLine tokens)[5]?.getD ' ' = ' '

theorem deviceName_eq (rest : List Char) : deviceName rest = rest.takeWhile (· ≠ ' ') := by
  induction rest with
  | nil => rfl
  | cons c rest ih =>
    rw [deviceName, List.takeWhile_cons, ih]
    by_cases space : c = ' ' <;> simp [space]

theorem BootDevice_eq (text : List Char) :
    BootDevice (some text) = (valueOf rootKey (text.splitOn ' ')).getD (fieldAt ' ' text 5) := by
  have clear : ' ' ∉ rootKey := by decide
  have spaced : " root=".toList = ' ' :: rootKey := by decide
  have whole : "root=".toList = rootKey := rfl
  rw [← startOf_value clear, startOf, BootDevice, spaced, whole]
  simp only [StringHasPrefix_iff, deviceName_eq]
  split_ifs
  · rfl
  · cases find (' ' :: rootKey) text <;> rfl

/-- The newline stays with the last token. -/
theorem commandLine_splitOn {before : List (List Char)} {last : List Char}
    (separated : ∀ token ∈ before ++ [last], ' ' ∉ token) :
    (commandLine (before ++ [last])).splitOn ' ' = before ++ [last ++ ['\n']] := by
  have joined : commandLine (before ++ [last]) = [' '].intercalate (before ++ [last ++ ['\n']]) := by
    rw [commandLine]
    clear separated
    induction before with
    | nil => simp
    | cons token before ih =>
      rw [List.cons_append, List.intercalate_cons_of_ne_nil (by simp), List.append_assoc, ih, List.cons_append,
        List.intercalate_cons_of_ne_nil (by simp)]
  rw [joined]
  apply List.splitOn_intercalate
  · intro token member
    rcases List.mem_append.mp member with early | late
    · exact separated token (List.mem_append_left _ early)
    · rw [List.mem_singleton.mp late, List.mem_append]
      rintro (inside | newline)
      · exact separated last (by simp) inside
      · revert newline
        decide
  · simp

theorem isPrefix_newline {key token : List Char} (clear : '\n' ∉ key) :
    key <+: token ++ ['\n'] ↔ key <+: token := by
  rw [List.prefix_concat_iff, or_iff_right]
  rintro rfl
  simp at clear

/-- `BootDevice` returns the value of the first token that starts with `root=` exactly when the line is
legible. -/
theorem BootDevice_iff {tokens : List (List Char)} (separated : ∀ token ∈ tokens, ' ' ∉ token) :
    BootDevice (some (commandLine tokens)) = (valueOf rootKey tokens).getD [] ↔ RootLegible tokens := by
  have clear : '\n' ∉ rootKey := by decide
  have sixth : fieldAt ' ' (commandLine tokens) 5 = [] ↔ (commandLine tokens)[5]?.getD ' ' = ' ' := by
    rw [fieldAt, ← List.head?_drop]
    cases (commandLine tokens).drop 5 <;> simp
  rcases List.eq_nil_or_concat' tokens with rfl | ⟨before, last, rfl⟩
  · exact iff_of_true (by decide) (.inr ⟨by simp, by decide⟩)
  rw [RootLegible, ← sixth, BootDevice_eq, commandLine_splitOn separated, valueOf_append, valueOf_append,
    List.dropLast_concat]
  cases early : valueOf rootKey before with
  | some value =>
    apply iff_of_true rfl
    apply Or.inl
    by_contra absent
    rw [valueOf_eq_none.mpr fun token member starts => absent ⟨token, member, starts⟩] at early
    cases early
  | none =>
    have absent := valueOf_eq_none.mp early
    rw [Option.none_or, Option.none_or, valueOf_cons, valueOf_cons]
    by_cases starts : rootKey <+: last
    · rw [if_pos starts, if_pos ((isPrefix_newline clear).mpr starts)]
      apply iff_of_false
      · rw [Option.getD_some, Option.getD_some, List.drop_append_of_le_length starts.length_le]
        simp
      · rintro (⟨token, member, other⟩ | ⟨none, -⟩)
        · exact absent token member other
        · exact none last (by simp) starts
    · rw [if_neg starts, if_neg (starts ∘ (isPrefix_newline clear).mp)]
      have noEarlier : ¬ ∃ token ∈ before, rootKey <+: token := by
        rintro ⟨token, member, other⟩
        exact absent token member other
      rw [or_iff_right noEarlier]
      apply (and_iff_right _).symm
      intro token member
      rcases List.mem_append.mp member with early | late
      · exact absent token early
      · rw [List.mem_singleton.mp late]
        exact starts

/-- A command line with the device in the middle, after a token that merely contains `root=`. -/
theorem BootDevice_middle :
    BootDevice (some (commandLine ["myroot=x".toList, "root=/dev/sda3".toList, "ro".toList])) =
      "/dev/sda3".toList := by
  apply (BootDevice_iff (by decide)).mpr
  exact .inl ⟨"root=/dev/sda3".toList, by decide, by decide⟩

/-- With the last token comes the newline, and a line without a device is read from its middle. -/
theorem BootDevice_newline :
    BootDevice (some (commandLine ["root=/dev/sda3".toList])) = "/dev/sda3\n".toList ∧
      valueOf rootKey ["root=/dev/sda3".toList] = some "/dev/sda3".toList ∧
      BootDevice (some (commandLine ["console=tty2".toList, "quiet".toList])) = "le=tty2".toList ∧
      valueOf rootKey ["console=tty2".toList, "quiet".toList] = none := by
  decide

end BootDevice

end ChromiumOS.UpdateEngine.Utils
