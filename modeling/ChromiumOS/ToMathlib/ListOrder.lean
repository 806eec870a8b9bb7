import Mathlib

/-! # Moving an item within a list

Putting an item directly before another one, and what comes directly after an item. In a list without
duplicates these describe each other: an item that is taken out goes back before the one that came
after it. One item comes before another one when the two are a sublist.
-/

namespace ChromiumOS.ListOrder

variable {α : Type*} [DecidableEq α]

/-- Put an item directly before another one, if that is there. -/
def insertBefore (item other : α) : List α → List α
  | [] => []
  | head :: rest => if head = other then item :: head :: rest else head :: insertBefore item other rest

/-- Put an item directly after another one, if that is there. -/
def insertAfter (item other : α) : List α → List α
  | [] => []
  | head :: rest => if head = other then head :: item :: rest else head :: insertAfter item other rest

/-- What comes directly after an item. -/
def next (item : α) : List α → Option α
  | [] => none
  | head :: rest => if head = item then rest.head? else next item rest

theorem insertBefore_append (item : α) {other : α} {before : List α} (absent : other ∉ before)
    (after : List α) :
    insertBefore item other (before ++ other :: after) = before ++ item :: other :: after := by
  induction before with
  | nil => rw [List.nil_append, insertBefore, if_pos rfl, List.nil_append]
  | cons head rest ih =>
    have elsewhere : head ≠ other := fun same => absent (same ▸ List.mem_cons_self)
    rw [List.cons_append, insertBefore, if_neg elsewhere,
      ih fun member => absent (List.mem_cons_of_mem head member), List.cons_append]

theorem insertBefore_perm (item : α) {other : α} {list : List α} (present : other ∈ list) :
    (insertBefore item other list).Perm (item :: list) := by
  induction list with
  | nil => cases present
  | cons head rest ih =>
    rw [insertBefore]
    split
    · exact .refl _
    · next elsewhere =>
      have later := ih ((List.mem_cons.mp present).resolve_left (Ne.symm elsewhere))
      exact (later.cons head).trans (.swap item head rest)

theorem insertAfter_perm (item : α) {other : α} {list : List α} (present : other ∈ list) :
    (insertAfter item other list).Perm (item :: list) := by
  induction list with
  | nil => cases present
  | cons head rest ih =>
    rw [insertAfter]
    split
    · exact .swap item head rest
    · next elsewhere =>
      have later := ih ((List.mem_cons.mp present).resolve_left (Ne.symm elsewhere))
      exact (later.cons head).trans (.swap item head rest)

theorem filter_insertBefore {keep : α → Bool} {item : α} (dropped : keep item = false) (other : α)
    (list : List α) : (insertBefore item other list).filter keep = list.filter keep := by
  induction list with
  | nil => rfl
  | cons head rest ih =>
    rw [insertBefore]
    split
    · exact List.filter_cons_of_neg (by rw [dropped]; exact Bool.false_ne_true)
    · rw [List.filter_cons, List.filter_cons, ih]

theorem filter_insertAfter {keep : α → Bool} {item : α} (dropped : keep item = false) (other : α)
    (list : List α) : (insertAfter item other list).filter keep = list.filter keep := by
  induction list with
  | nil => rfl
  | cons head rest ih =>
    rw [insertAfter]
    split
    · rw [List.filter_cons, List.filter_cons, dropped, List.filter_cons]
      simp only [Bool.false_eq_true, if_false]
    · rw [List.filter_cons, List.filter_cons, ih]

theorem filter_erase {keep : α → Bool} {item : α} (dropped : keep item = false) (list : List α) :
    (list.erase item).filter keep = list.filter keep := by
  induction list with
  | nil => rfl
  | cons head rest ih =>
    rw [List.erase_cons]
    split
    · next same =>
      obtain rfl := eq_of_beq same
      exact (List.filter_cons_of_neg (by rw [dropped]; exact Bool.false_ne_true)).symm
    · rw [List.filter_cons, List.filter_cons, ih]

theorem mem_of_next {item other : α} {list : List α} (after : next item list = some other) :
    item ∈ list ∧ other ∈ list := by
  induction list with
  | nil => cases after
  | cons head rest ih =>
    rw [next] at after
    split at after
    · next same =>
      exact ⟨same ▸ List.mem_cons_self, List.mem_cons_of_mem head (List.mem_of_mem_head? after)⟩
    · exact ⟨List.mem_cons_of_mem head (ih after).1, List.mem_cons_of_mem head (ih after).2⟩

/-- An item goes back to its place before the one that came after it. -/
theorem insertBefore_erase_of_next {item other : α} {list : List α} (nodup : list.Nodup)
    (after : next item list = some other) : insertBefore item other (list.erase item) = list := by
  induction list with
  | nil => cases after
  | cons head rest ih =>
    obtain ⟨fresh, nodup⟩ := List.nodup_cons.mp nodup
    rw [next] at after
    split at after
    · next same =>
      obtain rfl := same
      obtain ⟨rest, rfl⟩ := List.head?_eq_some_iff.mp after
      rw [List.erase_cons_head, insertBefore, if_pos rfl]
    · next elsewhere =>
      have present := (mem_of_next after).2
      have different : head ≠ other := fun same => fresh (same ▸ present)
      rw [List.erase_cons_tail (by simpa using elsewhere), insertBefore, if_neg different, ih nodup after]

/-- An item that nothing comes after is the last one. -/
theorem erase_append_of_next_none {item : α} {list : List α} (nodup : list.Nodup) (present : item ∈ list)
    (last : next item list = none) : list.erase item ++ [item] = list := by
  induction list with
  | nil => cases present
  | cons head rest ih =>
    obtain ⟨-, nodup⟩ := List.nodup_cons.mp nodup
    rw [next] at last
    split at last
    · next same =>
      obtain rfl := same
      rw [List.head?_eq_none_iff] at last
      rw [last, List.erase_cons_head, List.nil_append]
    · next elsewhere =>
      have later := (List.mem_cons.mp present).resolve_left (Ne.symm elsewhere)
      rw [List.erase_cons_tail (by simpa using elsewhere), List.cons_append, ih nodup later last]

section Map

variable {β : Type*} [DecidableEq β] {f : α → β} {item other : α} {list : List α}

theorem map_insertBefore (item : α) (distinct : ∀ entry ∈ list, f entry = f other → entry = other) :
    (insertBefore item other list).map f = insertBefore (f item) (f other) (list.map f) := by
  induction list with
  | nil => rfl
  | cons head rest ih =>
    have later := ih fun entry member => distinct entry (List.mem_cons_of_mem head member)
    rw [insertBefore, List.map_cons, insertBefore]
    by_cases same : head = other
    · rw [if_pos same, if_pos (congrArg f same), List.map_cons, List.map_cons]
    · rw [if_neg same, if_neg fun equal => same (distinct head List.mem_cons_self equal), List.map_cons, later]

theorem map_next (distinct : ∀ entry ∈ list, f entry = f item → entry = item) :
    (next item list).map f = next (f item) (list.map f) := by
  induction list with
  | nil => rfl
  | cons head rest ih =>
    have later := ih fun entry member => distinct entry (List.mem_cons_of_mem head member)
    rw [next, List.map_cons, next]
    by_cases same : head = item
    · rw [if_pos same, if_pos (congrArg f same), List.head?_map]
    · rw [if_neg same, if_neg fun equal => same (distinct head List.mem_cons_self equal), later]

omit [DecidableEq α] in
theorem map_erase [BEq α] [LawfulBEq α] (distinct : ∀ entry ∈ list, f entry = f item → entry = item) :
    (list.erase item).map f = (list.map f).erase (f item) := by
  induction list with
  | nil => rfl
  | cons head rest ih =>
    have later := ih fun entry member => distinct entry (List.mem_cons_of_mem head member)
    by_cases same : head = item
    · rw [same, List.erase_cons_head, List.map_cons, List.erase_cons_head]
    · have differs : f head ≠ f item := fun equal => same (distinct head List.mem_cons_self equal)
      rw [List.erase_cons_tail (by simpa using same), List.map_cons, List.map_cons,
        List.erase_cons_tail (by simpa using differs), later]

end Map

section Insertion

variable {item other : α} {list : List α}

/-- Directly after an item is directly before the one that came after it. -/
theorem insertBefore_next {after : α} (nodup : list.Nodup) (follows : next other list = some after) :
    insertBefore item after list = insertAfter item other list := by
  induction list with
  | nil => cases follows
  | cons head rest ih =>
    obtain ⟨fresh, nodup⟩ := List.nodup_cons.mp nodup
    rw [next] at follows
    rw [insertBefore, insertAfter]
    split at follows
    · next same =>
      obtain ⟨rest, rfl⟩ := List.head?_eq_some_iff.mp follows
      have differs : head ≠ after := fun equal => fresh (equal ▸ List.mem_cons_self)
      rw [if_neg differs, if_pos same, insertBefore, if_pos rfl]
    · next elsewhere =>
      have differs : head ≠ after := fun equal => fresh (equal ▸ (mem_of_next follows).2)
      rw [if_neg differs, if_neg elsewhere, ih nodup follows]

/-- Directly after the last item is at the end. -/
theorem append_of_next_none (nodup : list.Nodup) (present : other ∈ list) (last : next other list = none) :
    list ++ [item] = insertAfter item other list := by
  induction list with
  | nil => cases present
  | cons head rest ih =>
    obtain ⟨-, nodup⟩ := List.nodup_cons.mp nodup
    rw [next] at last
    rw [insertAfter]
    split at last
    · next same =>
      rw [List.head?_eq_none_iff] at last
      rw [if_pos same, last, List.singleton_append]
    · next elsewhere =>
      have later := (List.mem_cons.mp present).resolve_left (Ne.symm elsewhere)
      rw [if_neg elsewhere, List.cons_append, ih nodup later last]

theorem next_of_absent (absent : item ∉ list) : next item list = none := by
  induction list with
  | nil => rfl
  | cons head rest ih =>
    obtain ⟨elsewhere, later⟩ := not_or.mp (List.mem_cons.not.mp absent)
    rw [next, if_neg (Ne.symm elsewhere), ih later]

/-- Taking a new item out again leaves the list. -/
theorem erase_insertBefore (absent : item ∉ list) (present : other ∈ list) :
    (insertBefore item other list).erase item = list := by
  induction list with
  | nil => cases present
  | cons head rest ih =>
    obtain ⟨elsewhere, later⟩ := not_or.mp (List.mem_cons.not.mp absent)
    rw [insertBefore]
    split
    · rw [List.erase_cons_head]
    · next different =>
      have inside := (List.mem_cons.mp present).resolve_left (Ne.symm different)
      rw [List.erase_cons_tail (by simpa using Ne.symm elsewhere), ih later inside]

theorem erase_insertAfter (absent : item ∉ list) (present : other ∈ list) :
    (insertAfter item other list).erase item = list := by
  induction list with
  | nil => cases present
  | cons head rest ih =>
    obtain ⟨elsewhere, later⟩ := not_or.mp (List.mem_cons.not.mp absent)
    rw [insertAfter]
    split
    · rw [List.erase_cons_tail (by simpa using Ne.symm elsewhere), List.erase_cons_head]
    · next different =>
      have inside := (List.mem_cons.mp present).resolve_left (Ne.symm different)
      rw [List.erase_cons_tail (by simpa using Ne.symm elsewhere), ih later inside]

end Insertion

/-- One item comes before another one. -/
def Precedes (list : List α) (first second : α) : Prop := List.Sublist [first, second] list

section Precedes

variable {list : List α} {first second item other : α}

omit [DecidableEq α] in
theorem Precedes.mem (precedes : Precedes list first second) : first ∈ list ∧ second ∈ list :=
  ⟨precedes.subset (by simp), precedes.subset (by simp)⟩

omit [DecidableEq α] in
theorem Precedes.ne (nodup : list.Nodup) (precedes : Precedes list first second) : first ≠ second := by
  have both := precedes.nodup nodup
  simpa using both

omit [DecidableEq α] in
theorem precedes_cons {head : α} {rest : List α} :
    Precedes (head :: rest) first second ↔ (first = head ∧ second ∈ rest) ∨ Precedes rest first second := by
  rw [Precedes, List.sublist_cons_iff]
  constructor
  · rintro (later | ⟨tail, same, inside⟩)
    · exact .inr later
    · cases same
      exact .inl ⟨rfl, List.singleton_sublist.mp inside⟩
  · rintro (⟨rfl, inside⟩ | later)
    · exact .inr ⟨[second], rfl, List.singleton_sublist.mpr inside⟩
    · exact .inl later

theorem precedes_erase (nodup : list.Nodup) :
    Precedes (list.erase item) first second ↔
      Precedes list first second ∧ first ≠ item ∧ second ≠ item := by
  rw [nodup.erase_eq_filter]
  constructor
  · intro precedes
    have kept := precedes.mem
    simp only [List.mem_filter, bne_iff_ne, ne_eq] at kept
    exact ⟨precedes.trans List.filter_sublist, kept.1.2, kept.2.2⟩
  · rintro ⟨precedes, firstOther, secondOther⟩
    have kept := List.Sublist.filter (fun entry => entry != item) precedes
    simpa [Precedes, firstOther, secondOther] using kept

theorem precedes_insertBefore (nodup : list.Nodup) (present : other ∈ list) (item first second : α) :
    Precedes (insertBefore item other list) first second ↔
      (first = item ∧ (second = other ∨ Precedes list other second)) ∨
        (second = item ∧ Precedes list first other) ∨ Precedes list first second := by
  induction list with
  | nil => cases present
  | cons head rest ih =>
    obtain ⟨fresh, nodup⟩ := List.nodup_cons.mp nodup
    rw [insertBefore]
    split
    · next same =>
      subst same
      have before : ¬ Precedes rest first head := fun precedes => fresh precedes.mem.2
      have after : ¬ Precedes rest head second := fun precedes => fresh precedes.mem.1
      simp only [precedes_cons, List.mem_cons, true_and, fresh, and_false, before, after, or_false,
        false_or]
    · next elsewhere =>
      have later := (List.mem_cons.mp present).resolve_left (Ne.symm elsewhere)
      have members : second ∈ insertBefore item other rest ↔ second = item ∨ second ∈ rest := by
        rw [(insertBefore_perm item later).mem_iff, List.mem_cons]
      simp only [precedes_cons, members, ih nodup later, later, and_true, Ne.symm elsewhere, false_and,
        false_or]
      grind

theorem precedes_insertAfter (nodup : list.Nodup) (present : other ∈ list) (item first second : α) :
    Precedes (insertAfter item other list) first second ↔
      (first = item ∧ Precedes list other second) ∨
        (second = item ∧ (first = other ∨ Precedes list first other)) ∨ Precedes list first second := by
  induction list with
  | nil => cases present
  | cons head rest ih =>
    obtain ⟨fresh, nodup⟩ := List.nodup_cons.mp nodup
    rw [insertAfter]
    split
    · next same =>
      subst same
      have before : ¬ Precedes rest first head := fun precedes => fresh precedes.mem.2
      have after : ¬ Precedes rest head second := fun precedes => fresh precedes.mem.1
      simp only [precedes_cons, List.mem_cons, true_and, fresh, and_false, before, after, or_false]
      grind
    · next elsewhere =>
      have later := (List.mem_cons.mp present).resolve_left (Ne.symm elsewhere)
      have members : second ∈ insertAfter item other rest ↔ second = item ∨ second ∈ rest := by
        rw [(insertAfter_perm item later).mem_iff, List.mem_cons]
      simp only [precedes_cons, members, ih nodup later, later, and_true, Ne.symm elsewhere, false_and,
        false_or]
      grind

/-- An item has been moved directly before or after another one: it is where that one is to all the
rest, which has kept its order. -/
structure Beside (list moved : List α) (item other : α) : Prop where
  perm : moved.Perm list
  others : ∀ first second, first ≠ item → second ≠ item →
    (Precedes moved first second ↔ Precedes list first second)
  upper : ∀ first, first ≠ item → Precedes list first other → Precedes moved first item
  lower : ∀ second, second ≠ item → Precedes list other second → Precedes moved item second

theorem beside_insertBefore (nodup : list.Nodup) (inside : item ∈ list) (present : other ∈ list)
    (differs : item ≠ other) :
    Beside list (insertBefore item other (list.erase item)) item other ∧
      Precedes (insertBefore item other (list.erase item)) item other := by
  have left : other ∈ list.erase item := (List.mem_erase_of_ne differs.symm).mpr present
  have order {first second : α} := precedes_insertBefore (nodup.erase item) left item first second
  simp only [precedes_erase nodup] at order
  refine ⟨⟨?_, ?_, ?_, ?_⟩, ?_⟩
  · exact (insertBefore_perm item left).trans (List.perm_cons_erase inside).symm
  · intro first second firstOther secondOther
    simp [order, firstOther, secondOther]
  · intro first firstOther precedes
    exact order.mpr (.inr (.inl ⟨rfl, precedes, firstOther, differs.symm⟩))
  · intro second secondOther precedes
    exact order.mpr (.inl ⟨rfl, .inr ⟨precedes, differs.symm, secondOther⟩⟩)
  · exact order.mpr (.inl ⟨rfl, .inl rfl⟩)

theorem beside_insertAfter (nodup : list.Nodup) (inside : item ∈ list) (present : other ∈ list)
    (differs : item ≠ other) :
    Beside list (insertAfter item other (list.erase item)) item other ∧
      Precedes (insertAfter item other (list.erase item)) other item := by
  have left : other ∈ list.erase item := (List.mem_erase_of_ne differs.symm).mpr present
  have order {first second : α} := precedes_insertAfter (nodup.erase item) left item first second
  simp only [precedes_erase nodup] at order
  refine ⟨⟨?_, ?_, ?_, ?_⟩, ?_⟩
  · exact (insertAfter_perm item left).trans (List.perm_cons_erase inside).symm
  · intro first second firstOther secondOther
    simp [order, firstOther, secondOther]
  · intro first firstOther precedes
    exact order.mpr (.inr (.inl ⟨rfl, .inr ⟨precedes, firstOther, differs.symm⟩⟩))
  · intro second secondOther precedes
    exact order.mpr (.inl ⟨rfl, precedes, differs.symm, secondOther⟩)
  · exact order.mpr (.inr (.inl ⟨rfl, .inl rfl⟩))

end Precedes

end ChromiumOS.ListOrder
