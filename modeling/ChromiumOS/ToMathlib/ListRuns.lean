import Mathlib

/-! # Runs of a list

A list falls into its maximal runs of elements with the same key. The first elements of the runs are those at which
the key changes.
-/

namespace ChromiumOS.ListRuns

variable {α β : Type*} [DecidableEq β] (key : α → β)

/-- The maximal runs of elements with the same key. -/
def runs (list : List α) : List (List α) := list.splitBy fun first second => decide (key first = key second)

/-- The first elements of the runs. -/
def starts (list : List α) : List α := (runs key list).filterMap List.head?

/-- The elements of a list at which the key changes, after one element. -/
def changes (previous : α) : List α → List α
  | [] => []
  | head :: rest => if key head = key previous then changes previous rest else head :: changes head rest

variable {key}

theorem changes_append {previous : α} {same : List α} (run : ∀ element ∈ same, key element = key previous)
    (rest : List α) : changes key previous (same ++ rest) = changes key previous rest := by
  induction same with
  | nil => rfl
  | cons head same ih =>
    rw [List.cons_append, changes, if_pos (run head List.mem_cons_self)]
    exact ih fun element member => run element (List.mem_cons_of_mem _ member)

/-- Elements of a run have the key of the first one. -/
theorem key_of_chain {first : α} {list : List α}
    (chain : (first :: list).IsChain fun one two => decide (key one = key two) = true) :
    ∀ element ∈ first :: list, key element = key first := by
  induction list generalizing first with
  | nil =>
    intro element member
    rw [List.mem_singleton.mp member]
  | cons second list ih =>
    obtain ⟨same, chain⟩ := List.isChain_cons_cons.mp chain
    intro element member
    rcases List.mem_cons.mp member with rfl | member
    · rfl
    · exact (ih chain element member).trans (of_decide_eq_true same).symm

/-- The first elements of groups whose keys differ from one to the next. -/
theorem heads_eq_changes {groups : List (List α)} (filled : [] ∉ groups)
    (chains : ∀ group ∈ groups, group.IsChain fun one two => decide (key one = key two) = true)
    (apart : groups.IsChain fun one two => ∃ last first, decide (key (one.getLast last) = key (two.head first)) = false)
    {first : α} {rest : List α} (joined : groups.flatten = first :: rest) :
    groups.filterMap List.head? = first :: changes key first rest := by
  induction groups generalizing first rest with
  | nil => exact nomatch joined
  | cons group groups ih =>
    cases group with
    | nil => exact absurd List.mem_cons_self filled
    | cons head list =>
      have same := key_of_chain (chains _ List.mem_cons_self)
      have others : [] ∉ groups := fun member => filled (List.mem_cons_of_mem _ member)
      have kept : ∀ group ∈ groups, group.IsChain fun one two => decide (key one = key two) = true :=
        fun group member => chains group (List.mem_cons_of_mem _ member)
      obtain ⟨rfl, rfl⟩ := List.cons.inj joined
      change head :: groups.filterMap List.head? = head :: changes key head (list ++ groups.flatten)
      rw [changes_append fun element member => same element (List.mem_cons_of_mem _ member)]
      cases groups with
      | nil => rfl
      | cons next groups =>
        cases next with
        | nil => exact absurd List.mem_cons_self others
        | cons second tail =>
          obtain ⟨⟨some_last, _, differs⟩, -⟩ := List.isChain_cons_cons.mp apart
          have last := same _ (List.getLast_mem some_last)
          have changed : key second ≠ key head := by
            intro equal
            exact of_decide_eq_false differs (last.trans equal.symm)
          change _ = head :: changes key head (second :: (tail ++ groups.flatten))
          rw [changes, if_neg changed]
          exact congrArg (head :: ·) (ih others kept apart.tail rfl)

theorem starts_cons (first : α) (rest : List α) : starts key (first :: rest) = first :: changes key first rest :=
  heads_eq_changes (List.nil_notMem_splitBy _ _) (fun _ => List.isChain_of_mem_splitBy)
    (List.isChain_getLast_head_splitBy (fun one two => decide (key one = key two)) _) (List.flatten_splitBy _ _)

theorem starts_nil : starts key ([] : List α) = [] := rfl

end ChromiumOS.ListRuns
