import ChromiumOS.Model.WindowManager.LinkedStacker
import ChromiumOS.ToMathlib.PartialRun

/-! # The stacker is a list without duplicates

The linked list and the map of iterators into it stay in step: an item has an iterator exactly if it is in
the list, at the node that holds it. So every call does what its specification on the list of items says.
-/

namespace ChromiumOS.WindowManager

open ListOrder NodeList

variable {T : Type} [DecidableEq T]

/-- The call on the list of items. -/
def Stacker.perform (stacker : Stacker T) : StackerCall T → Stacker T
  | .AddOnTop item => stacker.AddOnTop item
  | .AddOnBottom item => stacker.AddOnBottom item
  | .AddAbove item other_item => stacker.AddAbove item other_item
  | .AddBelow item other_item => stacker.AddBelow item other_item
  | .Remove item => stacker.Remove item

/-- The item that a call adds or removes. -/
def StackerCall.item : StackerCall T → T
  | .AddOnTop item => item
  | .AddOnBottom item => item
  | .AddAbove item _ => item
  | .AddBelow item _ => item
  | .Remove item => item

/-- All the other items keep their order. -/
theorem Stacker.perform_others (stacker : Stacker T) (call : StackerCall T) :
    (stacker.perform call).items.erase call.item = stacker.items.erase call.item := by
  cases call with
  | AddOnTop item =>
    by_cases present : item ∈ stacker.items
    · rw [perform, AddOnTop, dif_pos present]
    · rw [perform, items_AddOnTop present, StackerCall.item, List.erase_cons_head,
        List.erase_of_not_mem present]
  | AddOnBottom item =>
    by_cases present : item ∈ stacker.items
    · rw [perform, AddOnBottom, dif_pos present]
    · rw [perform, items_AddOnBottom present, StackerCall.item, List.erase_append_right _ present,
        List.erase_of_not_mem present, List.erase_cons_head, List.append_nil]
  | AddAbove item other =>
    rw [perform, AddAbove, StackerCall.item]
    split
    · rfl
    · next absent =>
      split
      · next present => rw [erase_insertBefore absent present, List.erase_of_not_mem absent]
      · rfl
  | AddBelow item other =>
    rw [perform, AddBelow, StackerCall.item]
    split
    · rfl
    · next absent =>
      split
      · next present => rw [erase_insertAfter absent present, List.erase_of_not_mem absent]
      · rfl
  | Remove item =>
    have gone : item ∉ stacker.items.erase item := stacker.nodup.not_mem_erase
    rw [perform, items_Remove, StackerCall.item, List.erase_of_not_mem gone]

/-- The stacker as it is stored stands for a list without duplicates. -/
structure LinkedStacker.Mirrors (linked : LinkedStacker T) (stacker : Stacker T) : Prop where
  items : linked.items_.values = stacker.items
  nodes : linked.items_.addresses.Nodup
  index : ∀ item it, linked.index_ item = some it ↔
    ∃ address, it = .node address ∧ (address, item) ∈ linked.items_.nodes

namespace LinkedStacker.Mirrors

variable {linked : LinkedStacker T} {stacker next : Stacker T} {allocator : Allocator} {item other : T}
  {address : ℕ}

omit [DecidableEq T] in
theorem empty : Mirrors ({} : LinkedStacker T) .empty where
  items := rfl
  nodes := List.nodup_nil
  index _ _ := by simp

omit [DecidableEq T] in
theorem values_nodup (mirrors : Mirrors linked stacker) : linked.items_.values.Nodup :=
  mirrors.items ▸ stacker.nodup

omit [DecidableEq T] in
theorem node_of_mem (mirrors : Mirrors linked stacker) (present : item ∈ stacker.items) :
    ∃ address, linked.index_ item = some (.node address) ∧ (address, item) ∈ linked.items_.nodes ∧
      linked.items_.find address = some (address, item) := by
  rw [← mirrors.items] at present
  obtain ⟨⟨address, _⟩, member, rfl⟩ := List.mem_map.mp present
  exact ⟨address, (mirrors.index _ _).mpr ⟨address, rfl, member⟩, member, find_of_mem mirrors.nodes member⟩

omit [DecidableEq T] in
theorem absent_iff (mirrors : Mirrors linked stacker) :
    linked.index_ item = none ↔ item ∉ stacker.items := by
  constructor
  · intro absent present
    obtain ⟨address, found, -⟩ := mirrors.node_of_mem present
    cases absent.symm.trans found
  · intro absent
    cases found : linked.index_ item with
    | none => rfl
    | some it =>
      obtain ⟨address, -, member⟩ := (mirrors.index item it).mp found
      exact absurd (mirrors.items ▸ List.mem_map.mpr ⟨_, member, rfl⟩) absent

omit [DecidableEq T] in
theorem contains_iff (mirrors : Mirrors linked stacker) : linked.Contains item ↔ item ∈ stacker.items := by
  rw [LinkedStacker.Contains, Option.isSome_iff_ne_none, ne_eq, mirrors.absent_iff, not_not]

omit [DecidableEq T] in
/-- Two nodes that hold the same item are one. -/
theorem entry_unique (mirrors : Mirrors linked stacker)
    (member : (address, item) ∈ linked.items_.nodes) :
    ∀ other ∈ linked.items_.nodes, other.2 = (address, item).2 → other = (address, item) :=
  fun _ inside same => List.inj_on_of_nodup_map mirrors.values_nodup inside member same

/-- A new node for a new item, wherever it is put. -/
theorem grow (mirrors : Mirrors linked stacker) (absent : item ∉ stacker.items) {nodes : List (ℕ × T)}
    (perm : nodes.Perm ((linked.items_.newNode allocator, item) :: linked.items_.nodes))
    (items : nodes.map Prod.snd = next.items) :
    Mirrors ⟨linked.items_.grow nodes,
      LinkedStacker.insertIndex linked.index_ item (.node (linked.items_.newNode allocator))⟩ next where
  items := items
  nodes := by
    have addresses := (perm.map Prod.fst).nodup_iff
    exact addresses.mpr (List.nodup_cons.mpr ⟨newNode_fresh, mirrors.nodes⟩)
  index := by
    intro member it
    simp only [NodeList.grow, perm.mem_iff, List.mem_cons, Prod.mk.injEq, LinkedStacker.insertIndex,
      if_pos (mirrors.absent_iff.mpr absent), Function.update_apply]
    by_cases same : member = item
    · subst same
      have missing : ∀ address, (address, member) ∉ linked.items_.nodes := fun address inside =>
        absent (mirrors.items ▸ List.mem_map.mpr ⟨_, inside, rfl⟩)
      simp only [if_true, Option.some.injEq, missing, or_false, and_true, exists_eq_right]
      exact eq_comm
    · simp only [same, if_false, and_false, false_or]
      exact mirrors.index member it

variable (allocator) in
theorem AddOnTop (mirrors : Mirrors linked stacker) :
    ∃ next, linked.AddOnTop allocator item = some next ∧ Mirrors next (stacker.AddOnTop item) := by
  rw [LinkedStacker.AddOnTop]
  by_cases present : item ∈ stacker.items
  · rw [if_pos (mirrors.contains_iff.mpr present), Stacker.AddOnTop, dif_pos present]
    exact ⟨linked, rfl, mirrors⟩
  · rw [if_neg (mirrors.contains_iff.not.mpr present)]
    refine ⟨_, rfl, mirrors.grow present (.refl _) ?_⟩
    rw [Stacker.items_AddOnTop present, ← mirrors.items]
    rfl

variable (allocator) in
theorem AddOnBottom (mirrors : Mirrors linked stacker) :
    ∃ next, linked.AddOnBottom allocator item = some next ∧ Mirrors next (stacker.AddOnBottom item) := by
  rw [LinkedStacker.AddOnBottom]
  by_cases present : item ∈ stacker.items
  · rw [if_pos (mirrors.contains_iff.mpr present), Stacker.AddOnBottom, dif_pos present]
    exact ⟨linked, rfl, mirrors⟩
  · rw [if_neg (mirrors.contains_iff.not.mpr present)]
    have last : (linked.items_.pushBack allocator item).beforeEnd =
        some (.node (linked.items_.newNode allocator)) := by
      rw [beforeEnd, pushBack, NodeList.grow, List.getLast?_append_of_ne_nil _ (List.cons_ne_nil _ _)]
      rfl
    simp only [last]
    refine ⟨_, rfl, mirrors.grow present (List.perm_append_singleton _ _) ?_⟩
    rw [Stacker.items_AddOnBottom present, ← mirrors.items, List.map_append]
    rfl

variable (allocator) in
theorem insert (mirrors : Mirrors linked stacker) (absent : item ∉ stacker.items)
    (member : (address, other) ∈ linked.items_.nodes)
    (items : insertBefore item other stacker.items = next.items) :
    ∃ items_ new_it, linked.items_.insert allocator (.node address) item = some (items_, new_it) ∧
      Mirrors ⟨items_, LinkedStacker.insertIndex linked.index_ item new_it⟩ next := by
  refine ⟨_, _, by rw [NodeList.insert, find_of_mem mirrors.nodes member]; rfl, ?_⟩
  refine mirrors.grow absent (insertBefore_perm _ member) ?_
  rw [map_insertBefore _ (mirrors.entry_unique member), ← items, ← mirrors.items]
  rfl

variable (allocator) in
theorem AddAbove (mirrors : Mirrors linked stacker) :
    ∃ next, linked.AddAbove allocator item other = some next ∧
      Mirrors next (stacker.AddAbove item other) := by
  rw [LinkedStacker.AddAbove]
  by_cases present : item ∈ stacker.items
  · rw [if_pos (mirrors.contains_iff.mpr present), Stacker.AddAbove, dif_pos present]
    exact ⟨linked, rfl, mirrors⟩
  rw [if_neg (mirrors.contains_iff.not.mpr present)]
  by_cases reference : other ∈ stacker.items
  · obtain ⟨address, indexed, member, -⟩ := mirrors.node_of_mem reference
    obtain ⟨items_, new_it, inserted, kept⟩ := mirrors.insert allocator present member
      (Stacker.items_AddAbove present reference).symm
    simp only [indexed, inserted]
    exact ⟨_, rfl, kept⟩
  · rw [mirrors.absent_iff.mpr reference, Stacker.AddAbove, dif_neg present, dif_neg reference]
    exact ⟨linked, rfl, mirrors⟩

theorem advance (mirrors : Mirrors linked stacker) (member : (address, item) ∈ linked.items_.nodes) :
    linked.items_.advance (.node address) =
      some ((ListOrder.next (address, item) linked.items_.nodes).elim .finish fun after => .node after.1) ∧
    (ListOrder.next (address, item) linked.items_.nodes).map Prod.snd = ListOrder.next item stacker.items := by
  constructor
  · rw [NodeList.advance, find_of_mem mirrors.nodes member, Option.map_some]
  · rw [map_next (mirrors.entry_unique member), ← mirrors.items]
    rfl

variable (allocator) in
theorem AddBelow (mirrors : Mirrors linked stacker) :
    ∃ next, linked.AddBelow allocator item other = some next ∧
      Mirrors next (stacker.AddBelow item other) := by
  rw [LinkedStacker.AddBelow]
  by_cases present : item ∈ stacker.items
  · rw [if_pos (mirrors.contains_iff.mpr present), Stacker.AddBelow, dif_pos present]
    exact ⟨linked, rfl, mirrors⟩
  rw [if_neg (mirrors.contains_iff.not.mpr present)]
  by_cases reference : other ∈ stacker.items
  · obtain ⟨address, indexed, member, -⟩ := mirrors.node_of_mem reference
    obtain ⟨advanced, follows⟩ := mirrors.advance member
    have below := Stacker.items_AddBelow present reference
    cases after : ListOrder.next (address, other) linked.items_.nodes with
    | none =>
      rw [after] at advanced follows
      simp only [indexed, advanced]
      refine ⟨_, rfl, mirrors.grow present (List.perm_append_singleton _ _) ?_⟩
      rw [below, ← append_of_next_none stacker.nodup reference follows.symm, ← mirrors.items,
        List.map_append]
      rfl
    | some entry =>
      rw [after] at advanced follows
      have inside := (mem_of_next after).2
      obtain ⟨items_, new_it, inserted, kept⟩ := mirrors.insert allocator present inside
        ((insertBefore_next stacker.nodup follows.symm).trans below.symm)
      simp only [indexed, advanced]
      exact ⟨_, by simp only [Option.elim_some, Option.bind_eq_bind, Option.bind_some, inserted]; rfl, kept⟩
  · rw [mirrors.absent_iff.mpr reference, Stacker.AddBelow, dif_neg present, dif_neg reference]
    exact ⟨linked, rfl, mirrors⟩

theorem Remove (mirrors : Mirrors linked stacker) :
    ∃ next, linked.Remove item = some next ∧ Mirrors next (stacker.Remove item) := by
  rw [LinkedStacker.Remove]
  by_cases present : item ∈ stacker.items
  · obtain ⟨address, indexed, member, found⟩ := mirrors.node_of_mem present
    simp only [indexed, NodeList.erase, found]
    refine ⟨_, rfl, ?_, ?_, ?_⟩
    · have erased := map_erase (mirrors.entry_unique member)
      rw [Stacker.items_Remove, ← mirrors.items]
      exact erased
    · exact mirrors.nodes.sublist (List.erase_sublist.map _)
    · intro entry it
      have distinct : linked.items_.nodes.Nodup := mirrors.nodes.of_map _
      simp only [distinct.mem_erase_iff, ne_eq, Prod.mk.injEq, not_and, Function.update_apply]
      by_cases same : entry = item
      · subst same
        simp only [if_true, reduceCtorEq, not_true, imp_false, false_iff, not_exists, not_and]
        intro other _ moved inside
        exact moved (congrArg Prod.fst (mirrors.entry_unique member _ inside rfl))
      · simp only [same, if_false, not_false_iff, implies_true, true_and]
        exact mirrors.index entry it
  · rw [mirrors.absent_iff.mpr present]
    refine ⟨linked, rfl, mirrors.items.trans ?_, mirrors.nodes, mirrors.index⟩
    rw [Stacker.items_Remove, List.erase_of_not_mem present]

variable (allocator) in
theorem perform (mirrors : Mirrors linked stacker) (call : StackerCall T) :
    ∃ next, linked.perform allocator call = some next ∧ Mirrors next (stacker.perform call) := by
  cases call with
  | AddOnTop item => exact mirrors.AddOnTop allocator
  | AddOnBottom item => exact mirrors.AddOnBottom allocator
  | AddAbove item other_item => exact mirrors.AddAbove allocator
  | AddBelow item other_item => exact mirrors.AddBelow allocator
  | Remove item => exact mirrors.Remove

/-- What is under an item is what comes after it. -/
theorem GetUnder (mirrors : Mirrors linked stacker) :
    linked.GetUnder item = some (stacker.GetUnder item) := by
  rw [LinkedStacker.GetUnder, Stacker.GetUnder]
  by_cases present : item ∈ stacker.items
  · obtain ⟨address, indexed, member, -⟩ := mirrors.node_of_mem present
    obtain ⟨advanced, follows⟩ := mirrors.advance member
    simp only [indexed, advanced]
    rw [← follows]
    cases after : ListOrder.next (address, item) linked.items_.nodes with
    | none => rfl
    | some entry =>
      have found := find_of_mem mirrors.nodes (mem_of_next after).2
      simp [dereference, found]
  · rw [mirrors.absent_iff.mpr present, next_of_absent present]

end LinkedStacker.Mirrors

/-- Every run of calls completes and leaves the list that the calls on lists make, with the map in step. -/
theorem Stacker_refines (allocator : Allocator) (calls : List (StackerCall T)) :
    ∃ linked, PartialRun.run (LinkedStacker.perform allocator) {} calls = some linked ∧
      LinkedStacker.Mirrors linked (calls.foldl Stacker.perform .empty) ∧
      (∀ item, linked.GetUnder item = some ((calls.foldl Stacker.perform .empty).GetUnder item)) ∧
      ∀ call, ((calls.foldl Stacker.perform .empty).perform call).items.erase call.item =
        (calls.foldl Stacker.perform .empty).items.erase call.item := by
  suffices reached : ∃ linked, PartialRun.run (LinkedStacker.perform allocator) {} calls = some linked ∧
      LinkedStacker.Mirrors linked (calls.foldl Stacker.perform .empty) by
    obtain ⟨linked, done, mirrors⟩ := reached
    exact ⟨linked, done, mirrors, fun _ => mirrors.GetUnder, Stacker.perform_others _⟩
  induction calls using List.reverseRecOn with
  | nil => exact ⟨{}, rfl, .empty⟩
  | append_singleton calls call ih =>
    obtain ⟨linked, done, mirrors⟩ := ih
    obtain ⟨next, performed, kept⟩ := mirrors.perform allocator call
    refine ⟨next, ?_, by rw [List.foldl_append]; exact kept⟩
    rw [PartialRun.run_append, done, Option.bind_some, PartialRun.run_cons, performed, Option.bind_some,
      PartialRun.run_nil]

end ChromiumOS.WindowManager
