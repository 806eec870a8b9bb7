import ChromiumOS.Model.WindowManager.ToplevelWindow
import ChromiumOS.ToMathlib.PartialRun

/-! # The stacking order of transient windows

Modal transient windows stay above the others. Raising the window that is focused keeps this, because
the focus prefers modal windows: as long as there is one, no other window is raised.
-/

namespace ChromiumOS.WindowManager.ToplevelWindow

open PartialRun

/-- What happens to the transient windows of a toplevel window. -/
inductive TransientOperation where
  | AddTransientWindow (transient : TransientWindow)
  | RemoveTransientWindow (transient_win : XWindow)
  | HandleButtonPress (button_win : XWindow)
  | HandleFocusChange (focus_win : XWindow) (focus_in : Bool)
  | SetPreferredTransientWindowToFocus (transient_win : Option XWindow)
  | TakeFocus

def transientStep (toplevel : ToplevelWindow) : TransientOperation → Option ToplevelWindow
  | .AddTransientWindow transient => some (toplevel.AddTransientWindow transient)
  | .RemoveTransientWindow transient_win => some (toplevel.RemoveTransientWindow transient_win)
  | .HandleButtonPress button_win => some (toplevel.HandleButtonPress button_win)
  | .HandleFocusChange focus_win focus_in => some (toplevel.HandleFocusChange focus_win focus_in)
  | .SetPreferredTransientWindowToFocus transient_win =>
    some (toplevel.SetPreferredTransientWindowToFocus transient_win)
  | .TakeFocus => some toplevel.TakeFocus

/-- The stacking order lists the transient windows once each, the modal ones above the others, and the
focus is for one of them. -/
structure Stacked (toplevel : ToplevelWindow) : Prop where
  keyed : ∀ transient ∈ toplevel.transients_, ∀ other ∈ toplevel.transients_,
    transient.xid = other.xid → transient = other
  once : toplevel.stacked_transients_.items.Nodup
  same : ∀ transient,
    transient ∈ toplevel.stacked_transients_.items ↔ transient ∈ toplevel.transients_
  modalAbove : toplevel.stacked_transients_.items.Pairwise fun upper lower =>
    lower.wm_state_modal = true → upper.wm_state_modal = true
  focused : ∀ transient, toplevel.transient_to_focus_ = some transient → transient ∈ toplevel.transients_

/-- Moreover the focus is for a modal window if there is one. -/
structure TransientsOrdered (toplevel : ToplevelWindow) : Prop extends Stacked toplevel where
  modalFocused : ∀ transient ∈ toplevel.transients_, transient.wm_state_modal = true →
    ∃ focused, toplevel.transient_to_focus_ = some focused ∧ focused.wm_state_modal = true

variable {toplevel : ToplevelWindow}

theorem mem_of_GetTransientWindow {xid : XWindow} {transient : TransientWindow}
    (found : toplevel.GetTransientWindow xid = some transient) :
    transient ∈ toplevel.transients_ ∧ transient.xid = xid :=
  ⟨List.mem_of_find?_eq_some found, by simpa using List.find?_some found⟩

theorem RestackTransientWindowOnTop_ordered (ordered : toplevel.TransientsOrdered)
    {transient : TransientWindow} (focus : toplevel.transient_to_focus_ = some transient) :
    (toplevel.RestackTransientWindowOnTop transient).TransientsOrdered := by
  have member : transient ∈ toplevel.stacked_transients_.items :=
    (ordered.same transient).mpr (ordered.focused transient focus)
  rw [RestackTransientWindowOnTop]
  split
  · exact ordered
  · have absent : transient ∉ (toplevel.stacked_transients_.Remove transient).items :=
      toplevel.stacked_transients_.nodup.not_mem_erase
    have raised := Stacker.items_AddOnTop absent
    refine ⟨⟨ordered.keyed, Stacker.nodup _, ?_, ?_, ordered.focused⟩, ordered.modalFocused⟩
    · intro other
      rw [← ordered.same, raised]
      exact (List.perm_cons_erase member).mem_iff.symm
    · rw [raised]
      refine List.pairwise_cons.mpr ⟨?_, ordered.modalAbove.sublist List.erase_sublist⟩
      intro lower below modal
      obtain ⟨focused, same, isModal⟩ :=
        ordered.modalFocused lower ((ordered.same lower).mp (List.mem_of_mem_erase below)) modal
      rw [focus, Option.some.injEq] at same
      exact same ▸ isModal

theorem TakeFocus_ordered (ordered : toplevel.TransientsOrdered) :
    toplevel.TakeFocus.TransientsOrdered := by
  rw [TakeFocus]
  split
  · next transient focus => exact RestackTransientWindowOnTop_ordered ordered focus
  · exact ordered

/-- The window that is preferred gets the focus, unless a modal window has it and it is not modal. -/
theorem SetPreferred_ordered {transient : TransientWindow} (stacked : toplevel.Stacked)
    (found : toplevel.GetTransientWindow transient.xid = some transient)
    (modal : ∀ other ∈ toplevel.transients_, other.wm_state_modal = true →
      transient.wm_state_modal = true ∨
        ∃ focused, toplevel.transient_to_focus_ = some focused ∧ focused.wm_state_modal = true) :
    (toplevel.SetPreferredTransientWindowToFocus (some transient.xid)).TransientsOrdered := by
  have member := (mem_of_GetTransientWindow found).1
  have chosen (needed : transient.wm_state_modal = true ∨ ∀ other ∈ toplevel.transients_,
      other.wm_state_modal = false) :
      TransientsOrdered { toplevel with transient_to_focus_ := some transient } := by
    refine ⟨⟨stacked.keyed, stacked.once, stacked.same, stacked.modalAbove, ?_⟩, ?_⟩
    · rintro other ⟨rfl⟩
      exact member
    · intro other inside isModal
      refine ⟨transient, rfl, needed.resolve_right fun none => ?_⟩
      rw [none other inside] at isModal
      cases isModal
  simp only [SetPreferredTransientWindowToFocus, found]
  split
  · next unfocused =>
    apply chosen
    by_cases isModal : transient.wm_state_modal = true
    · exact .inl isModal
    · refine .inr fun other inside => Bool.eq_false_iff.mpr fun otherModal => ?_
      obtain yes | ⟨focused, focus, -⟩ := modal other inside otherModal
      · exact isModal yes
      · rw [unfocused] at focus
        cases focus
  · next focused focus =>
    split
    · next same =>
      refine ⟨stacked, ?_⟩
      intro other inside isModal
      obtain yes | already := modal other inside isModal
      · exact ⟨focused, focus, same ▸ yes⟩
      · exact already
    · split
      · next allowed =>
        rw [Bool.or_eq_true, Bool.not_eq_true'] at allowed
        apply chosen
        by_cases isModal : transient.wm_state_modal = true
        · exact .inl isModal
        · refine .inr fun other inside => Bool.eq_false_iff.mpr fun otherModal => ?_
          obtain yes | ⟨_, again, focusModal⟩ := modal other inside otherModal
          · exact isModal yes
          · rw [focus, Option.some.injEq] at again
            rw [← again, allowed.resolve_right isModal] at focusModal
            cases focusModal
      · next refused =>
        rw [Bool.or_eq_true, not_or, Bool.not_eq_true', Bool.not_eq_false] at refused
        exact ⟨stacked, fun _ _ _ => ⟨focused, focus, refused.1⟩⟩

theorem SetPreferredTransientWindowToFocus_ordered (ordered : toplevel.TransientsOrdered)
    (transient_win : Option XWindow) :
    (toplevel.SetPreferredTransientWindowToFocus transient_win).TransientsOrdered := by
  cases transient_win with
  | none =>
    rw [SetPreferredTransientWindowToFocus]
    split
    · next focused focus =>
      split
      · next notModal =>
        refine ⟨⟨ordered.keyed, ordered.once, ordered.same, ordered.modalAbove, by simp⟩, ?_⟩
        intro other inside isModal
        obtain ⟨_, again, modal⟩ := ordered.modalFocused other inside isModal
        rw [focus, Option.some.injEq] at again
        simp [again, modal] at notModal
      · exact ordered
    · exact ordered
  | some xid =>
    cases found : toplevel.GetTransientWindow xid with
    | none =>
      rw [SetPreferredTransientWindowToFocus, found]
      exact ordered
    | some transient =>
      obtain ⟨-, rfl⟩ := mem_of_GetTransientWindow found
      exact SetPreferred_ordered ordered.toStacked found fun other inside modal =>
        .inr (ordered.modalFocused other inside modal)

theorem GetTransientWindow_of_mem (stacked : toplevel.Stacked) {transient : TransientWindow}
    (member : transient ∈ toplevel.transients_) :
    toplevel.GetTransientWindow transient.xid = some transient := by
  cases found : toplevel.GetTransientWindow transient.xid with
  | none =>
    have refused := List.find?_eq_none.mp found transient member
    exact absurd (beq_self_eq_true transient.xid) refused
  | some other =>
    obtain ⟨inside, named⟩ := mem_of_GetTransientWindow found
    rw [stacked.keyed other inside transient member named]

/-- Where a new transient window goes. -/
theorem stacked_insert (stacked : toplevel.Stacked) {transient : TransientWindow}
    (absent : transient ∉ toplevel.stacked_transients_.items) {stacker : Stacker TransientWindow}
    (placed : stacker = match toplevel.transient_to_stack_above transient.wm_state_modal with
      | some other => toplevel.stacked_transients_.AddAbove transient other
      | none => toplevel.stacked_transients_.AddOnBottom transient) :
    (∀ other, other ∈ stacker.items ↔ other = transient ∨ other ∈ toplevel.stacked_transients_.items) ∧
      stacker.items.Pairwise fun upper lower =>
        lower.wm_state_modal = true → upper.wm_state_modal = true := by
  subst placed
  split
  · next other found =>
    obtain ⟨accepted, above, below, items, passed⟩ := List.find?_eq_some_iff_append.mp found
    have present : other ∈ toplevel.stacked_transients_.items := List.mem_of_find?_eq_some found
    rw [Stacker.items_AddAbove absent present]
    refine ⟨fun item => by rw [(ListOrder.insertBefore_perm transient present).mem_iff, List.mem_cons], ?_⟩
    have nodup := items ▸ toplevel.stacked_transients_.nodup
    have ordered := items ▸ stacked.modalAbove
    have fresh : other ∉ above := fun member =>
      (List.nodup_append.mp nodup).2.2 other member other List.mem_cons_self rfl
    rw [items, ListOrder.insertBefore_append transient fresh, List.pairwise_append]
    obtain ⟨first, second, across⟩ := List.pairwise_append.mp ordered
    refine ⟨first, List.pairwise_cons.mpr ⟨?_, second⟩, ?_⟩
    · intro lower member modal
      cases isModal : transient.wm_state_modal with
      | true => rfl
      | false =>
        have otherModal : other.wm_state_modal = true := by
          rcases List.mem_cons.mp member with rfl | later
          · exact modal
          · exact (List.pairwise_cons.mp second).1 lower later modal
        simp [isModal, otherModal] at accepted
    · intro upper member lower inside modal
      rcases List.mem_cons.mp inside with rfl | later
      · have refused := passed upper member
        simp [modal] at refused
      · exact across upper member lower later modal
  · next missing =>
    have refused := List.find?_eq_none.mp missing
    rw [Stacker.items_AddOnBottom absent]
    refine ⟨fun item => by rw [List.mem_append, List.mem_singleton, or_comm], ?_⟩
    rw [List.pairwise_append]
    refine ⟨stacked.modalAbove, List.pairwise_singleton _ _, ?_⟩
    intro upper member lower inside modal
    rw [List.mem_singleton.mp inside] at modal
    simpa [modal] using refused upper member

theorem AddTransientWindow_ordered (ordered : toplevel.TransientsOrdered) (transient : TransientWindow) :
    (toplevel.AddTransientWindow transient).TransientsOrdered := by
  rw [AddTransientWindow]
  split
  · exact ordered
  · next unknown =>
    have fresh : ∀ other ∈ toplevel.transients_, other.xid ≠ transient.xid := by
      intro other member same
      have found := GetTransientWindow_of_mem ordered.toStacked member
      rw [same] at found
      exact unknown (Option.isSome_iff_exists.mpr ⟨other, found⟩)
    have absent : transient ∉ toplevel.stacked_transients_.items := fun member =>
      fresh transient ((ordered.same transient).mp member) rfl
    obtain ⟨members, modalAbove⟩ := stacked_insert ordered.toStacked absent rfl
    refine SetPreferred_ordered ⟨?_, Stacker.nodup _, ?_, modalAbove, ?_⟩ (List.find?_cons_of_pos (by simp)) ?_
    · intro one first other second same
      rcases List.mem_cons.mp first with rfl | inside <;> rcases List.mem_cons.mp second with rfl | member
      · rfl
      · exact absurd same.symm (fresh other member)
      · exact absurd same (fresh one inside)
      · exact ordered.keyed one inside other member same
    · intro other
      exact (members other).trans ((or_congr_right (ordered.same other)).trans List.mem_cons.symm)
    · intro other focus
      exact List.mem_cons_of_mem _ (ordered.focused other focus)
    · intro other member modal
      rcases List.mem_cons.mp member with rfl | member
      · exact .inl modal
      · exact .inr (ordered.modalFocused other member modal)

/-- The window that gets the focus next is modal if one of them is. -/
theorem modal_of_FindTransientWindowToFocus {found transient : TransientWindow}
    (next : toplevel.FindTransientWindowToFocus = some found)
    (member : transient ∈ toplevel.stacked_transients_.items) (modal : transient.wm_state_modal = true) :
    found.wm_state_modal = true := by
  rw [FindTransientWindowToFocus, Option.or_eq_some_iff] at next
  rcases next with topmost | ⟨none, -⟩
  · exact List.find?_some topmost
  · exact absurd modal (List.find?_eq_none.mp none transient member)

theorem mem_of_FindTransientWindowToFocus {found : TransientWindow}
    (next : toplevel.FindTransientWindowToFocus = some found) :
    found ∈ toplevel.stacked_transients_.items := by
  rw [FindTransientWindowToFocus, Option.or_eq_some_iff] at next
  rcases next with topmost | ⟨-, first⟩
  · exact List.mem_of_find?_eq_some topmost
  · exact List.mem_of_mem_head? first

theorem refocus_ordered (stacked : toplevel.Stacked) (unfocused : toplevel.transient_to_focus_ = none) :
    (toplevel.SetPreferredTransientWindowToFocus
      (toplevel.FindTransientWindowToFocus.map fun found => found.xid)).TransientsOrdered := by
  cases next : toplevel.FindTransientWindowToFocus with
  | none =>
    have empty : toplevel.stacked_transients_.items = [] := by
      rw [FindTransientWindowToFocus, Option.or_eq_none_iff] at next
      exact List.head?_eq_none_iff.mp next.2
    rw [Option.map_none, SetPreferredTransientWindowToFocus, unfocused]
    refine ⟨stacked, fun transient member => ?_⟩
    rw [← stacked.same, empty] at member
    cases member
  | some found =>
    have member := (stacked.same found).mp (mem_of_FindTransientWindowToFocus next)
    refine SetPreferred_ordered stacked (GetTransientWindow_of_mem stacked member) ?_
    intro other inside modal
    exact .inl (modal_of_FindTransientWindowToFocus next ((stacked.same other).mpr inside) modal)

theorem RemoveTransientWindow_ordered (ordered : toplevel.TransientsOrdered) (xid : XWindow) :
    (toplevel.RemoveTransientWindow xid).TransientsOrdered := by
  rw [RemoveTransientWindow]
  split
  · exact ordered
  · next transient found =>
    obtain ⟨member, rfl⟩ := mem_of_GetTransientWindow found
    have left (other : TransientWindow) : other ∈ toplevel.transients_.filter
        (fun other => other.xid != transient.xid) ↔ other ≠ transient ∧ other ∈ toplevel.transients_ := by
      rw [List.mem_filter, bne_iff_ne, and_comm]
      refine and_congr_left fun inside => not_congr ⟨fun same => ?_, fun same => same ▸ rfl⟩
      exact ordered.keyed other inside transient member same
    have same (other : TransientWindow) : other ∈ (toplevel.stacked_transients_.Remove transient).items ↔
        other ∈ toplevel.transients_.filter fun other => other.xid != transient.xid := by
      rw [left, Stacker.mem_Remove, ordered.same]
    have keyed : ∀ one ∈ toplevel.transients_.filter (fun other => other.xid != transient.xid),
        ∀ other ∈ toplevel.transients_.filter (fun other => other.xid != transient.xid),
          one.xid = other.xid → one = other := fun one inside other inside' =>
      ordered.keyed one ((left one).mp inside).2 other ((left other).mp inside').2
    have modalAbove := ordered.modalAbove.sublist
      (List.erase_sublist : (toplevel.stacked_transients_.items.erase transient).Sublist _)
    dsimp only
    split
    · next focus =>
      have stacked : Stacked { toplevel with
          stacked_transients_ := toplevel.stacked_transients_.Remove transient
          transients_ := toplevel.transients_.filter fun other => other.xid != transient.xid
          transient_to_focus_ := none } :=
        ⟨keyed, Stacker.nodup _, same, modalAbove, by simp⟩
      exact refocus_ordered stacked rfl
    · next focus =>
      refine ⟨⟨keyed, Stacker.nodup _, same, modalAbove, ?_⟩, ?_⟩
      · intro other focused
        refine (left other).mpr ⟨?_, ordered.focused other focused⟩
        rintro rfl
        exact focus focused
      · intro other inside
        exact ordered.modalFocused other ((left other).mp inside).2

theorem transientStep_ordered (ordered : toplevel.TransientsOrdered) {operation : TransientOperation}
    {next : ToplevelWindow} (taken : toplevel.transientStep operation = some next) :
    next.TransientsOrdered := by
  cases operation with
  | AddTransientWindow transient =>
    cases taken
    exact AddTransientWindow_ordered ordered transient
  | RemoveTransientWindow transient_win =>
    cases taken
    exact RemoveTransientWindow_ordered ordered transient_win
  | HandleButtonPress button_win =>
    cases taken
    exact TakeFocus_ordered (SetPreferredTransientWindowToFocus_ordered ordered _)
  | HandleFocusChange focus_win focus_in =>
    cases taken
    exact ordered
  | SetPreferredTransientWindowToFocus transient_win =>
    cases taken
    exact SetPreferredTransientWindowToFocus_ordered ordered transient_win
  | TakeFocus =>
    cases taken
    exact TakeFocus_ordered ordered

/-- The transient windows of a toplevel window are in order in every run. -/
theorem transients_stay_ordered (address : ℕ) (area : Area) (maxSize : ℤ → ℤ → ℤ × ℤ) (win : Window)
    (input_xid : XWindow) (operations : List TransientOperation) :
    Always transientStep TransientsOrdered (new address area maxSize win input_xid) operations := by
  apply always_of_preserved
  · refine ⟨⟨?_, List.nodup_nil, fun _ => Iff.rfl, List.Pairwise.nil, ?_⟩, ?_⟩
    · intro transient member
      cases member
    · intro transient focus
      cases focus
    · intro transient member
      cases member
  · intro toplevel operation next ordered taken
    exact transientStep_ordered ordered taken

end ChromiumOS.WindowManager.ToplevelWindow
