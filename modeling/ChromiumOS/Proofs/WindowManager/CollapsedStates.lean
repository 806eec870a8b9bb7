import ChromiumOS.Proofs.WindowManager.PackedRuns

/-! # Showing and hiding collapsed panels

The timer, the watcher, the dragged panel and the input window each go with a state of the bar. Hiding that
was put off until a drag ends is lost when the dragged panel leaves the bar instead.
-/

namespace ChromiumOS.WindowManager.PanelBar

/-- What the state of showing and hiding goes with. -/
structure StateConsistent (bar : PanelBar) : Prop where
  armed : bar.showCollapsedPanelsTimerArmed = true ↔
    bar.collapsed_panel_state_ = .COLLAPSED_PANEL_STATE_WAITING_TO_SHOW
  watched : bar.collapsed_panel_state_ = .COLLAPSED_PANEL_STATE_SHOWN →
    bar.hide_collapsed_panels_pointer_watcher_ = some true
  deferred : bar.collapsed_panel_state_ = .COLLAPSED_PANEL_STATE_WAITING_TO_HIDE →
    ∃ panel ∈ bar.panels_, bar.dragged_panel_ = some panel
  onscreen : bar.collapsed_panel_state_ = .COLLAPSED_PANEL_STATE_HIDDEN → 0 < bar.GetNumCollapsedPanels →
    bar.showCollapsedPanelsInputOnscreen = true

/-- The dragged panel is in the bar. -/
def DragInside (bar : PanelBar) : Prop := ∀ panel, bar.dragged_panel_ = some panel → panel ∈ bar.panels_

/-- What showing and hiding depends on stays. -/
structure KeepsStates (before after : PanelBar) : Prop where
  members : ∀ panel, panel ∈ after.panels_ ↔ panel ∈ before.panels_
  collapsed : after.GetNumCollapsedPanels = before.GetNumCollapsedPanels
  dragged : after.dragged_panel_ = before.dragged_panel_
  visibility : after.visibility = before.visibility

namespace KeepsStates

variable {first second third : PanelBar}

theorem refl (bar : PanelBar) : bar.KeepsStates bar := ⟨fun _ => .rfl, rfl, rfl, rfl⟩

theorem trans (keeps : first.KeepsStates second) (again : second.KeepsStates third) :
    first.KeepsStates third where
  members panel := (again.members panel).trans (keeps.members panel)
  collapsed := again.collapsed.trans keeps.collapsed
  dragged := again.dragged.trans keeps.dragged
  visibility := again.visibility.trans keeps.visibility

end KeepsStates

variable {bar next : PanelBar} {panel : ℕ}

theorem Repacked.keepsStates (repacked : bar.Repacked next) : bar.KeepsStates next where
  members _ := repacked.panels.mem_iff
  collapsed := by
    rw [GetNumCollapsedPanels, GetNumCollapsedPanels, repacked.panels.countP_eq]
    refine List.countP_congr fun panel _ => ?_
    rw [repacked.moved.is_expanded]
  dragged := congrArg Prod.fst repacked.drag
  visibility := repacked.visibility

theorem Settled.keepsStates (settled : bar.Settled next) : bar.KeepsStates next :=
  settled.repacked.keepsStates

theorem StateConsistent.keeps (consistent : bar.StateConsistent) (keeps : bar.KeepsStates next) :
    next.StateConsistent := by
  have same := keeps.visibility
  simp only [visibility, Prod.mk.injEq] at same
  obtain ⟨state, onscreen, armed, watcher⟩ := same
  refine ⟨?_, ?_, ?_, ?_⟩
  · rw [armed, state]
    exact consistent.armed
  · rw [state, watcher]
    exact consistent.watched
  · intro waiting
    rw [state] at waiting
    obtain ⟨panel, member, dragged⟩ := consistent.deferred waiting
    exact ⟨panel, (keeps.members panel).mpr member, keeps.dragged.trans dragged⟩
  · rw [state, onscreen, keeps.collapsed]
    exact consistent.onscreen

theorem DragInside.keeps (inside : bar.DragInside) (keeps : bar.KeepsStates next) : next.DragInside := by
  intro panel dragged
  rw [keeps.dragged] at dragged
  exact (keeps.members panel).mpr (inside panel dragged)

/-- The invariant of a run: the bar is packed, the dragged panel is in it, and its state is consistent. -/
structure StateInvariant (bar : PanelBar) : Prop where
  packed : bar.Packed
  inside : bar.DragInside
  consistent : bar.StateConsistent

section Counting

/-- One panel less is collapsed when one is expanded. -/
theorem countP_expanded {panels : List ℕ} (nodup : panels.Nodup) (member : panel ∈ panels)
    {before after : ℕ → Bool} (different : ∀ other ≠ panel, after other = before other)
    (collapsed : before panel = true) (expanded : after panel = false) :
    panels.countP before = panels.countP after + 1 := by
  induction panels with
  | nil => cases member
  | cons first rest ih =>
    obtain ⟨outside, nodup⟩ := List.nodup_cons.mp nodup
    rcases List.mem_cons.mp member with rfl | later
    · have others : rest.countP before = rest.countP after := by
        refine List.countP_congr fun other inside => ?_
        rw [different other]
        rintro rfl
        exact outside inside
      rw [List.countP_cons_of_pos collapsed, List.countP_cons_of_neg (by rw [expanded]; exact Bool.false_ne_true),
        others]
    · have other : first ≠ panel := by
        rintro rfl
        exact outside later
      rw [List.countP_cons, List.countP_cons, ih nodup later, different first other]
      omega

variable (packed : bar.Packed) (member : panel ∈ bar.panels_)
include packed member

theorem setExpandedState_true_collapsed (collapsed : bar.screen.is_expanded panel = false) :
    bar.GetNumCollapsedPanels = (bar.setExpandedState panel true).GetNumCollapsedPanels + 1 := by
  refine countP_expanded packed.nodup member (fun other different => ?_) ?_ ?_
  · exact congrArg not (bar.screen.SetExpandedState_is_expanded_of_ne different true)
  · rw [collapsed]
    rfl
  · exact congrArg not (bar.screen.SetExpandedState_is_expanded panel true)

theorem setExpandedState_false_collapsed (expanded : bar.screen.is_expanded panel = true) :
    (bar.setExpandedState panel false).GetNumCollapsedPanels = bar.GetNumCollapsedPanels + 1 := by
  refine countP_expanded packed.nodup member (fun other different => ?_) ?_ ?_
  · exact (congrArg not (bar.screen.SetExpandedState_is_expanded_of_ne different false)).symm
  · exact congrArg not (bar.screen.SetExpandedState_is_expanded panel false)
  · rw [expanded]
    rfl

end Counting

section Handling

theorem StateInvariant.keeps (invariant : bar.StateInvariant) (packed : next.Packed)
    (keeps : bar.KeepsStates next) : next.StateInvariant :=
  ⟨packed, invariant.inside.keeps keeps, invariant.consistent.keeps keeps⟩

theorem StateInvariant.settled (invariant : bar.StateInvariant) (settled : bar.Settled next) :
    next.StateInvariant :=
  invariant.keeps (invariant.packed.settled settled) settled.keepsStates

/-- The invariant after a bar with new states has settled. -/
theorem Settled.invariant {changed : PanelBar} (settled : changed.Settled next) (packed : next.Packed)
    (inside : changed.DragInside) (consistent : changed.StateConsistent) : next.StateInvariant :=
  ⟨packed, inside.keeps settled.keepsStates, consistent.keeps settled.keepsStates⟩

theorem StateConsistent.hideInput (consistent : bar.StateConsistent) :
    bar.hideInputAfterLastCollapsed.StateConsistent := by
  rw [hideInputAfterLastCollapsed_eq]
  refine ⟨consistent.armed, consistent.watched, consistent.deferred, fun hidden some_collapsed => ?_⟩
  have left : 0 < bar.GetNumCollapsedPanels := some_collapsed
  exact (if_neg (Nat.pos_iff_ne_zero.mp left)).trans (consistent.onscreen hidden left)

/-- One more panel is collapsed, and the input window is moved onscreen if it is the only one. -/
theorem StateConsistent.showInput {before : ℕ}
    (armed : bar.showCollapsedPanelsTimerArmed = true ↔
      bar.collapsed_panel_state_ = .COLLAPSED_PANEL_STATE_WAITING_TO_SHOW)
    (watched : bar.collapsed_panel_state_ = .COLLAPSED_PANEL_STATE_SHOWN →
      bar.hide_collapsed_panels_pointer_watcher_ = some true)
    (deferred : bar.collapsed_panel_state_ = .COLLAPSED_PANEL_STATE_WAITING_TO_HIDE →
      ∃ panel ∈ bar.panels_, bar.dragged_panel_ = some panel)
    (onscreen : bar.collapsed_panel_state_ = .COLLAPSED_PANEL_STATE_HIDDEN → 0 < before →
      bar.showCollapsedPanelsInputOnscreen = true)
    (more : bar.GetNumCollapsedPanels = before + 1) : bar.showInputForFirstCollapsed.StateConsistent := by
  rw [showInputForFirstCollapsed_eq]
  refine ⟨armed, watched, deferred, fun hidden _ => ?_⟩
  dsimp only
  split
  · rfl
  · next several => exact onscreen hidden (by omega)

theorem ExpandPanel_states {create_anchor : Bool} (invariant : bar.StateInvariant)
    (member : panel ∈ bar.panels_) (done : bar.ExpandPanel panel create_anchor = some next) :
    next.StateInvariant := by
  have known := invariant.packed.informed panel member
  have packed := invariant.packed.keeps (ExpandPanel_keepsPacking known done)
  by_cases expanded : bar.screen.is_expanded panel = true
  · rw [ExpandPanel, if_pos expanded] at done
    exact Option.some.inj done ▸ invariant
  · have collapsed : bar.screen.is_expanded panel = false := by simpa using expanded
    have fewer := setExpandedState_true_collapsed invariant.packed member collapsed
    obtain ⟨after, same, settled⟩ := ExpandPanel_spec known collapsed create_anchor
    rw [same, Option.some.injEq] at done
    subst done
    have consistent := invariant.consistent
    have opened : (bar.setExpandedState panel true).StateConsistent :=
      ⟨consistent.armed, consistent.watched, consistent.deferred,
        fun hidden left => consistent.onscreen hidden (by omega)⟩
    refine settled.invariant packed ?_ opened.hideInput
    rw [hideInputAfterLastCollapsed_eq]
    exact invariant.inside

theorem CollapsePanel_states (invariant : bar.StateInvariant)
    (done : bar.CollapsePanel panel = some next) : next.StateInvariant := by
  have packed := invariant.packed.keeps (CollapsePanel_keepsPacking done)
  by_cases expanded : bar.screen.is_expanded panel = true
  · have known := CollapsePanel_known expanded done
    have more := setExpandedState_false_collapsed invariant.packed ((invariant.packed.keys panel).mp known)
      expanded
    obtain ⟨after, same, settled⟩ := CollapsePanel_spec known expanded
    rw [same, Option.some.injEq] at done
    subst done
    have consistent := invariant.consistent
    have closed : (bar.setExpandedState panel false).showInputForFirstCollapsed.StateConsistent :=
      .showInput consistent.armed consistent.watched consistent.deferred consistent.onscreen more
    refine settled.invariant packed ?_ closed
    rw [showInputForFirstCollapsed_eq]
    exact invariant.inside
  · rw [CollapsePanel, if_pos (by simpa using expanded)] at done
    exact Option.some.inj done ▸ invariant

theorem ShowCollapsedPanels_states (packed : bar.Packed) (inside : bar.DragInside)
    (done : bar.ShowCollapsedPanels = some next) : next.StateInvariant := by
  have kept := packed.keeps (keepsPacking_vertical.ShowCollapsedPanels done)
  obtain ⟨after, same, settled⟩ := ShowCollapsedPanels_spec packed.informed
  rw [same, Option.some.injEq] at done
  subst done
  refine settled.invariant kept inside ⟨?_, fun _ => rfl, ?_, ?_⟩
  · exact iff_of_false Bool.false_ne_true (by intro waiting; cases waiting)
  · intro waiting
    cases waiting
  · intro hidden
    cases hidden

theorem HideCollapsedPanels_states (packed : bar.Packed) (inside : bar.DragInside)
    (done : bar.HideCollapsedPanels = some next) : next.StateInvariant := by
  have kept := packed.keeps (keepsPacking_vertical.HideCollapsedPanels done)
  rw [HideCollapsedPanels] at done
  split at done
  · next dragging =>
    have same := Option.some.inj done
    subst same
    rw [draggingCollapsedPanel, Option.any_eq_true] at dragging
    obtain ⟨panel, dragged, -⟩ := dragging
    refine ⟨kept, inside, ?_, ?_, ?_, ?_⟩
    · exact iff_of_false Bool.false_ne_true (by intro waiting; cases waiting)
    · intro shown
      cases shown
    · exact fun _ => ⟨panel, inside panel dragged, dragged⟩
    · intro hidden
      cases hidden
  · have informed : bar.DisableShowCollapsedPanelsTimer.Informed := packed.informed
    obtain ⟨after, same, settled⟩ := hideNow_spec informed
    rw [same, Option.some.injEq] at done
    subst done
    refine settled.invariant kept inside ⟨?_, ?_, ?_, ?_⟩
    · exact iff_of_false Bool.false_ne_true (by intro waiting; cases waiting)
    · intro shown
      cases shown
    · intro waiting
      cases waiting
    · exact fun _ some_collapsed => if_pos some_collapsed

theorem finishHiding_states {pointer_y : ℤ} (packed : bar.Packed) (inside : bar.DragInside)
    (armed : bar.showCollapsedPanelsTimerArmed = true ↔
      bar.collapsed_panel_state_ = .COLLAPSED_PANEL_STATE_WAITING_TO_SHOW)
    (others : bar.collapsed_panel_state_ ≠ .COLLAPSED_PANEL_STATE_WAITING_TO_HIDE → bar.StateConsistent)
    (done : bar.finishHiding pointer_y = some next) : next.StateInvariant := by
  rw [finishHiding] at done
  split at done
  · next waiting =>
    split at done
    · exact HideCollapsedPanels_states packed inside done
    · have same := Option.some.inj done
      subst same
      refine ⟨packed.keeps ⟨rfl, fun _ => rfl, rfl, rfl, rfl⟩, inside, ?_, fun _ => rfl, ?_, ?_⟩
      · refine iff_of_false (fun set => ?_) (by intro other; cases other)
        cases (armed.mp set).symm.trans waiting
      · intro other
        cases other
      · intro other
        cases other
  · next other => exact Option.some.inj done ▸ ⟨packed, inside, others other⟩

theorem drop_states {info : PanelInfo} (invariant : bar.StateInvariant) (member : panel ∈ bar.panels_)
    (done : bar.drop panel info = some next) : next.StateInvariant := by
  rw [drop] at done
  split at done
  · exact Option.some.inj done ▸ invariant.settled (bar.moveX_settled panel _)
  · rw [dropVertically] at done
    split at done
    · obtain ⟨middle, opened, done⟩ := Option.bind_eq_some_iff.mp done
      exact Option.some.inj done ▸ (ExpandPanel_states invariant member opened).settled
        (middle.FocusPanel_settled panel)
    · split at done
      · exact CollapsePanel_states invariant done
      · exact Option.some.inj done ▸ invariant.settled (bar.moveY_settled panel _)

theorem HandlePanelDragComplete_states {pointer_y : ℤ} (invariant : bar.StateInvariant)
    (done : bar.HandlePanelDragComplete panel pointer_y = some next) : next.StateInvariant := by
  rw [HandlePanelDragComplete] at done
  split at done
  · exact Option.some.inj done ▸ invariant
  · obtain ⟨info, found, done⟩ := Option.bind_eq_some_iff.mp done
    obtain ⟨dropped, moved, done⟩ := Option.bind_eq_some_iff.mp done
    have member := (invariant.packed.keys panel).mp (Option.isSome_iff_exists.mpr ⟨info, found⟩)
    obtain ⟨packed, -, consistent⟩ := drop_states invariant member moved
    have released : Packed { dropped with dragged_panel_ := none } :=
      packed.keeps ⟨rfl, fun _ => rfl, rfl, rfl, rfl⟩
    refine finishHiding_states released (by intro _ dragged; cases dragged) consistent.armed
      (fun other => ⟨consistent.armed, consistent.watched, ?_, consistent.onscreen⟩) done
    exact fun waiting => absurd waiting other

/-- A drag of a panel of the bar begins. -/
theorem StateInvariant.dragging (invariant : bar.StateInvariant) (member : panel ∈ bar.panels_)
    (horizontally : Bool) :
    StateInvariant { bar with
      dragged_panel_ := some panel, dragging_panel_horizontally_ := horizontally } := by
  have consistent := invariant.consistent
  refine ⟨invariant.packed.keeps ⟨rfl, fun _ => rfl, rfl, rfl, rfl⟩, fun other dragged => ?_,
    consistent.armed, consistent.watched, fun _ => ⟨panel, member, rfl⟩, consistent.onscreen⟩
  cases Option.some.inj dragged
  exact member

theorem HandleNotifyPanelDraggedMessage_states {drag_x drag_y pointer_y : ℤ} {stays : Bool}
    (invariant : bar.StateInvariant) (member : panel ∈ bar.panels_)
    (done : bar.HandleNotifyPanelDraggedMessage panel drag_x drag_y pointer_y = some (stays, next)) :
    next.StateInvariant := by
  rw [HandleNotifyPanelDraggedMessage] at done
  split at done
  · rw [Option.some.injEq, Prod.mk.injEq] at done
    exact done.2 ▸ invariant
  · obtain ⟨begun, started, done⟩ := Option.bind_eq_some_iff.mp done
    obtain ⟨reordered, moved, done⟩ := Option.bind_eq_some_iff.mp done
    rw [Option.some.injEq, Prod.mk.injEq] at done
    have beginning : begun.StateInvariant := by
      rw [beginDrag] at started
      split at started
      · exact Option.some.inj started ▸ invariant
      · obtain ⟨middle, abandoned, started⟩ := Option.bind_eq_some_iff.mp started
        have kept : middle.StateInvariant ∧ panel ∈ middle.panels_ := by
          rw [abandonDrag] at abandoned
          split at abandoned
          · have panels := (HandlePanelDragComplete_keepsPacking abandoned).panels
            exact ⟨HandlePanelDragComplete_states invariant abandoned, panels ▸ member⟩
          · exact Option.some.inj abandoned ▸ ⟨invariant, member⟩
        exact Option.some.inj started ▸ kept.1.dragging kept.2 _
    have dragged := beginning.settled (begun.dragTo_settled panel drag_x drag_y)
    obtain ⟨packed, repacked⟩ := ReorderPanel_packed dragged.packed moved
    exact done.2 ▸ dragged.keeps packed repacked.keepsStates

/-- A panel has been put into a bar, and nothing else of its states has changed. -/
structure Inserted (before after : PanelBar) (panel : ℕ) : Prop where
  members : ∀ other, other ∈ after.panels_ ↔ other = panel ∨ other ∈ before.panels_
  collapsed : after.GetNumCollapsedPanels =
    before.GetNumCollapsedPanels + if after.screen.is_expanded panel then 0 else 1
  visibility : after.visibility = before.visibility

theorem insertPanel_inserted : bar.Inserted (bar.insertPanel panel) panel := by
  have parts : (bar.insertPanel panel).panels_ = panel :: bar.panels_ ∧
      (bar.insertPanel panel).screen = bar.screen ∧
      (bar.insertPanel panel).visibility = bar.visibility := by
    rw [insertPanel]
    split <;> exact ⟨rfl, rfl, rfl⟩
  refine ⟨fun other => ?_, ?_, parts.2.2⟩
  · rw [parts.1, List.mem_cons]
  · rw [GetNumCollapsedPanels, parts.1, parts.2.1, List.countP_cons]
    cases bar.screen.is_expanded panel <;> rfl

theorem Inserted.repacked {middle : PanelBar} (inserted : bar.Inserted middle panel)
    (repacked : middle.Repacked next) : bar.Inserted next panel where
  members other := (repacked.keepsStates.members other).trans (inserted.members other)
  collapsed := by
    rw [repacked.keepsStates.collapsed, inserted.collapsed, repacked.moved.is_expanded]
  visibility := repacked.visibility.trans inserted.visibility

/-- A bar with one more panel keeps its states when its input window has been looked after. -/
theorem Inserted.invariant {middle : PanelBar} (inserted : bar.Inserted middle panel)
    (invariant : bar.StateInvariant) (packed : next.Packed)
    (dragged : middle.dragged_panel_ = bar.dragged_panel_ ∨ middle.dragged_panel_ = some panel)
    (settled : (if !middle.screen.is_expanded panel then middle.showInputForFirstCollapsed
      else middle).Settled next) : next.StateInvariant := by
  obtain ⟨armed, watched, deferred, onscreen⟩ := invariant.consistent
  have same := inserted.visibility
  simp only [PanelBar.visibility, Prod.mk.injEq] at same
  obtain ⟨state, input, timer, watcher⟩ := same
  have inside : middle.DragInside := by
    intro other held
    rcases dragged with before | now
    · exact (inserted.members other).mpr (.inr (invariant.inside other (before.symm.trans held)))
    · exact (inserted.members other).mpr (.inl (Option.some.inj (held.symm.trans now)))
  have waits : middle.collapsed_panel_state_ = .COLLAPSED_PANEL_STATE_WAITING_TO_HIDE →
      ∃ other ∈ middle.panels_, middle.dragged_panel_ = some other := by
    intro waiting
    rcases dragged with before | now
    · obtain ⟨other, member, held⟩ := deferred (state ▸ waiting)
      exact ⟨other, (inserted.members other).mpr (.inr member), before.trans held⟩
    · exact ⟨panel, (inserted.members panel).mpr (.inl rfl), now⟩
  rw [← state, ← timer] at armed
  rw [← state, ← watcher] at watched
  rw [← state, ← input] at onscreen
  have counted := inserted.collapsed
  split at settled
  · next collapsed =>
    rw [if_neg (by simpa using collapsed)] at counted
    refine settled.invariant packed ?_ (.showInput armed watched waits onscreen counted)
    rw [showInputForFirstCollapsed_eq]
    exact inside
  · next expanded =>
    rw [if_pos (by simpa using expanded)] at counted
    refine settled.invariant packed inside ⟨armed, watched, waits, fun hidden some_collapsed => ?_⟩
    exact onscreen hidden (by omega)

theorem AddPanel_states {source : PanelSource} (invariant : bar.StateInvariant)
    (fresh : panel ∉ bar.panels_) (done : bar.AddPanel panel source = some next) : next.StateInvariant := by
  have packed := AddPanel_packed invariant.packed fresh done
  obtain ⟨started, begun, done⟩ := Option.bind_eq_some_iff.mp done
  obtain ⟨info, -, done⟩ := Option.bind_eq_some_iff.mp done
  have inserted : bar.Inserted started panel ∧
      (started.dragged_panel_ = bar.dragged_panel_ ∨ started.dragged_panel_ = some panel) := by
    have kept : (bar.insertPanel panel).dragged_panel_ = bar.dragged_panel_ := by
      rw [insertPanel]
      split <;> rfl
    rw [startDrag] at begun
    split at begun
    · obtain ⟨reordered, moved, begun⟩ := Option.bind_eq_some_iff.mp begun
      have repacked := (ReorderPanel_packed (insertPanel_packed invariant.packed fresh) moved).2
      have again := insertPanel_inserted.repacked repacked
      exact Option.some.inj begun ▸ ⟨⟨again.members, again.collapsed, again.visibility⟩, .inr rfl⟩
    · exact Option.some.inj begun ▸ ⟨insertPanel_inserted, .inl kept⟩
  have settled := (started.place_settled panel info source).trans (focusAdded_settled _ panel source)
  generalize (started.place panel info source).focusAdded panel source = added at settled done
  dsimp only at done
  refine inserted.1.invariant invariant packed inserted.2 ?_
  rw [← settled.moved.is_expanded]
  split at done
  · next collapsed => exact (if_pos collapsed).symm ▸ Option.some.inj done ▸ settled.showInput
  · next expanded => exact (if_neg expanded).symm ▸ Option.some.inj done ▸ settled

theorem RemovePanel_states (invariant : bar.StateInvariant)
    (stays : bar.collapsed_panel_state_ = .COLLAPSED_PANEL_STATE_WAITING_TO_HIDE →
      bar.dragged_panel_ ≠ some panel)
    (done : bar.RemovePanel panel = some next) : next.StateInvariant := by
  have packed := RemovePanel_packed invariant.packed done
  obtain ⟨member, repacked, packing, rfl⟩ := RemovePanel_erases invariant.packed done
  have consistent := invariant.consistent
  have held : (bar.without panel).dragged_panel_ =
      if bar.dragged_panel_ = some panel then none else bar.dragged_panel_ := rfl
  have inside : (bar.without panel).DragInside := by
    intro other dragged
    rw [held] at dragged
    split at dragged
    · cases dragged
    · next another =>
      have different : other ≠ panel := by
        rintro rfl
        exact another dragged
      exact (List.mem_erase_of_ne different).mpr (invariant.inside other dragged)
  have fewer : (bar.without panel).GetNumCollapsedPanels ≤ bar.GetNumCollapsedPanels :=
    List.erase_sublist.countP_le
  have erased : (bar.without panel).StateConsistent := by
    refine ⟨consistent.armed, consistent.watched, fun waiting => ?_, fun hidden left => ?_⟩
    · obtain ⟨other, -, dragged⟩ := consistent.deferred waiting
      rw [held, if_neg (stays waiting)]
      exact ⟨other, inside other (by rw [held, if_neg (stays waiting), dragged]), dragged⟩
    · exact consistent.onscreen hidden (by omega)
  have keeps := (without_repack invariant.packed packing).2.keepsStates
  have finished := erased.keeps keeps
  have dragInside := inside.keeps keeps
  split at packed
  · next collapsed =>
    rw [if_pos collapsed]
    refine ⟨packed, ?_, finished.hideInput⟩
    rw [hideInputAfterLastCollapsed_eq]
    exact dragInside
  · next expanded =>
    rw [if_neg expanded]
    exact ⟨packed, dragInside, finished⟩

end Handling

section Running

/-- No panel leaves the bar while hiding is put off until the end of its drag, and the pointer does not leave the
input window while that is offscreen and there are collapsed panels. -/
def StatesKept (bar : PanelBar) (event : PanelBarEvent) : Prop :=
  (∀ panel, event = .RemovePanel panel →
    bar.collapsed_panel_state_ = .COLLAPSED_PANEL_STATE_WAITING_TO_HIDE →
      bar.dragged_panel_ ≠ some panel) ∧
  (event = .HandleInputWindowPointerLeave →
    bar.collapsed_panel_state_ = .COLLAPSED_PANEL_STATE_WAITING_TO_SHOW → 0 < bar.GetNumCollapsedPanels →
      bar.showCollapsedPanelsInputOnscreen = true)

theorem step_states {event : PanelBarEvent} (invariant : bar.StateInvariant)
    (kept : bar.StatesKept event) (done : bar.step event = some next) : next.StateInvariant := by
  have packed := step_packed invariant.packed done
  have consistent := invariant.consistent
  cases event with
  | AddPanel panel source =>
    rw [step] at done
    split at done
    · cases done
    · next fresh => exact AddPanel_states invariant fresh done
  | RemovePanel panel =>
    obtain ⟨-, done⟩ := Option.ite_none_right_eq_some.mp done
    exact RemovePanel_states invariant (kept.1 panel rfl) done
  | HandleNotifyPanelDraggedMessage panel drag_x drag_y pointer_y =>
    obtain ⟨member, done⟩ := Option.ite_none_right_eq_some.mp done
    obtain ⟨⟨stays, after⟩, dragged, rfl⟩ := Option.map_eq_some_iff.mp done
    exact HandleNotifyPanelDraggedMessage_states invariant member dragged
  | HandleNotifyPanelDragCompleteMessage panel pointer_y =>
    obtain ⟨-, done⟩ := Option.ite_none_right_eq_some.mp done
    exact HandlePanelDragComplete_states invariant done
  | HandleSetPanelStateMessage panel expand =>
    obtain ⟨member, done⟩ := Option.ite_none_right_eq_some.mp done
    rw [HandleSetPanelStateMessage] at done
    split at done
    · exact ExpandPanel_states invariant member done
    · exact CollapsePanel_states invariant done
  | HandleFocusPanelMessage panel =>
    obtain ⟨member, done⟩ := Option.ite_none_right_eq_some.mp done
    obtain ⟨middle, expanded, done⟩ := Option.bind_eq_some_iff.mp done
    exact Option.some.inj done ▸ (ExpandPanel_states invariant member expanded).settled
      (middle.FocusPanel_settled panel)
  | HandlePanelButtonPress panel =>
    obtain ⟨-, done⟩ := Option.ite_none_right_eq_some.mp done
    exact Option.some.inj done ▸ invariant.settled (bar.FocusPanel_settled panel)
  | HandlePanelTitlebarPointerEnter panel =>
    obtain ⟨-, done⟩ := Option.ite_none_right_eq_some.mp done
    rw [HandlePanelTitlebarPointerEnter] at done
    split at done
    · exact ShowCollapsedPanels_states invariant.packed invariant.inside done
    · exact Option.some.inj done ▸ invariant
  | HandlePanelUrgencyChange panel =>
    obtain ⟨member, done⟩ := Option.ite_none_right_eq_some.mp done
    obtain ⟨info, found, done⟩ := Option.bind_eq_some_iff.mp done
    dsimp only at done
    split at done
    · exact Option.some.inj done ▸ invariant
    · generalize noted : bar.setInfo panel
        (some { info with is_urgent := (bar.screen.content_win panel).wm_hint_urgent }) = informed at done
      have same : bar.KeepsStates informed := noted ▸ ⟨fun _ => .rfl, rfl, rfl, rfl⟩
      have known : (informed.panel_infos_ panel).isSome := by
        rw [← noted, setInfo_self]
        rfl
      obtain ⟨after, placed, settled⟩ := settle_settled known
      rw [placed, Option.some.injEq] at done
      exact invariant.keeps packed (same.trans (done ▸ settled.keepsStates))
  | HandlePanelResize panel width height gravity =>
    obtain ⟨-, done⟩ := Option.ite_none_right_eq_some.mp done
    have resized : bar.KeepsStates
        { bar with screen := bar.screen.ResizeContent panel width height gravity } := by
      refine ⟨fun _ => .rfl, List.countP_congr fun other _ => ?_, rfl, rfl⟩
      rw [bar.screen.ResizeContent_is_expanded]
    have informed : Informed { bar with screen := bar.screen.ResizeContent panel width height gravity } :=
      invariant.packed.informed
    obtain ⟨after, same, repacked, -⟩ := PackPanels_spec informed invariant.packed.nodup none
    rw [HandlePanelResize, same, Option.some.injEq] at done
    exact invariant.keeps packed (done ▸ resized.trans repacked.keepsStates)
  | HandleScreenResize width height =>
    obtain ⟨middle, -, settled, -, -, repacked⟩ := HandleScreenResize_repacks invariant.packed done
    have resized : bar.KeepsStates (bar.onScreen width height) := ⟨fun _ => .rfl, rfl, rfl, rfl⟩
    exact invariant.keeps packed (resized.trans (settled.keepsStates.trans repacked.keepsStates))
  | HandleInputWindowButtonPress button =>
    have destroyed : bar.DestroyAnchor.StateInvariant :=
      invariant.keeps (invariant.packed.keeps ⟨rfl, fun _ => rfl, rfl, rfl, rfl⟩)
        ⟨fun _ => .rfl, rfl, rfl, rfl⟩
    rw [step, HandleInputWindowButtonPress] at done
    split at done
    · exact Option.some.inj done ▸ invariant
    · split at done
      · exact CollapsePanel_states destroyed done
      · exact Option.some.inj done ▸ destroyed
  | HandleInputWindowPointerEnter x_root =>
    rw [step, HandleInputWindowPointerEnter] at done
    split at done
    · exact ShowCollapsedPanels_states invariant.packed invariant.inside done
    · split at done
      · refine Option.some.inj done ▸ ⟨invariant.packed.keeps ⟨rfl, fun _ => rfl, rfl, rfl, rfl⟩,
          invariant.inside, iff_of_true rfl rfl, ?_, ?_, ?_⟩
        · intro other
          cases other
        · intro other
          cases other
        · intro other
          cases other
      · exact Option.some.inj done ▸ invariant
  | HandleInputWindowPointerLeave =>
    rw [step, Option.some.injEq] at done
    subst done
    rw [HandleInputWindowPointerLeave] at packed ⊢
    split
    · next waiting =>
      refine ⟨invariant.packed.keeps ⟨rfl, fun _ => rfl, rfl, rfl, rfl⟩, invariant.inside, ?_, ?_, ?_,
        fun _ left => kept.2 rfl waiting left⟩
      · exact iff_of_false Bool.false_ne_true (by intro other; cases other)
      · intro other
        cases other
      · intro other
        cases other
    · exact invariant
  | HandleShowCollapsedPanelsTimer =>
    obtain ⟨-, done⟩ := Option.ite_none_right_eq_some.mp done
    have disarmed : bar.DisableShowCollapsedPanelsTimer.Packed :=
      invariant.packed.keeps ⟨rfl, fun _ => rfl, rfl, rfl, rfl⟩
    exact ShowCollapsedPanels_states disarmed invariant.inside done
  | hideCollapsedPanelsWatcher =>
    obtain ⟨-, done⟩ := Option.ite_none_right_eq_some.mp done
    have stopped : Packed { bar with hide_collapsed_panels_pointer_watcher_ := some false } :=
      invariant.packed.keeps ⟨rfl, fun _ => rfl, rfl, rfl, rfl⟩
    exact HideCollapsedPanels_states stopped invariant.inside done
  | anchorPointerWatcher =>
    rw [step, Option.some.injEq] at done
    exact done ▸ invariant.keeps (invariant.packed.keeps ⟨rfl, fun _ => rfl, rfl, rfl, rfl⟩)
      ⟨fun _ => .rfl, rfl, rfl, rfl⟩
  | TakeFocus =>
    rw [step, Option.some.injEq] at done
    exact done ▸ invariant.settled bar.TakeFocus_settled
  | elsewhere screen =>
    rw [step] at done
    split at done
    · next keeps =>
      rw [Option.some.injEq] at done
      simp only [keepsPanels, Bool.and_eq_true, decide_eq_true_eq, List.all_eq_true] at keeps
      subst done
      refine invariant.keeps packed ⟨fun _ => .rfl, List.countP_congr fun panel member => ?_, rfl, rfl⟩
      rw [Screen.is_expanded, (keeps.2 panel member).1]
      rfl
    · cases done

end Running

end ChromiumOS.WindowManager.PanelBar
