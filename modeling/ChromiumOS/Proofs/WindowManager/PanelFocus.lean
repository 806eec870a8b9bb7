import ChromiumOS.Proofs.WindowManager.PackedRuns

/-! # The panel to focus next

The bar remembers the panel that it would focus. Whoever collapses that panel has another one chosen only
if the panel has the focus at that moment, and a click focuses any panel.
-/

namespace ChromiumOS.WindowManager.PanelBar

/-- The panel to focus next, if there is one, is an expanded panel of the bar. -/
def FocusSound (bar : PanelBar) : Prop :=
  ∀ panel, bar.desired_panel_to_focus_ = some panel →
    panel ∈ bar.panels_ ∧ bar.screen.is_expanded panel = true

/-- The panels, their states and the panel to focus next stay. -/
structure KeepsFocus (before after : PanelBar) : Prop where
  panels : ∀ panel, panel ∈ after.panels_ ↔ panel ∈ before.panels_
  expanded : ∀ panel, after.screen.is_expanded panel = before.screen.is_expanded panel
  desired : after.desired_panel_to_focus_ = before.desired_panel_to_focus_

namespace KeepsFocus

variable {first second third : PanelBar}

theorem refl (bar : PanelBar) : bar.KeepsFocus bar := ⟨fun _ => .rfl, fun _ => rfl, rfl⟩

theorem trans (keeps : first.KeepsFocus second) (again : second.KeepsFocus third) :
    first.KeepsFocus third where
  panels panel := (again.panels panel).trans (keeps.panels panel)
  expanded panel := (again.expanded panel).trans (keeps.expanded panel)
  desired := again.desired.trans keeps.desired

end KeepsFocus

variable {bar next : PanelBar} {panel : ℕ}

theorem FocusSound.keeps (sound : bar.FocusSound) (keeps : bar.KeepsFocus next) : next.FocusSound := by
  intro panel chosen
  rw [keeps.desired] at chosen
  obtain ⟨member, expanded⟩ := sound panel chosen
  exact ⟨(keeps.panels panel).mpr member, (keeps.expanded panel).trans expanded⟩

section Choosing

theorem nearer_sound {screen : Screen} {best : Option ℕ × ℤ} {other found : ℕ}
    (nearest : (nearer screen panel best other).1 = some found) :
    best.1 = some found ∨ found = other ∧ other ≠ panel ∧ screen.is_expanded other = true := by
  rw [nearer] at nearest
  split at nearest
  · exact .inl nearest
  · next eligible =>
    split at nearest
    · rw [not_or] at eligible
      exact .inr ⟨(Option.some.inj nearest).symm, eligible.1, by simpa using eligible.2⟩
    · exact .inl nearest

theorem foldl_nearer_sound {screen : Screen} {panels : List ℕ} {best : Option ℕ × ℤ} {found : ℕ}
    (nearest : (panels.foldl (nearer screen panel) best).1 = some found) :
    best.1 = some found ∨ found ∈ panels ∧ found ≠ panel ∧ screen.is_expanded found = true := by
  induction panels generalizing best with
  | nil => exact .inl nearest
  | cons other rest ih =>
    rcases ih nearest with before | ⟨member, different, expanded⟩
    · rcases nearer_sound before with earlier | ⟨rfl, different, expanded⟩
      · exact .inl earlier
      · exact .inr ⟨List.mem_cons_self, different, expanded⟩
    · exact .inr ⟨List.mem_cons_of_mem _ member, different, expanded⟩

theorem GetNearestExpandedPanel_sound {found : ℕ} (nearest : bar.GetNearestExpandedPanel panel = some found) :
    found ∈ bar.panels_ ∧ found ≠ panel ∧ bar.screen.is_expanded found = true := by
  rw [GetNearestExpandedPanel] at nearest
  split at nearest
  · cases nearest
  · exact (foldl_nearer_sound nearest).resolve_left (by simp)

theorem FocusPanel_sound (member : panel ∈ bar.panels_) (expanded : bar.screen.is_expanded panel = true) :
    (bar.FocusPanel panel).FocusSound := by
  intro other chosen
  cases Option.some.inj chosen
  exact ⟨member, expanded⟩

theorem panelToFocus_sound (sound : bar.FocusSound) (chosen : bar.panelToFocus = some panel) :
    panel ∈ bar.panels_ ∧ bar.screen.is_expanded panel = true := by
  rw [panelToFocus, Option.or_eq_some_iff] at chosen
  rcases chosen with remembered | ⟨-, first⟩
  · exact sound panel remembered
  · exact ⟨List.mem_of_find?_eq_some first, List.find?_some first⟩

theorem TakeFocus_sound (sound : bar.FocusSound) : bar.TakeFocus.2.FocusSound := by
  rw [TakeFocus]
  split
  · next chosen =>
    obtain ⟨member, expanded⟩ := panelToFocus_sound sound chosen
    exact FocusPanel_sound member expanded
  · exact sound

theorem wmTakeFocus_sound (sound : bar.FocusSound) : bar.wmTakeFocus.FocusSound := by
  rw [wmTakeFocus]
  split
  · exact sound
  · exact TakeFocus_sound sound

/-- Giving up the focus leaves a sound choice behind, unless the panel did not have the focus. -/
theorem giveUpFocus_sound {panel_to_focus : Option ℕ}
    (nearest : ∀ other, panel_to_focus = some other →
      other ∈ bar.panels_ ∧ bar.screen.is_expanded other = true)
    (unfocused : (bar.screen.content_win panel).focused = false → bar.FocusSound) :
    (bar.giveUpFocus panel panel_to_focus).FocusSound := by
  rw [giveUpFocus]
  split
  · have chosen : FocusSound { bar with desired_panel_to_focus_ := panel_to_focus } := nearest
    have taken := TakeFocus_sound chosen
    dsimp only
    split
    · next found =>
      rw [found] at taken
      exact taken
    · next found =>
      rw [found] at taken
      exact wmTakeFocus_sound taken
  · next lost => exact unfocused (by simpa using lost)

end Choosing

section Keeping

theorem Repacked.keepsFocus (repacked : bar.Repacked next)
    (desired : next.desired_panel_to_focus_ = bar.desired_panel_to_focus_) : bar.KeepsFocus next :=
  ⟨fun _ => repacked.panels.mem_iff, repacked.moved.is_expanded, desired⟩

theorem Settled.keepsFocus (settled : bar.Settled next)
    (desired : next.desired_panel_to_focus_ = bar.desired_panel_to_focus_) : bar.KeepsFocus next :=
  settled.repacked.keepsFocus desired

theorem moveX_keepsFocus (panel : ℕ) (right : ℤ) : bar.KeepsFocus (bar.moveX panel right) :=
  (bar.moveX_settled panel right).keepsFocus rfl

theorem moveY_keepsFocus (panel : ℕ) (y : ℤ) : bar.KeepsFocus (bar.moveY panel y) :=
  (bar.moveY_settled panel y).keepsFocus rfl

theorem keepsFocus_vertical : VerticalRelation KeepsFocus where
  refl := .refl
  trans _ _ _ keeps again := keeps.trans again
  moveY _ panel y := moveY_keepsFocus panel y
  states _ _ _ _ _ := ⟨fun _ => .rfl, fun _ => rfl, rfl⟩

theorem packPanel_keepsFocus (fixed_panel : Option ℕ) (bar : PanelBar) (panel : ℕ) (next : PanelBar)
    (done : packPanel fixed_panel bar panel = some next) : bar.KeepsFocus next := by
  obtain ⟨info, -, done⟩ := Option.bind_eq_some_iff.mp done
  dsimp only at done
  generalize bar.screen.width - bar.total_panel_width_ - kPixelsBetweenPanels = snapped_right at done
  have snapped : bar.KeepsFocus
      ((bar.setInfo panel (some { info with snapped_right })).snap fixed_panel panel snapped_right) := by
    rw [snap]
    split
    · have noted : bar.KeepsFocus (bar.setInfo panel (some { info with snapped_right })) :=
        ⟨fun _ => .rfl, fun _ => rfl, rfl⟩
      exact noted.trans (moveX_keepsFocus panel snapped_right)
    · exact ⟨fun _ => .rfl, fun _ => rfl, rfl⟩
  exact Option.some.inj done ▸ snapped.trans ⟨fun _ => .rfl, fun _ => rfl, rfl⟩

theorem PackPanels_keepsFocus {fixed_panel : Option ℕ} (done : bar.PackPanels fixed_panel = some next) :
    bar.KeepsFocus next := by
  rw [PackPanels] at done
  have cleared : bar.KeepsFocus { bar with total_panel_width_ := 0 } := ⟨fun _ => .rfl, fun _ => rfl, rfl⟩
  exact cleared.trans (keepsFocus_vertical.foldlM (packPanel_keepsFocus fixed_panel) done)

theorem ReorderPanel_desired (done : bar.ReorderPanel panel = some next) :
    next.desired_panel_to_focus_ = bar.desired_panel_to_focus_ := by
  obtain ⟨info, -, done⟩ := Option.bind_eq_some_iff.mp done
  dsimp only at done
  split at done
  · exact Option.some.inj done ▸ rfl
  · exact (PackPanels_keepsFocus done).desired

theorem ReorderPanel_keepsFocus (packed : bar.Packed) (done : bar.ReorderPanel panel = some next) :
    bar.KeepsFocus next :=
  (ReorderPanel_packed packed done).2.keepsFocus (ReorderPanel_desired done)

theorem repack_desired (done : bar.repack = some next) :
    next.desired_panel_to_focus_ = bar.desired_panel_to_focus_ := by
  obtain ⟨middle, packed, done⟩ := Option.bind_eq_some_iff.mp done
  have same := (PackPanels_keepsFocus packed).desired
  split at done
  · exact (ReorderPanel_desired done).trans same
  · exact Option.some.inj done ▸ same

theorem place_keepsFocus (panel : ℕ) (info : PanelInfo) (source : PanelSource) :
    bar.KeepsFocus (bar.place panel info source) := by
  refine (bar.place_settled panel info source).keepsFocus ?_
  cases source <;> rfl

end Keeping

section Collapsing

theorem ExpandPanel_sound {create_anchor : Bool} (sound : bar.FocusSound)
    (done : bar.ExpandPanel panel create_anchor = some next) :
    next.FocusSound ∧ next.screen.is_expanded panel = true ∧
      ∀ other, other ∈ next.panels_ ↔ other ∈ bar.panels_ := by
  rw [ExpandPanel] at done
  split at done
  · next expanded => exact Option.some.inj done ▸ ⟨sound, expanded, fun _ => .rfl⟩
  · obtain ⟨info, -, done⟩ := Option.bind_eq_some_iff.mp done
    have expanded : (bar.setExpandedState panel true).screen.is_expanded panel = true :=
      bar.screen.SetExpandedState_is_expanded panel true
    have kept : (bar.setExpandedState panel true).FocusSound := by
      intro other chosen
      obtain ⟨member, known⟩ := sound other chosen
      by_cases same : other = panel
      · exact ⟨member, same ▸ expanded⟩
      · exact ⟨member, (bar.screen.SetExpandedState_is_expanded_of_ne same true).trans known⟩
    have panels : ∀ other, other ∈ (bar.setExpandedState panel true).panels_ ↔ other ∈ bar.panels_ :=
      fun _ => .rfl
    generalize bar.setExpandedState panel true = opened at expanded kept panels done
    dsimp only at done
    have moved := @moveY_keepsFocus opened panel (opened.ComputePanelY panel info)
    generalize opened.moveY panel (opened.ComputePanelY panel info) = positioned at moved done
    have anchored : opened.KeepsFocus (if create_anchor then positioned.CreateAnchor panel else positioned) := by
      split
      · exact moved.trans ⟨fun _ => .rfl, fun _ => rfl, rfl⟩
      · exact moved
    have finished := anchored.trans (keepsFocus_vertical.hideInput _)
    rw [Option.some.inj done] at finished
    exact ⟨kept.keeps finished, (finished.expanded panel).trans expanded,
      fun other => (finished.panels other).trans (panels other)⟩

theorem CollapsePanel_sound (sound : bar.FocusSound)
    (focused : bar.desired_panel_to_focus_ = some panel → (bar.screen.content_win panel).focused = true)
    (done : bar.CollapsePanel panel = some next) : next.FocusSound := by
  rw [CollapsePanel] at done
  split at done
  · exact Option.some.inj done ▸ sound
  · obtain ⟨info, -, done⟩ := Option.bind_eq_some_iff.mp done
    generalize nearest : bar.GetNearestExpandedPanel panel = panel_to_focus at done
    have anchored : bar.KeepsFocus (if bar.anchor_panel_ = some panel then bar.DestroyAnchor else bar) ∧
        (if bar.anchor_panel_ = some panel then bar.DestroyAnchor else bar).screen = bar.screen := by
      split
      · exact ⟨⟨fun _ => .rfl, fun _ => rfl, rfl⟩, rfl⟩
      · exact ⟨.refl bar, rfl⟩
    generalize (if bar.anchor_panel_ = some panel then bar.DestroyAnchor else bar) = free at anchored done
    obtain ⟨anchored, screen⟩ := anchored
    have others : ∀ other, other ∈ bar.panels_ ∧ other ≠ panel ∧ bar.screen.is_expanded other = true →
        other ∈ (free.setExpandedState panel false).panels_ ∧
          (free.setExpandedState panel false).screen.is_expanded other = true := by
      rintro other ⟨member, different, expanded⟩
      refine ⟨(anchored.panels other).mpr member, ?_⟩
      rw [← screen] at expanded
      exact (free.screen.SetExpandedState_is_expanded_of_ne different false).trans expanded
    have same : ((free.setExpandedState panel false).screen.content_win panel).focused =
        (bar.screen.content_win panel).focused := by
      rw [← screen]
      exact congrArg PanelWindow.focused (free.screen.SetExpandedState_content_win panel false panel)
    have desired : (free.setExpandedState panel false).desired_panel_to_focus_ =
        bar.desired_panel_to_focus_ := anchored.desired
    generalize free.setExpandedState panel false = collapsed at others same desired done
    have settled := collapsed.moveY_settled panel (collapsed.ComputePanelY panel info)
    have moved := @moveY_keepsFocus collapsed panel (collapsed.ComputePanelY panel info)
    generalize collapsed.moveY panel (collapsed.ComputePanelY panel info) = positioned at settled moved done
    have gaveUp : (positioned.giveUpFocus panel panel_to_focus).FocusSound := by
      refine giveUpFocus_sound (fun other chosen => ?_) fun unfocused other chosen => ?_
      · subst chosen
        obtain ⟨member, expanded⟩ := others other (GetNearestExpandedPanel_sound nearest)
        exact ⟨(moved.panels other).mpr member, (moved.expanded other).trans expanded⟩
      · rw [moved.desired, desired] at chosen
        rw [settled.moved.focused, same] at unfocused
        have different : other ≠ panel := by
          rintro rfl
          exact Bool.false_ne_true (unfocused.symm.trans (focused chosen))
        obtain ⟨member, expanded⟩ := sound other chosen
        obtain ⟨member, expanded⟩ := others other ⟨member, different, expanded⟩
        exact ⟨(moved.panels other).mpr member, (moved.expanded other).trans expanded⟩
    exact Option.some.inj done ▸ gaveUp.keeps (keepsFocus_vertical.showInput _)

end Collapsing

section Running

/-- Whether a panel is collapsed when a vertical drag of it ends, for being dragged too far down. -/
def droppedLow (bar : PanelBar) (panel : ℕ) : Prop :=
  bar.dragging_panel_horizontally_ = false ∧
    ¬ 2 * bar.screen.titlebar_y panel < 2 * bar.screen.height - bar.screen.total_height panel

/-- Whether an event collapses a panel, if it is expanded. -/
def collapsedBy (bar : PanelBar) (panel : ℕ) : PanelBarEvent → Prop
  | .HandleSetPanelStateMessage other expand => other = panel ∧ expand = false
  | .HandleInputWindowButtonPress button => button = 1 ∧ bar.anchor_panel_ = some panel
  | .HandleNotifyPanelDragCompleteMessage other _ =>
    other = panel ∧ bar.dragged_panel_ = some panel ∧ bar.droppedLow panel
  | .HandleNotifyPanelDraggedMessage other _ drag_y _ =>
    other ≠ panel ∧ bar.dragged_panel_ = some panel ∧
      bar.screen.height - bar.screen.total_height other - kPanelDetachThresholdPixels < drag_y ∧
      bar.droppedLow panel
  | _ => False

/-- No collapsed panel is clicked, and the panel to focus next is collapsed only while it has the focus. -/
def ChoiceKept (bar : PanelBar) (event : PanelBarEvent) : Prop :=
  (∀ panel, event = .HandlePanelButtonPress panel → bar.screen.is_expanded panel = true) ∧
    ∀ panel, bar.desired_panel_to_focus_ = some panel → bar.collapsedBy panel event →
      (bar.screen.content_win panel).focused = true

theorem drop_sound {info : PanelInfo} (member : panel ∈ bar.panels_) (sound : bar.FocusSound)
    (focused : bar.desired_panel_to_focus_ = some panel → bar.droppedLow panel →
      (bar.screen.content_win panel).focused = true)
    (done : bar.drop panel info = some next) : next.FocusSound := by
  rw [drop] at done
  split at done
  · exact Option.some.inj done ▸ sound.keeps (moveX_keepsFocus panel _)
  · next vertically =>
    rw [dropVertically] at done
    split at done
    · obtain ⟨middle, opened, done⟩ := Option.bind_eq_some_iff.mp done
      obtain ⟨-, expanded, panels⟩ := ExpandPanel_sound sound opened
      exact Option.some.inj done ▸ FocusPanel_sound ((panels panel).mpr member) expanded
    · split at done
      · next low =>
        refine CollapsePanel_sound sound (fun chosen => focused chosen ⟨?_, low.1⟩) done
        simpa using vertically
      · exact Option.some.inj done ▸ sound.keeps (moveY_keepsFocus panel _)

theorem HandlePanelDragComplete_sound {pointer_y : ℤ} (packed : bar.Packed) (sound : bar.FocusSound)
    (focused : bar.dragged_panel_ = some panel → bar.desired_panel_to_focus_ = some panel →
      bar.droppedLow panel → (bar.screen.content_win panel).focused = true)
    (done : bar.HandlePanelDragComplete panel pointer_y = some next) : next.FocusSound := by
  rw [HandlePanelDragComplete] at done
  split at done
  · exact Option.some.inj done ▸ sound
  · next dragged =>
    obtain ⟨info, found, done⟩ := Option.bind_eq_some_iff.mp done
    obtain ⟨dropped, moved, done⟩ := Option.bind_eq_some_iff.mp done
    have member := (packed.keys panel).mp (Option.isSome_iff_exists.mpr ⟨info, found⟩)
    have kept := drop_sound member sound (focused (not_not.mp dragged)) moved
    have released : dropped.KeepsFocus { dropped with dragged_panel_ := none } :=
      ⟨fun _ => .rfl, fun _ => rfl, rfl⟩
    exact kept.keeps (released.trans (keepsFocus_vertical.finishHiding done))

theorem beginDrag_sound {drag_x drag_y pointer_y : ℤ} (packed : bar.Packed) (sound : bar.FocusSound)
    (focused : ∀ other ≠ panel, bar.dragged_panel_ = some other →
      bar.desired_panel_to_focus_ = some other → bar.droppedLow other →
      (bar.screen.content_win other).focused = true)
    (done : bar.beginDrag panel drag_x drag_y pointer_y = some next) : next.FocusSound := by
  rw [beginDrag] at done
  split at done
  · exact Option.some.inj done ▸ sound
  · next another =>
    obtain ⟨middle, abandoned, done⟩ := Option.bind_eq_some_iff.mp done
    have kept : middle.FocusSound := by
      rw [abandonDrag] at abandoned
      split at abandoned
      · next other dragged =>
        have different : other ≠ panel := by
          rintro rfl
          exact another dragged
        exact HandlePanelDragComplete_sound packed sound (focused other different) abandoned
      · exact Option.some.inj abandoned ▸ sound
    exact Option.some.inj done ▸ kept.keeps ⟨fun _ => .rfl, fun _ => rfl, rfl⟩

theorem HandleNotifyPanelDraggedMessage_sound {drag_x drag_y pointer_y : ℤ} {stays : Bool}
    (packed : bar.Packed) (sound : bar.FocusSound)
    (kept : bar.ChoiceKept (.HandleNotifyPanelDraggedMessage panel drag_x drag_y pointer_y))
    (done : bar.HandleNotifyPanelDraggedMessage panel drag_x drag_y pointer_y = some (stays, next)) :
    next.FocusSound := by
  rw [HandleNotifyPanelDraggedMessage] at done
  split at done
  · rw [Option.some.injEq, Prod.mk.injEq] at done
    exact done.2 ▸ sound
  · next near =>
    obtain ⟨begun, started, done⟩ := Option.bind_eq_some_iff.mp done
    obtain ⟨reordered, moved, done⟩ := Option.bind_eq_some_iff.mp done
    rw [Option.some.injEq, Prod.mk.injEq] at done
    have position := begun.dragTo_settled panel drag_x drag_y
    have packedAgain := (packed.keeps (beginDrag_keepsPacking started)).settled position
    have begunSound := beginDrag_sound packed sound
      (fun other different dragged chosen low =>
        kept.2 other chosen ⟨different.symm, dragged, not_le.mp near, low⟩) started
    have dragged : begun.KeepsFocus (begun.dragTo panel drag_x drag_y) := by
      refine position.keepsFocus ?_
      rw [dragTo]
      split <;> rfl
    exact done.2 ▸ begunSound.keeps (dragged.trans (ReorderPanel_keepsFocus packedAgain moved))

theorem AddPanel_sound {source : PanelSource} (packed : bar.Packed) (sound : bar.FocusSound)
    (fresh : panel ∉ bar.panels_) (done : bar.AddPanel panel source = some next) : next.FocusSound := by
  obtain ⟨started, begun, done⟩ := Option.bind_eq_some_iff.mp done
  obtain ⟨info, -, done⟩ := Option.bind_eq_some_iff.mp done
  have inserted := insertPanel_packed packed fresh
  have insertedSound : (bar.insertPanel panel).FocusSound := by
    intro other chosen
    have parts : (bar.insertPanel panel).desired_panel_to_focus_ = bar.desired_panel_to_focus_ ∧
        (bar.insertPanel panel).screen = bar.screen := by
      rw [insertPanel]
      split <;> exact ⟨rfl, rfl⟩
    rw [parts.1] at chosen
    obtain ⟨member, expanded⟩ := sound other chosen
    rw [parts.2]
    refine ⟨?_, expanded⟩
    rw [insertPanel]
    split <;> exact List.mem_cons_of_mem _ member
  have positioned : (bar.insertPanel panel).KeepsFocus started := by
    rw [startDrag] at begun
    split at begun
    · obtain ⟨reordered, moved, begun⟩ := Option.bind_eq_some_iff.mp begun
      exact Option.some.inj begun ▸ (ReorderPanel_keepsFocus inserted moved).trans
        ⟨fun _ => .rfl, fun _ => rfl, rfl⟩
    · exact Option.some.inj begun ▸ .refl _
  have placed := positioned.trans (place_keepsFocus panel info source)
  have member : panel ∈ (started.place panel info source).panels_ := by
    rw [placed.panels, insertPanel]
    split <;> exact List.mem_cons_self
  have placedSound := insertedSound.keeps placed
  generalize started.place panel info source = arrived at member placedSound done
  have focused : (arrived.focusAdded panel source).FocusSound := by
    rw [focusAdded]
    split
    · next expanded => exact FocusPanel_sound member expanded.1
    · exact placedSound
  generalize arrived.focusAdded panel source = added at focused done
  dsimp only at done
  split at done
  · exact Option.some.inj done ▸ focused.keeps (keepsFocus_vertical.showInput _)
  · exact Option.some.inj done ▸ focused

theorem without_sound (sound : bar.FocusSound) : (bar.without panel).FocusSound := by
  intro other chosen
  have remembered : (if bar.desired_panel_to_focus_ = some panel then bar.GetNearestExpandedPanel panel
      else bar.desired_panel_to_focus_) = some other := chosen
  have kept : other ∈ bar.panels_ ∧ other ≠ panel ∧ bar.screen.is_expanded other = true := by
    split at remembered
    · exact GetNearestExpandedPanel_sound remembered
    · next another =>
      obtain ⟨member, expanded⟩ := sound other remembered
      exact ⟨member, fun same => another (same ▸ remembered), expanded⟩
  exact ⟨(List.mem_erase_of_ne kept.2.1).mpr kept.1, kept.2.2⟩

theorem RemovePanel_sound (packed : bar.Packed) (sound : bar.FocusSound)
    (done : bar.RemovePanel panel = some next) : next.FocusSound := by
  obtain ⟨member, repacked, packing, rfl⟩ := RemovePanel_erases packed done
  have kept := (without_sound sound).keeps
    ((without_repack packed packing).2.keepsFocus (repack_desired packing))
  split
  · exact kept.keeps (keepsFocus_vertical.hideInput _)
  · exact kept

theorem step_sound {event : PanelBarEvent} (packed : bar.Packed) (sound : bar.FocusSound)
    (kept : bar.ChoiceKept event) (done : bar.step event = some next) : next.FocusSound := by
  cases event with
  | AddPanel panel source =>
    rw [step] at done
    split at done
    · cases done
    · next fresh => exact AddPanel_sound packed sound fresh done
  | RemovePanel panel =>
    obtain ⟨-, done⟩ := Option.ite_none_right_eq_some.mp done
    exact RemovePanel_sound packed sound done
  | HandleNotifyPanelDraggedMessage panel drag_x drag_y pointer_y =>
    obtain ⟨-, done⟩ := Option.ite_none_right_eq_some.mp done
    obtain ⟨⟨stays, after⟩, dragged, rfl⟩ := Option.map_eq_some_iff.mp done
    exact HandleNotifyPanelDraggedMessage_sound packed sound kept dragged
  | HandleNotifyPanelDragCompleteMessage panel pointer_y =>
    obtain ⟨-, done⟩ := Option.ite_none_right_eq_some.mp done
    exact HandlePanelDragComplete_sound packed sound
      (fun dragged chosen low => kept.2 panel chosen ⟨rfl, dragged, low⟩) done
  | HandleSetPanelStateMessage panel expand =>
    obtain ⟨member, done⟩ := Option.ite_none_right_eq_some.mp done
    rw [HandleSetPanelStateMessage] at done
    split at done
    · exact (ExpandPanel_sound sound done).1
    · next collapse =>
      exact CollapsePanel_sound sound (fun chosen => kept.2 panel chosen ⟨rfl, by simpa using collapse⟩) done
  | HandleFocusPanelMessage panel =>
    obtain ⟨member, done⟩ := Option.ite_none_right_eq_some.mp done
    obtain ⟨middle, opened, done⟩ := Option.bind_eq_some_iff.mp done
    obtain ⟨-, expanded, panels⟩ := ExpandPanel_sound sound opened
    exact Option.some.inj done ▸ FocusPanel_sound ((panels panel).mpr member) expanded
  | HandlePanelButtonPress panel =>
    obtain ⟨member, done⟩ := Option.ite_none_right_eq_some.mp done
    exact Option.some.inj done ▸ FocusPanel_sound member (kept.1 panel rfl)
  | HandlePanelTitlebarPointerEnter panel =>
    obtain ⟨-, done⟩ := Option.ite_none_right_eq_some.mp done
    rw [HandlePanelTitlebarPointerEnter] at done
    split at done
    · exact sound.keeps (keepsFocus_vertical.ShowCollapsedPanels done)
    · exact Option.some.inj done ▸ sound
  | HandlePanelUrgencyChange panel =>
    obtain ⟨-, done⟩ := Option.ite_none_right_eq_some.mp done
    obtain ⟨info, -, done⟩ := Option.bind_eq_some_iff.mp done
    dsimp only at done
    split at done
    · exact Option.some.inj done ▸ sound
    · generalize noted : bar.setInfo panel
        (some { info with is_urgent := (bar.screen.content_win panel).wm_hint_urgent }) = informed at done
      have same : bar.KeepsFocus informed := noted ▸ ⟨fun _ => .rfl, fun _ => rfl, rfl⟩
      exact sound.keeps (same.trans (keepsFocus_vertical.settle done))
  | HandlePanelResize panel width height gravity =>
    obtain ⟨-, done⟩ := Option.ite_none_right_eq_some.mp done
    have resized : bar.KeepsFocus
        { bar with screen := bar.screen.ResizeContent panel width height gravity } :=
      ⟨fun _ => .rfl, bar.screen.ResizeContent_is_expanded panel width height gravity, rfl⟩
    exact sound.keeps (resized.trans (PackPanels_keepsFocus done))
  | HandleScreenResize width height =>
    obtain ⟨middle, jumped, -, done, -, repacked⟩ := HandleScreenResize_repacks packed done
    have resized : bar.KeepsFocus (bar.onScreen width height) := ⟨fun _ => .rfl, fun _ => rfl, rfl⟩
    have jumps := keepsFocus_vertical.foldlM (fun _ _ _ => keepsFocus_vertical.jump) jumped
    exact sound.keeps ((resized.trans jumps).trans (repacked.keepsFocus (repack_desired done)))
  | HandleInputWindowButtonPress button =>
    have destroyed : bar.DestroyAnchor.FocusSound := sound
    rw [step, HandleInputWindowButtonPress] at done
    split at done
    · exact Option.some.inj done ▸ sound
    · next pressed =>
      split at done
      · next panel anchored =>
        exact CollapsePanel_sound destroyed
          (fun chosen => kept.2 panel chosen ⟨not_not.mp pressed, anchored⟩) done
      · exact Option.some.inj done ▸ destroyed
  | HandleInputWindowPointerEnter x_root =>
    rw [step, HandleInputWindowPointerEnter] at done
    split at done
    · exact sound.keeps (keepsFocus_vertical.ShowCollapsedPanels done)
    · split at done
      · exact Option.some.inj done ▸ sound.keeps ⟨fun _ => .rfl, fun _ => rfl, rfl⟩
      · exact Option.some.inj done ▸ sound
  | HandleInputWindowPointerLeave =>
    rw [step, Option.some.injEq] at done
    subst done
    rw [HandleInputWindowPointerLeave]
    split
    · exact sound.keeps ⟨fun _ => .rfl, fun _ => rfl, rfl⟩
    · exact sound
  | HandleShowCollapsedPanelsTimer =>
    obtain ⟨-, done⟩ := Option.ite_none_right_eq_some.mp done
    have disarmed : bar.DisableShowCollapsedPanelsTimer.FocusSound := sound
    exact disarmed.keeps (keepsFocus_vertical.ShowCollapsedPanels done)
  | hideCollapsedPanelsWatcher =>
    obtain ⟨-, done⟩ := Option.ite_none_right_eq_some.mp done
    have stopped : FocusSound { bar with hide_collapsed_panels_pointer_watcher_ := some false } := sound
    exact stopped.keeps (keepsFocus_vertical.HideCollapsedPanels done)
  | anchorPointerWatcher =>
    rw [step, Option.some.injEq] at done
    exact done ▸ sound.keeps ⟨fun _ => .rfl, fun _ => rfl, rfl⟩
  | TakeFocus =>
    rw [step, Option.some.injEq] at done
    exact done ▸ TakeFocus_sound sound
  | elsewhere screen =>
    rw [step] at done
    split at done
    · next keeps =>
      rw [Option.some.injEq] at done
      simp only [keepsPanels, Bool.and_eq_true, decide_eq_true_eq, List.all_eq_true] at keeps
      subst done
      intro panel chosen
      obtain ⟨member, expanded⟩ := sound panel chosen
      refine ⟨member, ?_⟩
      rw [Screen.is_expanded, (keeps.2 panel member).1]
      exact expanded
    · cases done

/-- The choice is sound, and the bar takes the focus exactly when it has an expanded panel, which gets it. -/
def ChoosesExpanded (bar : PanelBar) : Prop :=
  bar.FocusSound ∧ (bar.TakeFocus.1 = true ↔ ∃ panel ∈ bar.panels_, bar.screen.is_expanded panel = true) ∧
    ∀ panel, bar.panelToFocus = some panel →
      bar.TakeFocus = (true, bar.FocusPanel panel) ∧ panel ∈ bar.panels_ ∧
        bar.screen.is_expanded panel = true

theorem FocusSound.chooses (sound : bar.FocusSound) : bar.ChoosesExpanded := by
  refine ⟨sound, ?_, fun panel chosen => ⟨?_, panelToFocus_sound sound chosen⟩⟩
  · constructor
    · intro taken
      rw [TakeFocus] at taken
      split at taken
      · next panel chosen => exact ⟨panel, panelToFocus_sound sound chosen⟩
      · cases taken
    · rintro ⟨panel, member, expanded⟩
      rw [TakeFocus]
      split
      · rfl
      · next nobody =>
        rw [panelToFocus, Option.or_eq_none_iff, List.find?_eq_none] at nobody
        exact absurd expanded (nobody.2 panel member)
  · rw [TakeFocus, chosen]

end Running

end ChromiumOS.WindowManager.PanelBar
