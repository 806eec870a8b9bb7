import ChromiumOS.Proofs.WindowManager.PanelPacking

/-! # The panel bar stays packed

Every handler of the bar leaves it packed: adding a panel extends what is packed, and everything else
that changes the panels or their widths packs them again. Two panels that share a window are no exception,
since the bar dies when it is asked to remove one of them and erases the other.
-/

namespace ChromiumOS.WindowManager

theorem Screen.SetExpandedState_content_win (screen : Screen) (panel : ℕ) (expanded : Bool) (other : ℕ) :
    (screen.SetExpandedState panel expanded).content_win other = screen.content_win other := by
  rw [content_win, content_win, SetExpandedState]
  by_cases same : other = panel
  · subst same
    simp only [Function.update_self]
  · simp only [Function.update_of_ne same]

theorem Screen.SetExpandedState_is_expanded (screen : Screen) (panel : ℕ) (expanded : Bool) :
    (screen.SetExpandedState panel expanded).is_expanded panel = expanded := by
  rw [is_expanded, SetExpandedState]
  simp only [Function.update_self]

theorem Screen.SetExpandedState_is_expanded_of_ne (screen : Screen) {panel other : ℕ}
    (different : other ≠ panel) (expanded : Bool) :
    (screen.SetExpandedState panel expanded).is_expanded other = screen.is_expanded other := by
  rw [is_expanded, SetExpandedState]
  simp only [Function.update_of_ne different]
  rfl

theorem Screen.ResizeContent_is_expanded (screen : Screen) (panel width height : ℕ) (gravity : Gravity)
    (other : ℕ) :
    (screen.ResizeContent panel width height gravity).is_expanded other = screen.is_expanded other := by
  rw [is_expanded, ResizeContent]
  split <;> rfl

theorem Screen.SetExpandedState_content_width (screen : Screen) (panel : ℕ) (expanded : Bool) (other : ℕ) :
    (screen.SetExpandedState panel expanded).content_width other = screen.content_width other := by
  rw [content_width, content_width, SetExpandedState_content_win]

namespace PanelBar

/-- A relation that is respected by moving panels vertically and by changing what is shown and hidden. -/
structure VerticalRelation (related : PanelBar → PanelBar → Prop) : Prop where
  refl : ∀ bar, related bar bar
  trans : ∀ first second third, related first second → related second third → related first third
  moveY : ∀ bar panel y, related bar (bar.moveY panel y)
  states : ∀ bar state onscreen armed watcher, related bar
    { bar with
      collapsed_panel_state_ := state
      showCollapsedPanelsInputOnscreen := onscreen
      showCollapsedPanelsTimerArmed := armed
      hide_collapsed_panels_pointer_watcher_ := watcher }

namespace VerticalRelation

variable {related : PanelBar → PanelBar → Prop} (vertical : VerticalRelation related)
  {bar next : PanelBar} {panel : ℕ}
include vertical

theorem hideInput (bar : PanelBar) : related bar bar.hideInputAfterLastCollapsed := by
  rw [hideInputAfterLastCollapsed_eq]
  exact vertical.states bar _ _ _ _

theorem showInput (bar : PanelBar) : related bar bar.showInputForFirstCollapsed := by
  rw [showInputForFirstCollapsed_eq]
  exact vertical.states bar _ _ _ _

/-- A loop over the panels respects what each of its rounds respects. -/
theorem foldlM {visit : PanelBar → ℕ → Option PanelBar}
    (visits : ∀ bar panel next, visit bar panel = some next → related bar next) {panels : List ℕ}
    (done : panels.foldlM visit bar = some next) : related bar next :=
  (@PartialRun.run_relates _ _ visit related vertical.refl vertical.trans visits _ _ panels done).1

theorem settle (done : bar.settle panel = some next) : related bar next := by
  rw [PanelBar.settle] at done
  split at done
  · exact Option.some.inj done ▸ vertical.refl bar
  · obtain ⟨info, -, done⟩ := Option.bind_eq_some_iff.mp done
    dsimp only at done
    split at done
    · exact Option.some.inj done ▸ vertical.moveY bar panel _
    · exact Option.some.inj done ▸ vertical.refl bar

theorem jump (done : bar.jump panel = some next) : related bar next := by
  obtain ⟨info, -, done⟩ := Option.bind_eq_some_iff.mp done
  exact Option.some.inj done ▸ vertical.moveY bar panel _

theorem ShowCollapsedPanels (done : bar.ShowCollapsedPanels = some next) : related bar next := by
  obtain ⟨middle, settled, done⟩ := Option.bind_eq_some_iff.mp done
  refine Option.some.inj done ▸ vertical.trans _ middle _ ?_ (vertical.states middle _ _ _ _)
  exact vertical.trans _ _ _ (vertical.states bar _ _ _ _)
    (vertical.foldlM (fun _ _ _ => vertical.settle) settled)

theorem hideNow (done : bar.hideNow = some next) : related bar next := by
  obtain ⟨middle, settled, done⟩ := Option.bind_eq_some_iff.mp done
  refine Option.some.inj done ▸ vertical.trans _ middle _ ?_ ?_
  · exact vertical.trans _ _ _ (vertical.states bar _ _ _ _)
      (vertical.foldlM (fun _ _ _ => vertical.settle) settled)
  · split <;> exact vertical.states middle _ _ _ _

theorem HideCollapsedPanels (done : bar.HideCollapsedPanels = some next) : related bar next := by
  rw [PanelBar.HideCollapsedPanels] at done
  split at done
  · exact Option.some.inj done ▸ vertical.states bar _ _ _ _
  · exact vertical.trans _ _ _ (vertical.states bar _ _ _ _) (vertical.hideNow done)

theorem finishHiding {pointer_y : ℤ} (done : bar.finishHiding pointer_y = some next) : related bar next := by
  rw [PanelBar.finishHiding] at done
  split at done
  · split at done
    · exact vertical.HideCollapsedPanels done
    · exact Option.some.inj done ▸ vertical.states bar _ _ _ _
  · exact Option.some.inj done ▸ vertical.refl bar

end VerticalRelation

/-- The panels, their widths and their snapped positions stay. -/
structure KeepsPacking (before after : PanelBar) : Prop where
  width : after.screen.width = before.screen.width
  widths : ∀ panel, after.screen.content_width panel = before.screen.content_width panel
  panels : after.panels_ = before.panels_
  total : after.total_panel_width_ = before.total_panel_width_
  infos : after.panel_infos_ = before.panel_infos_

namespace KeepsPacking

variable {first second third : PanelBar}

theorem refl (bar : PanelBar) : bar.KeepsPacking bar := ⟨rfl, fun _ => rfl, rfl, rfl, rfl⟩

theorem trans (keeps : first.KeepsPacking second) (again : second.KeepsPacking third) :
    first.KeepsPacking third where
  width := again.width.trans keeps.width
  widths panel := (again.widths panel).trans (keeps.widths panel)
  panels := again.panels.trans keeps.panels
  total := again.total.trans keeps.total
  infos := again.infos.trans keeps.infos

end KeepsPacking

variable {bar next : PanelBar} {panel : ℕ}

theorem Settled.keepsPacking (settled : bar.Settled next) : bar.KeepsPacking next :=
  ⟨settled.moved.width, settled.moved.content_width, settled.panels, settled.total, settled.infos⟩

theorem Packed.keeps (packed : bar.Packed) (keeps : bar.KeepsPacking next) : next.Packed :=
  packed.congr keeps.width (fun panel _ => keeps.widths panel) keeps.panels keeps.total
    (fun panel => by rw [keeps.infos]) fun panel => by rw [snappedRight, snappedRight, keeps.infos]

/-- A screen whose panels have a content window and a titlebar of their own. -/
def wideScreen (is_expanded : Bool) : Screen where
  width := 1024
  height := 768
  windows xid := ⟨200, if xid % 2 = 0 then 400 else 20, 0, 0, false, false⟩
  panels panel := ⟨2 * panel, 2 * panel + 1, [], is_expanded⟩
  active_window_xid_ := none
  layoutFocus := none

theorem new_packed (screen : Screen) : (PanelBar.new screen).Packed where
  nodup := List.nodup_nil
  keys _ := iff_of_false Bool.false_ne_true List.not_mem_nil
  total := rfl
  snapped _ _ _ split := absurd split (by simp [PanelBar.new])

theorem keepsPacking_vertical : VerticalRelation KeepsPacking where
  refl := .refl
  trans _ _ _ keeps again := keeps.trans again
  moveY bar panel y := (bar.moveY_settled panel y).keepsPacking
  states _ _ _ _ _ := ⟨rfl, fun _ => rfl, rfl, rfl, rfl⟩

theorem setExpandedState_keepsPacking (panel : ℕ) (expanded : Bool) :
    bar.KeepsPacking (bar.setExpandedState panel expanded) :=
  ⟨rfl, bar.screen.SetExpandedState_content_width panel expanded, rfl, rfl, rfl⟩

theorem ExpandPanel_keepsPacking {create_anchor : Bool} (known : (bar.panel_infos_ panel).isSome)
    (done : bar.ExpandPanel panel create_anchor = some next) : bar.KeepsPacking next := by
  by_cases expanded : bar.screen.is_expanded panel = true
  · rw [ExpandPanel, if_pos expanded, Option.some.injEq] at done
    exact done ▸ .refl bar
  · obtain ⟨after, same, settled⟩ :=
      ExpandPanel_spec known (Bool.not_eq_true _ ▸ expanded) create_anchor
    rw [same, Option.some.injEq] at done
    subst done
    have opened := (@setExpandedState_keepsPacking bar panel true).trans (keepsPacking_vertical.hideInput _)
    exact opened.trans settled.keepsPacking

/-- The bar dies when it collapses a panel that it has no information about. -/
theorem CollapsePanel_known (expanded : bar.screen.is_expanded panel = true)
    (done : bar.CollapsePanel panel = some next) : (bar.panel_infos_ panel).isSome := by
  rw [CollapsePanel, if_neg (by rw [expanded]; exact Bool.false_ne_true)] at done
  obtain ⟨info, found, -⟩ := Option.bind_eq_some_iff.mp done
  have same : (if bar.anchor_panel_ = some panel then bar.DestroyAnchor else bar).panel_infos_ =
      bar.panel_infos_ := by
    split <;> rfl
  refine Option.isSome_iff_exists.mpr ⟨info, ?_⟩
  rw [← same]
  exact found

theorem CollapsePanel_keepsPacking (done : bar.CollapsePanel panel = some next) : bar.KeepsPacking next := by
  by_cases expanded : bar.screen.is_expanded panel = true
  · obtain ⟨after, same, settled⟩ := CollapsePanel_spec (CollapsePanel_known expanded done) expanded
    rw [same, Option.some.injEq] at done
    subst done
    have closed := (@setExpandedState_keepsPacking bar panel false).trans (keepsPacking_vertical.showInput _)
    exact closed.trans settled.keepsPacking
  · rw [CollapsePanel, if_pos (by simpa using expanded), Option.some.injEq] at done
    exact done ▸ .refl bar

theorem dropVertically_keepsPacking {info : PanelInfo} (known : (bar.panel_infos_ panel).isSome)
    (done : bar.dropVertically panel info = some next) : bar.KeepsPacking next := by
  rw [dropVertically] at done
  split at done
  · obtain ⟨middle, expanded, done⟩ := Option.bind_eq_some_iff.mp done
    rw [Option.some.injEq] at done
    subst done
    exact (ExpandPanel_keepsPacking known expanded).trans (middle.FocusPanel_settled panel).keepsPacking
  · split at done
    · exact CollapsePanel_keepsPacking done
    · rw [Option.some.injEq] at done
      exact done ▸ (bar.moveY_settled panel _).keepsPacking

theorem HandlePanelDragComplete_keepsPacking {pointer_y : ℤ}
    (done : bar.HandlePanelDragComplete panel pointer_y = some next) : bar.KeepsPacking next := by
  rw [HandlePanelDragComplete] at done
  split at done
  · rw [Option.some.injEq] at done
    exact done ▸ .refl bar
  · obtain ⟨info, found, done⟩ := Option.bind_eq_some_iff.mp done
    obtain ⟨dropped, moved, done⟩ := Option.bind_eq_some_iff.mp done
    have known : (bar.panel_infos_ panel).isSome := Option.isSome_iff_exists.mpr ⟨info, found⟩
    have keeps : bar.KeepsPacking dropped := by
      rw [drop] at moved
      split at moved
      · rw [Option.some.injEq] at moved
        exact moved ▸ (bar.moveX_settled panel _).keepsPacking
      · exact dropVertically_keepsPacking known moved
    have released : bar.KeepsPacking { dropped with dragged_panel_ := none } :=
      keeps.trans ⟨rfl, fun _ => rfl, rfl, rfl, rfl⟩
    exact released.trans (keepsPacking_vertical.finishHiding done)

theorem beginDrag_keepsPacking {drag_x drag_y pointer_y : ℤ}
    (done : bar.beginDrag panel drag_x drag_y pointer_y = some next) : bar.KeepsPacking next := by
  rw [beginDrag] at done
  split at done
  · rw [Option.some.injEq] at done
    exact done ▸ .refl bar
  · obtain ⟨middle, abandoned, done⟩ := Option.bind_eq_some_iff.mp done
    rw [Option.some.injEq] at done
    subst done
    have keeps : bar.KeepsPacking middle := by
      rw [abandonDrag] at abandoned
      split at abandoned
      · exact HandlePanelDragComplete_keepsPacking abandoned
      · rw [Option.some.injEq] at abandoned
        exact abandoned ▸ .refl bar
    exact keeps.trans ⟨rfl, fun _ => rfl, rfl, rfl, rfl⟩

theorem HandleInputWindowButtonPress_keepsPacking {button : ℕ}
    (done : bar.HandleInputWindowButtonPress button = some next) : bar.KeepsPacking next := by
  have destroyed : bar.KeepsPacking bar.DestroyAnchor := ⟨rfl, fun _ => rfl, rfl, rfl, rfl⟩
  rw [HandleInputWindowButtonPress] at done
  split at done
  · rw [Option.some.injEq] at done
    exact done ▸ .refl bar
  · split at done
    · exact destroyed.trans (CollapsePanel_keepsPacking done)
    · rw [Option.some.injEq] at done
      exact done ▸ destroyed

theorem ReorderPanel_packed (packed : bar.Packed) (done : bar.ReorderPanel panel = some next) :
    next.Packed ∧ bar.Repacked next := by
  have found := done
  rw [ReorderPanel] at found
  obtain ⟨info, found, -⟩ := Option.bind_eq_some_iff.mp found
  have member := (packed.keys panel).mp (Option.isSome_iff_exists.mpr ⟨info, found⟩)
  obtain ⟨after, same, repacked, kept⟩ := ReorderPanel_spec packed.informed packed.nodup member
  rw [same, Option.some.injEq] at done
  exact done ▸ ⟨kept packed, repacked⟩

/-- The new panel takes the place to the left of what was packed. -/
theorem insertPanel_packed (packed : bar.Packed) (fresh : panel ∉ bar.panels_) :
    (bar.insertPanel panel).Packed := by
  have unknown : (bar.panel_infos_ panel).isNone := by
    have missing : ¬ (bar.panel_infos_ panel).isSome := fun known => fresh ((packed.keys panel).mp known)
    simpa using missing
  rw [insertPanel, if_pos unknown]
  refine ⟨List.nodup_cons.mpr ⟨fresh, packed.nodup⟩, fun other => ?_, ?_, ?_⟩
  · by_cases same : other = panel
    · rw [same]
      exact iff_of_true (by rw [setInfo_self]; rfl) List.mem_cons_self
    · rw [List.mem_cons, setInfo_of_ne bar same, packed.keys]
      exact ⟨.inr, fun member => member.resolve_left same⟩
  · have total := packed.total
    dsimp only [setInfo]
    rw [total, span_cons]
    ring
  · intro left other right split
    cases left with
    | nil =>
      obtain ⟨rfl, rfl⟩ := List.cons.inj split
      rw [snappedRight, setInfo_self, Option.map_some, packed.total]
      rfl
    | cons head tail =>
      obtain ⟨rfl, inside⟩ := List.cons.inj split
      have different : other ≠ panel := by
        rintro rfl
        exact fresh (inside ▸ List.mem_append_right _ List.mem_cons_self)
      rw [snappedRight, setInfo_of_ne bar different]
      exact packed.snapped tail other right inside

theorem AddPanel_packed {source : PanelSource} (packed : bar.Packed) (fresh : panel ∉ bar.panels_)
    (done : bar.AddPanel panel source = some next) : next.Packed := by
  obtain ⟨started, begun, done⟩ := Option.bind_eq_some_iff.mp done
  obtain ⟨info, -, done⟩ := Option.bind_eq_some_iff.mp done
  have inserted := insertPanel_packed packed fresh
  have positioned : started.Packed := by
    rw [startDrag] at begun
    split at begun
    · obtain ⟨reordered, moved, begun⟩ := Option.bind_eq_some_iff.mp begun
      rw [Option.some.injEq] at begun
      exact begun ▸ (ReorderPanel_packed inserted moved).1.keeps ⟨rfl, fun _ => rfl, rfl, rfl, rfl⟩
    · rw [Option.some.injEq] at begun
      exact begun ▸ inserted
  have placed := (started.place_settled panel info source).trans (focusAdded_settled _ panel source)
  have focused := positioned.settled placed
  generalize (started.place panel info source).focusAdded panel source = added at focused done
  dsimp only at done
  split at done
  · rw [Option.some.injEq] at done
    exact done ▸ focused.keeps (keepsPacking_vertical.showInput _)
  · rw [Option.some.injEq] at done
    exact done ▸ focused

/-- The bar dies when it packs a panel that it has no information about. -/
theorem foldlM_packPanel_known {fixed_panel : Option ℕ} {todo : List ℕ}
    (done : todo.foldlM (packPanel fixed_panel) bar = some next) :
    ∀ panel ∈ todo, (bar.panel_infos_ panel).isSome := by
  induction todo generalizing bar with
  | nil =>
    intro _ member
    cases member
  | cons first rest ih =>
    rw [List.foldlM_cons] at done
    obtain ⟨middle, taken, done⟩ := Option.bind_eq_some_iff.mp done
    have found := taken
    rw [packPanel] at found
    obtain ⟨info, found, -⟩ := Option.bind_eq_some_iff.mp found
    have known : (bar.panel_infos_ first).isSome := Option.isSome_iff_exists.mpr ⟨info, found⟩
    obtain ⟨after, same, one⟩ := packPanel_spec fixed_panel known
    rw [same, Option.some.injEq] at taken
    subst taken
    intro panel member
    rcases List.mem_cons.mp member with rfl | later
    · exact known
    · rw [← one.known]
      exact ih done panel later

theorem PackPanels_informed {fixed_panel : Option ℕ} (done : bar.PackPanels fixed_panel = some next) :
    bar.Informed :=
  fun panel member => foldlM_packPanel_known done panel (List.mem_reverse.mpr member)

/-- Packing the panels around the dragged one makes a bar packed that has information about its panels. -/
theorem repack_packed (nodup : bar.panels_.Nodup)
    (only : ∀ panel, (bar.panel_infos_ panel).isSome → panel ∈ bar.panels_)
    (done : bar.repack = some next) : next.Packed ∧ bar.Repacked next := by
  obtain ⟨middle, packed, done⟩ := Option.bind_eq_some_iff.mp done
  obtain ⟨after, same, repacked, -, result⟩ :=
    PackPanels_spec (PackPanels_informed packed) nodup bar.dragged_panel_
  rw [same, Option.some.injEq] at packed
  subst packed
  have known := result only
  split at done
  · obtain ⟨again, reordered⟩ := ReorderPanel_packed known done
    exact ⟨again, repacked.trans reordered⟩
  · rw [Option.some.injEq] at done
    exact done ▸ ⟨known, repacked⟩

/-- The bar without one of its panels, before the others are packed again. -/
def without (bar : PanelBar) (panel : ℕ) : PanelBar :=
  ((bar.forgetPanel panel).setInfo panel none).erasePanel panel

/-- What is left to do when the panel that is removed has been erased. -/
theorem RemovePanel_erases (packed : bar.Packed) (done : bar.RemovePanel panel = some next) :
    panel ∈ bar.panels_ ∧ ∃ repacked, (bar.without panel).repack = some repacked ∧
      next = if !bar.screen.is_expanded panel then repacked.hideInputAfterLastCollapsed else repacked := by
  rw [without]
  rw [RemovePanel] at done
  obtain ⟨info, known, done⟩ := Option.bind_eq_some_iff.mp done
  have member := (packed.keys panel).mp (Option.isSome_iff_exists.mpr ⟨info, known⟩)
  refine ⟨member, ?_⟩
  have inside : panel ∈ (bar.forgetPanel panel).panels_ := member
  have same : (bar.forgetPanel panel).screen = bar.screen := rfl
  rw [← same]
  generalize bar.forgetPanel panel = forgetful at inside done ⊢
  dsimp only at done
  generalize (!forgetful.screen.is_expanded panel) = was_collapsed at done ⊢
  split at done
  · next nowhere =>
    rw [FindPanelInVectorByWindow, List.find?_eq_none] at nowhere
    exact absurd (nowhere panel inside) (by simp [setInfo])
  · next found here =>
    obtain ⟨repacked, packing, finished⟩ := Option.bind_eq_some_iff.mp done
    have only : found = panel := by
      by_contra different
      obtain ⟨middle, first, -⟩ := Option.bind_eq_some_iff.mp packing
      have still : panel ∈ forgetful.panels_.erase found :=
        (List.mem_erase_of_ne (Ne.symm different)).mpr inside
      have informed := PackPanels_informed first panel still
      rw [show ((forgetful.setInfo panel none).erasePanel found).panel_infos_ panel = none from
        setInfo_self forgetful panel none] at informed
      exact Bool.false_ne_true informed
    subst only
    refine ⟨repacked, packing, ?_⟩
    split at finished
    · next collapsed => exact (Option.some.inj finished).symm.trans (if_pos collapsed).symm
    · next collapsed => exact (Option.some.inj finished).symm.trans (if_neg collapsed).symm

theorem without_repack (packed : bar.Packed) (done : (bar.without panel).repack = some next) :
    next.Packed ∧ (bar.without panel).Repacked next := by
  have forgotten : (bar.forgetPanel panel).Packed := packed.keeps ⟨rfl, fun _ => rfl, rfl, rfl, rfl⟩
  refine repack_packed (forgotten.nodup.erase panel) (fun other told => ?_) done
  have different : other ≠ panel := by
    rintro rfl
    rw [show (bar.without other).panel_infos_ other = none from setInfo_self _ other none] at told
    exact Bool.false_ne_true told
  refine (List.mem_erase_of_ne different).mpr ((forgotten.keys other).mp ?_)
  rw [← setInfo_of_ne _ different none]
  exact told

theorem RemovePanel_packed (packed : bar.Packed) (done : bar.RemovePanel panel = some next) :
    next.Packed := by
  obtain ⟨-, repacked, packing, rfl⟩ := RemovePanel_erases packed done
  have again := (without_repack packed packing).1
  split
  · exact again.keeps (keepsPacking_vertical.hideInput _)
  · exact again

theorem HandleNotifyPanelDraggedMessage_packed {drag_x drag_y pointer_y : ℤ} {stays : Bool}
    (packed : bar.Packed)
    (done : bar.HandleNotifyPanelDraggedMessage panel drag_x drag_y pointer_y = some (stays, next)) :
    next.Packed := by
  rw [HandleNotifyPanelDraggedMessage] at done
  split at done
  · rw [Option.some.injEq, Prod.mk.injEq] at done
    exact done.2 ▸ packed
  · obtain ⟨begun, started, done⟩ := Option.bind_eq_some_iff.mp done
    obtain ⟨reordered, moved, done⟩ := Option.bind_eq_some_iff.mp done
    rw [Option.some.injEq, Prod.mk.injEq] at done
    have dragged := (packed.keeps (beginDrag_keepsPacking started)).settled
      (begun.dragTo_settled panel drag_x drag_y)
    exact done.2 ▸ (ReorderPanel_packed dragged moved).1

/-- The bar when the screen gets another size. -/
def onScreen (bar : PanelBar) (width height : ℤ) : PanelBar :=
  { bar with screen := { bar.screen with width, height } }

theorem HandleScreenResize_repacks {width height : ℤ} (packed : bar.Packed)
    (done : (bar.onScreen width height).HandleScreenResize = some next) :
    ∃ middle, (bar.onScreen width height).panels_.foldlM jump (bar.onScreen width height) = some middle ∧
      (bar.onScreen width height).Settled middle ∧ middle.repack = some next ∧ next.Packed ∧
      middle.Repacked next := by
  obtain ⟨middle, jumped, done⟩ := Option.bind_eq_some_iff.mp done
  have informed : (bar.onScreen width height).Informed := packed.informed
  obtain ⟨after, same, settled⟩ := foldlM_settled jump_settled informed
  rw [same, Option.some.injEq] at jumped
  subst jumped
  refine ⟨after, same, settled, done, ?_⟩
  refine repack_packed (settled.panels ▸ packed.nodup) (fun panel known => ?_) done
  rw [settled.infos] at known
  rw [settled.panels]
  exact (packed.keys panel).mp known

theorem HandlePanelUrgencyChange_packed (packed : bar.Packed)
    (done : bar.HandlePanelUrgencyChange panel = some next) : next.Packed := by
  obtain ⟨info, found, done⟩ := Option.bind_eq_some_iff.mp done
  have told : bar.panel_infos_ panel = some info := found
  dsimp only at done
  split at done
  · rw [Option.some.injEq] at done
    exact done ▸ packed
  · generalize noted : bar.setInfo panel
      (some { info with is_urgent := (bar.screen.content_win panel).wm_hint_urgent }) = informed at done
    have updated : informed.Packed := by
      subst noted
      refine packed.congr rfl (fun _ _ => rfl) rfl rfl (fun other => ?_) fun other => ?_
      · by_cases same : other = panel
        · rw [same, setInfo_self, told]
          rfl
        · rw [setInfo_of_ne bar same]
      · by_cases same : other = panel
        · rw [same, snappedRight, snappedRight, setInfo_self, told]
          rfl
        · rw [snappedRight, snappedRight, setInfo_of_ne bar same]
    exact updated.keeps (keepsPacking_vertical.settle done)

theorem step_packed {event : PanelBarEvent} (packed : bar.Packed) (done : bar.step event = some next) :
    next.Packed := by
  cases event with
  | AddPanel panel source =>
    rw [step] at done
    split at done
    · cases done
    · next fresh => exact AddPanel_packed packed fresh done
  | RemovePanel panel =>
    obtain ⟨-, done⟩ := Option.ite_none_right_eq_some.mp done
    exact RemovePanel_packed packed done
  | HandleNotifyPanelDraggedMessage panel drag_x drag_y pointer_y =>
    obtain ⟨-, done⟩ := Option.ite_none_right_eq_some.mp done
    obtain ⟨⟨stays, after⟩, dragged, rfl⟩ := Option.map_eq_some_iff.mp done
    exact HandleNotifyPanelDraggedMessage_packed packed dragged
  | HandleNotifyPanelDragCompleteMessage panel pointer_y =>
    obtain ⟨-, done⟩ := Option.ite_none_right_eq_some.mp done
    exact packed.keeps (HandlePanelDragComplete_keepsPacking done)
  | HandleSetPanelStateMessage panel expand =>
    obtain ⟨member, done⟩ := Option.ite_none_right_eq_some.mp done
    rw [HandleSetPanelStateMessage] at done
    split at done
    · exact packed.keeps (ExpandPanel_keepsPacking (packed.informed panel member) done)
    · exact packed.keeps (CollapsePanel_keepsPacking done)
  | HandleFocusPanelMessage panel =>
    obtain ⟨member, done⟩ := Option.ite_none_right_eq_some.mp done
    obtain ⟨middle, expanded, done⟩ := Option.bind_eq_some_iff.mp done
    rw [Option.some.injEq] at done
    subst done
    exact (packed.keeps (ExpandPanel_keepsPacking (packed.informed panel member) expanded)).settled
      (middle.FocusPanel_settled panel)
  | HandlePanelButtonPress panel =>
    obtain ⟨-, done⟩ := Option.ite_none_right_eq_some.mp done
    rw [Option.some.injEq] at done
    exact done ▸ packed.settled (bar.FocusPanel_settled panel)
  | HandlePanelTitlebarPointerEnter panel =>
    obtain ⟨-, done⟩ := Option.ite_none_right_eq_some.mp done
    rw [HandlePanelTitlebarPointerEnter] at done
    split at done
    · exact packed.keeps (keepsPacking_vertical.ShowCollapsedPanels done)
    · rw [Option.some.injEq] at done
      exact done ▸ packed
  | HandlePanelUrgencyChange panel =>
    obtain ⟨-, done⟩ := Option.ite_none_right_eq_some.mp done
    exact HandlePanelUrgencyChange_packed packed done
  | HandlePanelResize panel width height gravity =>
    obtain ⟨-, done⟩ := Option.ite_none_right_eq_some.mp done
    have informed : Informed { bar with screen := bar.screen.ResizeContent panel width height gravity } :=
      packed.informed
    obtain ⟨after, same, -, -, result⟩ := PackPanels_spec informed packed.nodup none
    rw [HandlePanelResize, same, Option.some.injEq] at done
    exact done ▸ result fun other known => (packed.keys other).mp known
  | HandleScreenResize width height =>
    obtain ⟨-, -, -, -, again, -⟩ := HandleScreenResize_repacks packed done
    exact again
  | HandleInputWindowButtonPress button =>
    exact packed.keeps (HandleInputWindowButtonPress_keepsPacking done)
  | HandleInputWindowPointerEnter x_root =>
    rw [step, HandleInputWindowPointerEnter] at done
    split at done
    · exact packed.keeps (keepsPacking_vertical.ShowCollapsedPanels done)
    · split at done
      · rw [Option.some.injEq] at done
        exact done ▸ packed.keeps ⟨rfl, fun _ => rfl, rfl, rfl, rfl⟩
      · rw [Option.some.injEq] at done
        exact done ▸ packed
  | HandleInputWindowPointerLeave =>
    rw [step, Option.some.injEq] at done
    subst done
    rw [HandleInputWindowPointerLeave]
    split
    · exact packed.keeps ⟨rfl, fun _ => rfl, rfl, rfl, rfl⟩
    · exact packed
  | HandleShowCollapsedPanelsTimer =>
    obtain ⟨-, done⟩ := Option.ite_none_right_eq_some.mp done
    have disarmed : bar.DisableShowCollapsedPanelsTimer.Packed :=
      packed.keeps ⟨rfl, fun _ => rfl, rfl, rfl, rfl⟩
    exact disarmed.keeps (keepsPacking_vertical.ShowCollapsedPanels done)
  | hideCollapsedPanelsWatcher =>
    obtain ⟨-, done⟩ := Option.ite_none_right_eq_some.mp done
    have stopped : Packed { bar with hide_collapsed_panels_pointer_watcher_ := some false } :=
      packed.keeps ⟨rfl, fun _ => rfl, rfl, rfl, rfl⟩
    exact stopped.keeps (keepsPacking_vertical.HideCollapsedPanels done)
  | anchorPointerWatcher =>
    rw [step, Option.some.injEq] at done
    exact done ▸ packed.keeps ⟨rfl, fun _ => rfl, rfl, rfl, rfl⟩
  | TakeFocus =>
    rw [step, Option.some.injEq] at done
    exact done ▸ packed.settled bar.TakeFocus_settled
  | elsewhere screen =>
    rw [step] at done
    split at done
    · next keeps =>
      rw [Option.some.injEq] at done
      simp only [keepsPanels, Bool.and_eq_true, decide_eq_true_eq, List.all_eq_true] at keeps
      obtain ⟨⟨width, -⟩, each⟩ := keeps
      exact done ▸ packed.congr width (fun panel member => (each panel member).2) rfl rfl (fun _ => rfl)
        fun _ => rfl
    · cases done

/-- The ranges to which panels are snapped are apart, in the order of the panels. -/
def SnappedApart (bar : PanelBar) : Prop :=
  ∀ left first between second right, bar.panels_ = left ++ first :: between ++ second :: right →
    ∃ first_right second_right, bar.snappedRight first = some first_right ∧
      bar.snappedRight second = some second_right ∧
      first_right + kPixelsBetweenPanels ≤ second_right - bar.screen.content_width second

theorem Packed.apart (packed : bar.Packed) : bar.SnappedApart := by
  intro left first between second right split
  refine ⟨_, _, packed.snapped left first (between ++ second :: right) (by simpa using split),
    packed.snapped (left ++ first :: between) second right split, ?_⟩
  have nonneg := span_nonneg bar.screen between
  rw [snappedLeftOf, snappedLeftOf, span_append, span_cons]
  omega

theorem panels_stay_packed (screen : Screen) (events : List PanelBarEvent) :
    PartialRun.Always PanelBar.step (fun bar => bar.Packed ∧ bar.SnappedApart) (PanelBar.new screen)
      events :=
  @PartialRun.always_of_preserved _ _ PanelBar.step (fun bar => bar.Packed ∧ bar.SnappedApart) _
    ⟨new_packed screen, (new_packed screen).apart⟩
    (fun _ _ _ known done => ⟨step_packed known.1 done, (step_packed known.1 done).apart⟩) events

end PanelBar

end ChromiumOS.WindowManager
