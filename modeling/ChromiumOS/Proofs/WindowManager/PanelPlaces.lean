import ChromiumOS.Proofs.WindowManager.PackedRuns

/-! # Panels at their snapped positions

Packing moves every panel but the one that is dragged to its snapped position. The end of a drag puts that
one there only if the drag was horizontal.
-/

namespace ChromiumOS.WindowManager

/-- Moving the second panel leaves the content window of the first one where it is. -/
def Screen.Apart (screen : Screen) (first second : ℕ) : Prop :=
  (screen.panels first).content_xid ≠ (screen.panels second).content_xid ∧
    (screen.panels first).content_xid ≠ (screen.panels second).titlebar_xid

/-- The panels have the same windows, at the same horizontal positions and of the same widths. -/
structure Screen.KeepsX (before after : Screen) : Prop where
  content : ∀ panel, (after.panels panel).content_xid = (before.panels panel).content_xid
  titlebar : ∀ panel, (after.panels panel).titlebar_xid = (before.panels panel).titlebar_xid
  right : ∀ panel, after.right panel = before.right panel

namespace Screen

variable (screen : Screen)

theorem onWindow_same (xid : XWindow) (method : PanelWindow → PanelWindow) :
    (screen.onWindow xid method).windows xid = method (screen.windows xid) := by
  simp only [onWindow, Function.update_self]

theorem onWindow_of_ne {xid other : XWindow} (different : other ≠ xid) (method : PanelWindow → PanelWindow) :
    (screen.onWindow xid method).windows other = screen.windows other := by
  simp only [onWindow, Function.update_of_ne different]

/-- The content window is moved last, so it goes to its place even if it is the titlebar, too. -/
theorem onWindows_x (panel : ℕ) (titlebar : PanelWindow → PanelWindow) {content : PanelWindow → PanelWindow}
    {x : ℤ} (sets : ∀ win, (content win).composited_x = x) :
    (screen.onWindows panel titlebar content).content_x panel = x := by
  have moved : (screen.onWindows panel titlebar content).content_win panel =
      content ((screen.onWindow (screen.panels panel).titlebar_xid titlebar).windows
        (screen.panels panel).content_xid) :=
    onWindow_same _ _ content
  rw [content_x, moved, sets]

theorem MoveX_right (panel : ℕ) (right : ℤ) : (screen.MoveX panel right).right panel = right := by
  have moved : (screen.MoveX panel right).content_x panel = right - screen.content_width panel :=
    screen.onWindows_x panel _ fun _ => rfl
  rw [Screen.right, moved, (screen.MoveX_moved panel right).content_width]
  omega

theorem Move_right (panel : ℕ) (right y : ℤ) : (screen.Move panel right y).right panel = right := by
  have moved : (screen.Move panel right y).content_x panel = right - screen.content_width panel :=
    screen.onWindows_x panel _ fun _ => rfl
  rw [Screen.right, moved, (screen.Move_moved panel right y).content_width]
  omega

theorem onWindows_right {panel other : ℕ} (apart : screen.Apart other panel)
    (titlebar content : PanelWindow → PanelWindow) :
    (screen.onWindows panel titlebar content).right other = screen.right other := by
  have same : (screen.onWindows panel titlebar content).content_win other = screen.content_win other :=
    (onWindow_of_ne _ apart.1 content).trans (screen.onWindow_of_ne apart.2 titlebar)
  rw [Screen.right, Screen.right, content_x, content_width, same]
  rfl

theorem MoveX_right_of_apart {panel other : ℕ} (apart : screen.Apart other panel) (right : ℤ) :
    (screen.MoveX panel right).right other = screen.right other :=
  screen.onWindows_right apart _ _

theorem Move_right_of_apart {panel other : ℕ} (apart : screen.Apart other panel) (right y : ℤ) :
    (screen.Move panel right y).right other = screen.right other :=
  screen.onWindows_right apart _ _

theorem onWindow_keepsX (xid : XWindow) {method : PanelWindow → PanelWindow}
    (keeps : ∀ win, (method win).composited_x = win.composited_x ∧ (method win).client_width = win.client_width) :
    screen.KeepsX (screen.onWindow xid method) := by
  refine ⟨fun _ => rfl, fun _ => rfl, fun panel => ?_⟩
  have same : ∀ other, ((screen.onWindow xid method).windows other).composited_x =
        (screen.windows other).composited_x ∧
      ((screen.onWindow xid method).windows other).client_width = (screen.windows other).client_width := by
    intro other
    by_cases here : other = xid
    · rw [here, onWindow_same]
      exact keeps _
    · rw [onWindow_of_ne screen here]
      exact ⟨rfl, rfl⟩
  obtain ⟨x, width⟩ := same (screen.panels panel).content_xid
  rw [Screen.right, Screen.right, content_x, content_x, content_width, content_width, content_win,
    content_win]
  exact congrArg₂ (fun x (width : ℕ) => x + (width : ℤ)) x width

end Screen

namespace Screen.KeepsX

variable {first second third : Screen}

theorem refl (screen : Screen) : screen.KeepsX screen := ⟨fun _ => rfl, fun _ => rfl, fun _ => rfl⟩

theorem trans (keeps : first.KeepsX second) (again : second.KeepsX third) : first.KeepsX third where
  content panel := (again.content panel).trans (keeps.content panel)
  titlebar panel := (again.titlebar panel).trans (keeps.titlebar panel)
  right panel := (again.right panel).trans (keeps.right panel)

theorem apart (keeps : first.KeepsX second) {panel other : ℕ} (apart : first.Apart panel other) :
    second.Apart panel other := by
  rw [Screen.Apart, keeps.content, keeps.content, keeps.titlebar]
  exact apart

end Screen.KeepsX

theorem Screen.MoveY_keepsX (screen : Screen) (panel : ℕ) (y : ℤ) : screen.KeepsX (screen.MoveY panel y) := by
  have moves : ∀ y, ∀ win : PanelWindow, (win.MoveCompositedY y).composited_x = win.composited_x ∧
      (win.MoveCompositedY y).client_width = win.client_width := fun _ _ => ⟨rfl, rfl⟩
  exact (screen.onWindow_keepsX _ (moves _)).trans (onWindow_keepsX _ _ (moves _))

theorem Screen.SetExpandedState_keepsX (screen : Screen) (panel : ℕ) (expanded : Bool) :
    screen.KeepsX (screen.SetExpandedState panel expanded) := by
  have same : ∀ other,
      ((screen.SetExpandedState panel expanded).panels other).content_xid = (screen.panels other).content_xid ∧
      ((screen.SetExpandedState panel expanded).panels other).titlebar_xid =
        (screen.panels other).titlebar_xid := by
    intro other
    rw [SetExpandedState]
    by_cases here : other = panel
    · subst here
      simp only [Function.update_self, and_self]
    · simp only [Function.update_of_ne here, and_self]
  refine ⟨fun other => (same other).1, fun other => (same other).2, fun other => ?_⟩
  rw [right, right, content_x, content_x, SetExpandedState_content_width, SetExpandedState_content_win]

namespace PanelBar

/-- Every panel but one is at its snapped position. -/
def PlacedBut (bar : PanelBar) (fixed_panel : Option ℕ) : Prop :=
  ∀ panel ∈ bar.panels_, some panel ≠ fixed_panel → bar.snappedRight panel = some (bar.screen.right panel)

/-- No two panels of the bar share a window. -/
def PanelsApart (bar : PanelBar) : Prop :=
  ∀ first ∈ bar.panels_, ∀ second ∈ bar.panels_, first ≠ second → bar.screen.Apart first second

/-- Nothing has moved horizontally. -/
structure KeepsPlaces (before after : PanelBar) : Prop where
  panels : after.panels_ = before.panels_
  snapped : ∀ panel, after.snappedRight panel = before.snappedRight panel
  dragged : after.dragged_panel_ = before.dragged_panel_
  screen : before.screen.KeepsX after.screen

namespace KeepsPlaces

variable {first second third : PanelBar}

theorem refl (bar : PanelBar) : bar.KeepsPlaces bar := ⟨rfl, fun _ => rfl, rfl, .refl _⟩

theorem trans (keeps : first.KeepsPlaces second) (again : second.KeepsPlaces third) :
    first.KeepsPlaces third where
  panels := again.panels.trans keeps.panels
  snapped panel := (again.snapped panel).trans (keeps.snapped panel)
  dragged := again.dragged.trans keeps.dragged
  screen := keeps.screen.trans again.screen

end KeepsPlaces

variable {bar next : PanelBar} {panel : ℕ} {fixed_panel : Option ℕ}

theorem PlacedBut.keeps (placed : bar.PlacedBut fixed_panel) (keeps : bar.KeepsPlaces next) :
    next.PlacedBut fixed_panel := by
  intro panel member free
  rw [keeps.panels] at member
  rw [keeps.snapped, keeps.screen.right]
  exact placed panel member free

theorem PlacedBut.weaken (placed : bar.PlacedBut none) (fixed_panel : Option ℕ) : bar.PlacedBut fixed_panel :=
  fun panel member _ => placed panel member (Option.some_ne_none panel)

theorem PanelsApart.keeps (apart : bar.PanelsApart) (keeps : bar.KeepsPlaces next) : next.PanelsApart := by
  intro first inside second member different
  rw [keeps.panels] at inside member
  exact keeps.screen.apart (apart first inside second member different)

/-- Panels that are apart stay so when they are moved and put in another order. -/
theorem PanelsApart.moved (apart : bar.PanelsApart) (panels : ∀ panel ∈ next.panels_, panel ∈ bar.panels_)
    (same : next.screen.panels = bar.screen.panels) : next.PanelsApart := by
  intro first inside second member different
  rw [Screen.Apart, same]
  exact apart first (panels first inside) second (panels second member) different

section Packing

theorem packPanel_places (done : packPanel fixed_panel bar panel = some next) :
    (some panel ≠ fixed_panel → next.snappedRight panel = some (next.screen.right panel)) ∧
      (∀ other ≠ panel, bar.screen.Apart other panel → next.screen.right other = bar.screen.right other ∧
        next.snappedRight other = bar.snappedRight other) ∧
      next.screen.panels = bar.screen.panels := by
  obtain ⟨info, -, done⟩ := Option.bind_eq_some_iff.mp done
  dsimp only at done
  generalize bar.screen.width - bar.total_panel_width_ - kPixelsBetweenPanels = snapped_right at done
  have told : (bar.setInfo panel (some { info with snapped_right })).snappedRight panel =
      some snapped_right := by
    rw [snappedRight, setInfo_self]
    rfl
  have others : ∀ other ≠ panel, (bar.setInfo panel (some { info with snapped_right })).snappedRight other =
      bar.snappedRight other := by
    intro other different
    rw [snappedRight, setInfo_of_ne bar different]
    rfl
  have screen : (bar.setInfo panel (some { info with snapped_right })).screen = bar.screen := rfl
  generalize bar.setInfo panel (some { info with snapped_right }) = noted at told others screen done
  rw [← Option.some.inj done, ← screen]
  by_cases moves : some panel ≠ fixed_panel ∧ noted.screen.right panel ≠ snapped_right
  · rw [snap, if_pos moves]
    refine ⟨fun _ => told.trans ?_, fun other different apart => ⟨?_, others other different⟩, rfl⟩
    · exact congrArg some (noted.screen.MoveX_right panel snapped_right).symm
    · exact noted.screen.MoveX_right_of_apart apart snapped_right
  · rw [snap, if_neg moves]
    refine ⟨fun free => told.trans ?_, fun other different _ => ⟨rfl, others other different⟩, rfl⟩
    rw [not_and, not_not] at moves
    exact congrArg some (moves free).symm

theorem foldlM_packPanel_places {todo : List ℕ} (nodup : todo.Nodup)
    (apart : ∀ first ∈ todo, ∀ second ∈ todo, first ≠ second → bar.screen.Apart first second)
    (done : todo.foldlM (packPanel fixed_panel) bar = some next) :
    (∀ panel ∈ todo, some panel ≠ fixed_panel →
        next.snappedRight panel = some (next.screen.right panel)) ∧
      (∀ other ∉ todo, (∀ panel ∈ todo, bar.screen.Apart other panel) →
        next.screen.right other = bar.screen.right other ∧
          next.snappedRight other = bar.snappedRight other) ∧
      next.screen.panels = bar.screen.panels := by
  induction todo generalizing bar with
  | nil =>
    rw [List.foldlM_nil] at done
    cases done
    refine ⟨fun _ member => ?_, fun _ _ _ => ⟨rfl, rfl⟩, rfl⟩
    cases member
  | cons panel rest ih =>
    obtain ⟨outside, nodup⟩ := List.nodup_cons.mp nodup
    rw [List.foldlM_cons] at done
    obtain ⟨middle, taken, done⟩ := Option.bind_eq_some_iff.mp done
    obtain ⟨placed, others, same⟩ := packPanel_places taken
    have moved : ∀ first second, bar.screen.Apart first second → middle.screen.Apart first second := by
      intro first second known
      rw [Screen.Apart, same]
      exact known
    obtain ⟨later, untouched, again⟩ := ih nodup
      (fun first inside second member different => moved first second
        (apart first (List.mem_cons_of_mem _ inside) second (List.mem_cons_of_mem _ member) different)) done
    refine ⟨fun other member free => ?_, fun other absent known => ?_, again.trans same⟩
    · rcases List.mem_cons.mp member with rfl | inside
      · obtain ⟨right, snapped⟩ := untouched other outside fun second member =>
          moved other second (apart other List.mem_cons_self second (List.mem_cons_of_mem _ member)
            (fun same => outside (same ▸ member)))
        rw [right, snapped]
        exact placed free
      · exact later other inside free
    · obtain ⟨right, snapped⟩ := untouched other (fun member => absent (List.mem_cons_of_mem _ member))
        fun second member => moved other second (known second (List.mem_cons_of_mem _ member))
      obtain ⟨first, before⟩ := others other (fun same => absent (same ▸ List.mem_cons_self))
        (known panel List.mem_cons_self)
      exact ⟨right.trans first, snapped.trans before⟩

theorem PackPanels_places (nodup : bar.panels_.Nodup) (apart : bar.PanelsApart)
    (done : bar.PackPanels fixed_panel = some next) : next.PlacedBut fixed_panel := by
  obtain ⟨after, same, -, panels, -⟩ := PackPanels_spec (PackPanels_informed done) nodup fixed_panel
  rw [same, Option.some.injEq] at done
  subst done
  have folded : bar.panels_.reverse.foldlM (packPanel fixed_panel) { bar with total_panel_width_ := 0 } =
      some after := same
  have cleared : PanelsApart { bar with total_panel_width_ := 0 } := apart
  obtain ⟨placed, -, -⟩ := foldlM_packPanel_places (List.nodup_reverse.mpr nodup)
    (fun first inside second member different =>
      cleared first (List.mem_reverse.mp inside) second (List.mem_reverse.mp member) different) folded
  intro panel member free
  rw [panels] at member
  exact placed panel (List.mem_reverse.mpr member) free

theorem ReorderPanel_places (packed : bar.Packed) (apart : bar.PanelsApart) (member : panel ∈ bar.panels_)
    (placed : bar.PlacedBut (some panel)) (done : bar.ReorderPanel panel = some next) :
    next.PlacedBut (some panel) := by
  obtain ⟨info, -, done⟩ := Option.bind_eq_some_iff.mp done
  dsimp only at done
  split at done
  · exact Option.some.inj done ▸ placed
  · have perm := rotated_perm member (dest_position_lt member info.snapped_right)
    generalize rotated bar.panels_ (bar.panels_.idxOf panel)
      (bar.dest_position panel (bar.panels_.idxOf panel) info.snapped_right) panel = panels at perm done
    have still : PanelsApart { bar with panels_ := panels } :=
      apart.moved (fun _ inside => perm.subset inside) rfl
    exact PackPanels_places (perm.nodup_iff.mpr packed.nodup) still done

/-- Packing the panels again places all but the dragged one, wherever they were before. -/
theorem repack_places (packed : next.Packed) (repacked : bar.Repacked next) (apart : bar.PanelsApart)
    (done : bar.repack = some next) : next.PlacedBut next.dragged_panel_ ∧ next.PanelsApart := by
  have nodup := repacked.panels.nodup_iff.mp packed.nodup
  have dragged : next.dragged_panel_ = bar.dragged_panel_ := congrArg Prod.fst repacked.drag
  refine ⟨?_, apart.moved (fun _ => repacked.panels.mem_iff.mp) repacked.moved.panels⟩
  rw [dragged]
  obtain ⟨middle, packing, done⟩ := Option.bind_eq_some_iff.mp done
  obtain ⟨after, same, first, panels, result⟩ :=
    PackPanels_spec (PackPanels_informed packing) nodup bar.dragged_panel_
  have placed := PackPanels_places nodup apart packing
  rw [same, Option.some.injEq] at packing
  subst packing
  have known := result fun panel told => by
    rw [← repacked.known, packed.keys] at told
    exact repacked.panels.mem_iff.mp told
  have drag : after.dragged_panel_ = bar.dragged_panel_ := congrArg Prod.fst first.drag
  rw [← drag] at placed ⊢
  split at done
  · next panel held =>
    rw [held] at placed ⊢
    have found := done
    obtain ⟨info, found, -⟩ := Option.bind_eq_some_iff.mp found
    have member := (known.keys panel).mp (Option.isSome_iff_exists.mpr ⟨info, found⟩)
    have still := apart.moved (fun _ => first.panels.mem_iff.mp) first.moved.panels
    exact ReorderPanel_places known still member placed done
  · exact Option.some.inj done ▸ placed

end Packing

section Vertically

theorem moveY_keepsPlaces (panel : ℕ) (y : ℤ) : bar.KeepsPlaces (bar.moveY panel y) :=
  ⟨rfl, fun _ => rfl, rfl, bar.screen.MoveY_keepsX panel y⟩

theorem setExpandedState_keepsPlaces (panel : ℕ) (expanded : Bool) :
    bar.KeepsPlaces (bar.setExpandedState panel expanded) :=
  ⟨rfl, fun _ => rfl, rfl, bar.screen.SetExpandedState_keepsX panel expanded⟩

theorem FocusPanel_keepsPlaces (panel : ℕ) : bar.KeepsPlaces (bar.FocusPanel panel) :=
  ⟨rfl, fun _ => rfl, rfl, ⟨fun _ => rfl, fun _ => rfl, fun _ => rfl⟩⟩

theorem TakeFocus_keepsPlaces : bar.KeepsPlaces bar.TakeFocus.2 := by
  rw [TakeFocus]
  split
  · exact FocusPanel_keepsPlaces _
  · exact .refl bar

theorem active_keepsPlaces (xid : Option XWindow) :
    bar.KeepsPlaces { bar with screen := bar.screen.SetActiveWindowProperty xid } :=
  ⟨rfl, fun _ => rfl, rfl, ⟨fun _ => rfl, fun _ => rfl, fun _ => rfl⟩⟩

theorem wmTakeFocus_keepsPlaces : bar.KeepsPlaces bar.wmTakeFocus := by
  rw [wmTakeFocus]
  split
  · exact active_keepsPlaces _
  · exact TakeFocus_keepsPlaces

theorem giveUpFocus_keepsPlaces (panel : ℕ) (panel_to_focus : Option ℕ) :
    bar.KeepsPlaces (bar.giveUpFocus panel panel_to_focus) := by
  rw [giveUpFocus]
  split
  · have chosen : bar.KeepsPlaces { bar with desired_panel_to_focus_ := panel_to_focus } :=
      ⟨rfl, fun _ => rfl, rfl, .refl _⟩
    have taken := chosen.trans TakeFocus_keepsPlaces
    dsimp only
    split
    · next found =>
      rw [found] at taken
      exact taken
    · next found =>
      rw [found] at taken
      exact (taken.trans (active_keepsPlaces none)).trans wmTakeFocus_keepsPlaces
  · exact .refl bar

theorem keepsPlaces_vertical : VerticalRelation KeepsPlaces where
  refl := .refl
  trans _ _ _ keeps again := keeps.trans again
  moveY _ panel y := moveY_keepsPlaces panel y
  states _ _ _ _ _ := ⟨rfl, fun _ => rfl, rfl, .refl _⟩

theorem ExpandPanel_keepsPlaces {create_anchor : Bool}
    (done : bar.ExpandPanel panel create_anchor = some next) : bar.KeepsPlaces next := by
  rw [ExpandPanel] at done
  split at done
  · exact Option.some.inj done ▸ .refl bar
  · obtain ⟨info, -, done⟩ := Option.bind_eq_some_iff.mp done
    have opened := (@setExpandedState_keepsPlaces bar panel true).trans
      (moveY_keepsPlaces panel ((bar.setExpandedState panel true).ComputePanelY panel info))
    refine Option.some.inj done ▸ KeepsPlaces.trans ?_ (keepsPlaces_vertical.hideInput _)
    split
    · exact opened.trans ⟨rfl, fun _ => rfl, rfl, .refl _⟩
    · exact opened

theorem CollapsePanel_keepsPlaces (done : bar.CollapsePanel panel = some next) : bar.KeepsPlaces next := by
  rw [CollapsePanel] at done
  split at done
  · exact Option.some.inj done ▸ .refl bar
  · obtain ⟨info, -, done⟩ := Option.bind_eq_some_iff.mp done
    have free : bar.KeepsPlaces (if bar.anchor_panel_ = some panel then bar.DestroyAnchor else bar) := by
      split
      · exact ⟨rfl, fun _ => rfl, rfl, .refl _⟩
      · exact .refl bar
    generalize (if bar.anchor_panel_ = some panel then bar.DestroyAnchor else bar) = freed at free done
    have closed := free.trans (setExpandedState_keepsPlaces panel false)
    generalize freed.setExpandedState panel false = collapsed at closed done
    have moved := closed.trans (moveY_keepsPlaces panel (collapsed.ComputePanelY panel info))
    exact Option.some.inj done ▸ (moved.trans (giveUpFocus_keepsPlaces panel _)).trans
      (keepsPlaces_vertical.showInput _)

theorem dropVertically_keepsPlaces {info : PanelInfo}
    (done : bar.dropVertically panel info = some next) : bar.KeepsPlaces next := by
  rw [dropVertically] at done
  split at done
  · obtain ⟨middle, opened, done⟩ := Option.bind_eq_some_iff.mp done
    exact Option.some.inj done ▸ (ExpandPanel_keepsPlaces opened).trans (FocusPanel_keepsPlaces panel)
  · split at done
    · exact CollapsePanel_keepsPlaces done
    · exact Option.some.inj done ▸ moveY_keepsPlaces panel _

end Vertically

/-- The invariant of a run: the bar is packed, its panels share no window, and all but the dragged one are at
their snapped positions. -/
structure PlaceInvariant (bar : PanelBar) : Prop where
  packed : bar.Packed
  apart : bar.PanelsApart
  placed : bar.PlacedBut bar.dragged_panel_

/-- A panel that is dragged vertically is at its snapped position. -/
def Aligned (bar : PanelBar) (panel : ℕ) : Prop :=
  bar.dragging_panel_horizontally_ = false → bar.snappedRight panel = some (bar.screen.right panel)

section Handling

theorem PlaceInvariant.keeps (invariant : bar.PlaceInvariant) (packed : next.Packed)
    (keeps : bar.KeepsPlaces next) : next.PlaceInvariant :=
  ⟨packed, invariant.apart.keeps keeps, keeps.dragged ▸ invariant.placed.keeps keeps⟩

/-- Moving a panel of the bar leaves the others at their places. -/
theorem moveX_places (apart : bar.PanelsApart) (member : panel ∈ bar.panels_)
    (placed : bar.PlacedBut (some panel)) (right : ℤ) : (bar.moveX panel right).PlacedBut (some panel) := by
  intro other inside free
  have different : other ≠ panel := fun same => free (congrArg some same)
  have known := placed other inside free
  rw [snappedRight, moveX] at *
  rw [bar.screen.MoveX_right_of_apart (apart other inside panel member different)]
  exact known

theorem drop_places {info : PanelInfo} (apart : bar.PanelsApart) (member : panel ∈ bar.panels_)
    (placed : bar.PlacedBut (some panel)) (aligned : bar.Aligned panel)
    (found : bar.panel_infos_ panel = some info) (done : bar.drop panel info = some next) :
    next.PlacedBut none ∧ next.PanelsApart := by
  rw [drop] at done
  split at done
  · rw [← Option.some.inj done]
    refine ⟨fun other inside _ => ?_, apart.moved (fun _ inside => inside) rfl⟩
    by_cases same : other = panel
    · subst same
      rw [snappedRight, moveX, found, bar.screen.MoveX_right]
      rfl
    · exact moveX_places apart member placed _ other inside fun held => same (Option.some.inj held)
  · next vertically =>
    have keeps := dropVertically_keepsPlaces done
    refine ⟨PlacedBut.keeps (fun other inside _ => ?_) keeps, apart.keeps keeps⟩
    by_cases same : other = panel
    · exact same ▸ aligned (by simpa using vertically)
    · exact placed other inside fun held => same (Option.some.inj held)

theorem HandlePanelDragComplete_places {pointer_y : ℤ} (invariant : bar.PlaceInvariant)
    (aligned : bar.dragged_panel_ = some panel → bar.Aligned panel)
    (done : bar.HandlePanelDragComplete panel pointer_y = some next) :
    next.PlaceInvariant ∧ (bar.dragged_panel_ = some panel → next.PlacedBut none) := by
  have packed := invariant.packed.keeps
    (HandlePanelDragComplete_keepsPacking done)
  rw [HandlePanelDragComplete] at done
  split at done
  · next another =>
    refine ⟨Option.some.inj done ▸ invariant, fun held => absurd held another⟩
  · next held =>
    have same := not_not.mp held
    obtain ⟨info, found, done⟩ := Option.bind_eq_some_iff.mp done
    obtain ⟨dropped, moved, done⟩ := Option.bind_eq_some_iff.mp done
    have member := (invariant.packed.keys panel).mp (Option.isSome_iff_exists.mpr ⟨info, found⟩)
    obtain ⟨placed, apart⟩ := drop_places invariant.apart member (same ▸ invariant.placed) (aligned same)
      found moved
    have released : PlacedBut { dropped with dragged_panel_ := none } none := placed
    have still : PanelsApart { dropped with dragged_panel_ := none } := apart
    have keeps := keepsPlaces_vertical.finishHiding done
    have settled := released.keeps keeps
    exact ⟨⟨packed, still.keeps keeps, settled.weaken _⟩, fun _ => settled⟩

theorem HandleNotifyPanelDraggedMessage_places {drag_x drag_y pointer_y : ℤ} {stays : Bool}
    (invariant : bar.PlaceInvariant) (member : panel ∈ bar.panels_)
    (aligned : bar.screen.height - bar.screen.total_height panel - kPanelDetachThresholdPixels < drag_y →
      ∀ other ≠ panel, bar.dragged_panel_ = some other → bar.Aligned other)
    (done : bar.HandleNotifyPanelDraggedMessage panel drag_x drag_y pointer_y = some (stays, next)) :
    next.PlaceInvariant := by
  rw [HandleNotifyPanelDraggedMessage] at done
  split at done
  · rw [Option.some.injEq, Prod.mk.injEq] at done
    exact done.2 ▸ invariant
  · next near =>
    obtain ⟨begun, started, done⟩ := Option.bind_eq_some_iff.mp done
    obtain ⟨reordered, moved, done⟩ := Option.bind_eq_some_iff.mp done
    rw [Option.some.injEq, Prod.mk.injEq] at done
    have beginning : begun.PlaceInvariant ∧ begun.dragged_panel_ = some panel ∧ panel ∈ begun.panels_ := by
      rw [beginDrag] at started
      split at started
      · next held => exact Option.some.inj started ▸ ⟨invariant, held, member⟩
      · next another =>
        obtain ⟨middle, abandoned, started⟩ := Option.bind_eq_some_iff.mp started
        have kept : middle.PlaceInvariant ∧ middle.PlacedBut none ∧ panel ∈ middle.panels_ := by
          rw [abandonDrag] at abandoned
          split at abandoned
          · next other held =>
            have different : other ≠ panel := fun same => another (same ▸ held)
            have panels :=
              (HandlePanelDragComplete_keepsPacking abandoned).panels
            obtain ⟨kept, placed⟩ := HandlePanelDragComplete_places invariant
              (aligned (not_le.mp near) other different) abandoned
            exact ⟨kept, placed held, panels ▸ member⟩
          · next free =>
            exact Option.some.inj abandoned ▸ ⟨invariant, free ▸ invariant.placed, member⟩
        obtain ⟨kept, placed, inside⟩ := kept
        refine Option.some.inj started ▸ ⟨⟨kept.packed.keeps ⟨rfl, fun _ => rfl, rfl, rfl, rfl⟩, kept.apart,
          placed.weaken (some panel)⟩, rfl, inside⟩
    obtain ⟨kept, held, inside⟩ := beginning
    have placed : begun.PlacedBut (some panel) := held ▸ kept.placed
    have position := begun.dragTo_settled panel drag_x drag_y
    have packed := kept.packed.settled position
    have apart := kept.apart.moved (fun _ => (position.panels ▸ ·)) position.moved.panels
    have still : panel ∈ (begun.dragTo panel drag_x drag_y).panels_ := position.panels ▸ inside
    have dragged : (begun.dragTo panel drag_x drag_y).PlacedBut (some panel) := by
      rw [dragTo]
      split
      · exact moveX_places kept.apart inside placed drag_x
      · exact placed.keeps (moveY_keepsPlaces panel _)
    obtain ⟨packed, repacked⟩ := ReorderPanel_packed packed moved
    have drag : reordered.dragged_panel_ = some panel :=
      (congrArg Prod.fst (repacked.drag.trans position.drag)).trans held
    have finished := ReorderPanel_places (kept.packed.settled position) apart still dragged moved
    exact done.2 ▸ ⟨packed, apart.moved (fun _ => repacked.panels.mem_iff.mp) repacked.moved.panels,
      drag ▸ finished⟩

theorem insertPanel_parts : (bar.insertPanel panel).panels_ = panel :: bar.panels_ ∧
    (bar.insertPanel panel).screen = bar.screen ∧
    (bar.insertPanel panel).dragged_panel_ = bar.dragged_panel_ ∧
    ∀ other ≠ panel, (bar.insertPanel panel).snappedRight other = bar.snappedRight other := by
  rw [insertPanel]
  split
  · refine ⟨rfl, rfl, rfl, fun other different => ?_⟩
    rw [snappedRight, setInfo_of_ne bar different]
    rfl
  · exact ⟨rfl, rfl, rfl, fun _ _ => rfl⟩

/-- The new panel goes to its snapped position, unless it is being dragged. -/
theorem place_places {info : PanelInfo} {source : PanelSource} (apart : bar.PanelsApart)
    (member : panel ∈ bar.panels_) (found : bar.panel_infos_ panel = some info)
    (placed : ∀ other ∈ bar.panels_, other ≠ panel → some other ≠ bar.dragged_panel_ →
      bar.snappedRight other = some (bar.screen.right other))
    (dragged : source = .PANEL_SOURCE_DRAGGED → bar.dragged_panel_ = some panel) :
    (bar.place panel info source).PlacedBut bar.dragged_panel_ := by
  have moves : ∀ y, PlacedBut { bar with screen := bar.screen.Move panel info.snapped_right y }
      bar.dragged_panel_ := by
    intro y other inside free
    by_cases same : other = panel
    · subst same
      rw [snappedRight, found, bar.screen.Move_right]
      rfl
    · rw [bar.screen.Move_right_of_apart (apart other inside panel member same)]
      exact placed other inside same free
  cases source with
  | PANEL_SOURCE_NEW => exact (moves _).keeps (moveY_keepsPlaces panel _)
  | PANEL_SOURCE_DRAGGED =>
    refine PlacedBut.keeps (fun other inside free => ?_) (moveY_keepsPlaces panel _)
    refine placed other inside (fun same => free ?_) free
    rw [same, dragged rfl]
  | PANEL_SOURCE_DROPPED => exact moves _

theorem AddPanel_places {source : PanelSource} (invariant : bar.PlaceInvariant)
    (fresh : panel ∉ bar.panels_)
    (apart : ∀ other ∈ bar.panels_, bar.screen.Apart panel other ∧ bar.screen.Apart other panel)
    (free : source = .PANEL_SOURCE_DRAGGED → bar.dragged_panel_ = none)
    (done : bar.AddPanel panel source = some next) : next.PlaceInvariant := by
  have packed := AddPanel_packed invariant.packed fresh done
  obtain ⟨started, begun, done⟩ := Option.bind_eq_some_iff.mp done
  obtain ⟨info, found, done⟩ := Option.bind_eq_some_iff.mp done
  obtain ⟨panels, screen, drag, snapped⟩ := @insertPanel_parts bar panel
  have insertedApart : (bar.insertPanel panel).PanelsApart := by
    intro first inside second member different
    rw [panels, List.mem_cons] at inside member
    rw [screen]
    rcases inside with rfl | inside
    · exact (apart second (member.resolve_left (Ne.symm different))).1
    · rcases member with rfl | member
      · exact (apart first inside).2
      · exact invariant.apart first inside second member different
  have insertedPlaced : ∀ other ∈ (bar.insertPanel panel).panels_, other ≠ panel →
      some other ≠ bar.dragged_panel_ →
      (bar.insertPanel panel).snappedRight other = some ((bar.insertPanel panel).screen.right other) := by
    intro other inside different outside
    rw [panels, List.mem_cons] at inside
    rw [snapped other different, screen]
    exact invariant.placed other (inside.resolve_left different) outside
  have inserted := insertPanel_packed invariant.packed fresh
  have member : panel ∈ (bar.insertPanel panel).panels_ := panels ▸ List.mem_cons_self
  generalize bar.insertPanel panel = filled at insertedApart insertedPlaced inserted member drag begun
  have arrived : started.PanelsApart ∧ panel ∈ started.panels_ ∧
      (source = .PANEL_SOURCE_DRAGGED → started.dragged_panel_ = some panel) ∧
      ∀ other ∈ started.panels_, other ≠ panel → some other ≠ started.dragged_panel_ →
        started.snappedRight other = some (started.screen.right other) := by
    rw [startDrag] at begun
    split at begun
    · next source =>
      obtain ⟨reordered, moved, begun⟩ := Option.bind_eq_some_iff.mp begun
      have repacked := (ReorderPanel_packed inserted moved).2
      have others : filled.PlacedBut (some panel) := by
        intro other inside different
        refine insertedPlaced other inside (fun same => different (congrArg some same)) ?_
        rw [free source]
        exact Option.some_ne_none other
      have placed := ReorderPanel_places inserted insertedApart member others moved
      have still := insertedApart.moved (fun _ => repacked.panels.mem_iff.mp) repacked.moved.panels
      exact Option.some.inj begun ▸ ⟨still, repacked.panels.mem_iff.mpr member, fun _ => rfl,
        fun other inside different _ => placed other inside fun same => different (Option.some.inj same)⟩
    · next other =>
      rw [← drag] at insertedPlaced
      exact Option.some.inj begun ▸ ⟨insertedApart, member, fun same => absurd same other, insertedPlaced⟩
  obtain ⟨apart, inside, held, placed⟩ := arrived
  have settled := started.place_settled panel info source
  have positioned := place_places apart inside found placed held
  have dragged : (started.place panel info source).dragged_panel_ = started.dragged_panel_ :=
    congrArg Prod.fst settled.drag
  rw [← dragged] at positioned
  have positionedApart := apart.moved (fun _ => (settled.panels ▸ ·)) settled.moved.panels
  generalize started.place panel info source = landed at positioned positionedApart done
  have focused : landed.KeepsPlaces (landed.focusAdded panel source) := by
    rw [focusAdded]
    split
    · exact FocusPanel_keepsPlaces panel
    · exact .refl landed
  have finished : landed.KeepsPlaces next := by
    dsimp only at done
    split at done
    · exact Option.some.inj done ▸ focused.trans (keepsPlaces_vertical.showInput _)
    · exact Option.some.inj done ▸ focused
  exact ⟨packed, positionedApart.keeps finished, finished.dragged ▸ positioned.keeps finished⟩

theorem RemovePanel_places (invariant : bar.PlaceInvariant) (done : bar.RemovePanel panel = some next) :
    next.PlaceInvariant := by
  have packed := RemovePanel_packed invariant.packed done
  obtain ⟨-, repacked, packing, rfl⟩ := RemovePanel_erases invariant.packed done
  have apart : (bar.without panel).PanelsApart :=
    invariant.apart.moved (fun _ member => List.mem_of_mem_erase member) rfl
  obtain ⟨again, repacks⟩ := without_repack invariant.packed packing
  obtain ⟨placed, still⟩ := repack_places again repacks apart packing
  have kept : repacked.PlaceInvariant := ⟨again, still, placed⟩
  split at packed
  · next collapsed =>
    rw [if_pos collapsed]
    exact kept.keeps packed (keepsPlaces_vertical.hideInput _)
  · next expanded =>
    rw [if_neg expanded]
    exact kept

end Handling

section Running

/-- A panel is added whose windows are its own, while none is dragged if it is dragged itself; a vertical drag
ends with the panel at its snapped position; and nobody else moves the windows of the panels. -/
def PlacesKept (bar : PanelBar) : PanelBarEvent → Prop
  | .AddPanel panel source =>
    (∀ other ∈ bar.panels_, bar.screen.Apart panel other ∧ bar.screen.Apart other panel) ∧
      (source = .PANEL_SOURCE_DRAGGED → bar.dragged_panel_ = none)
  | .HandleNotifyPanelDraggedMessage panel _ drag_y _ =>
    bar.screen.height - bar.screen.total_height panel - kPanelDetachThresholdPixels < drag_y →
      ∀ other ≠ panel, bar.dragged_panel_ = some other → bar.Aligned other
  | .HandleNotifyPanelDragCompleteMessage panel _ => bar.dragged_panel_ = some panel → bar.Aligned panel
  | .elsewhere screen => ∀ panel ∈ bar.panels_, screen.right panel = bar.screen.right panel
  | _ => True

theorem step_places {event : PanelBarEvent} (invariant : bar.PlaceInvariant)
    (kept : bar.PlacesKept event) (done : bar.step event = some next) : next.PlaceInvariant := by
  have packed := step_packed invariant.packed done
  cases event with
  | AddPanel panel source =>
    rw [step] at done
    split at done
    · cases done
    · next fresh => exact AddPanel_places invariant fresh kept.1 kept.2 done
  | RemovePanel panel =>
    obtain ⟨-, done⟩ := Option.ite_none_right_eq_some.mp done
    exact RemovePanel_places invariant done
  | HandleNotifyPanelDraggedMessage panel drag_x drag_y pointer_y =>
    obtain ⟨member, done⟩ := Option.ite_none_right_eq_some.mp done
    obtain ⟨⟨stays, after⟩, dragged, rfl⟩ := Option.map_eq_some_iff.mp done
    exact HandleNotifyPanelDraggedMessage_places invariant member kept dragged
  | HandleNotifyPanelDragCompleteMessage panel pointer_y =>
    obtain ⟨-, done⟩ := Option.ite_none_right_eq_some.mp done
    exact (HandlePanelDragComplete_places invariant kept done).1
  | HandleSetPanelStateMessage panel expand =>
    obtain ⟨-, done⟩ := Option.ite_none_right_eq_some.mp done
    rw [HandleSetPanelStateMessage] at done
    split at done
    · exact invariant.keeps packed (ExpandPanel_keepsPlaces done)
    · exact invariant.keeps packed (CollapsePanel_keepsPlaces done)
  | HandleFocusPanelMessage panel =>
    obtain ⟨-, done⟩ := Option.ite_none_right_eq_some.mp done
    obtain ⟨middle, expanded, done⟩ := Option.bind_eq_some_iff.mp done
    have focused := Option.some.inj done ▸ FocusPanel_keepsPlaces panel
    exact invariant.keeps packed ((ExpandPanel_keepsPlaces expanded).trans focused)
  | HandlePanelButtonPress panel =>
    obtain ⟨-, done⟩ := Option.ite_none_right_eq_some.mp done
    exact invariant.keeps packed (Option.some.inj done ▸ FocusPanel_keepsPlaces panel)
  | HandlePanelTitlebarPointerEnter panel =>
    obtain ⟨-, done⟩ := Option.ite_none_right_eq_some.mp done
    rw [HandlePanelTitlebarPointerEnter] at done
    split at done
    · exact invariant.keeps packed (keepsPlaces_vertical.ShowCollapsedPanels done)
    · exact Option.some.inj done ▸ invariant
  | HandlePanelUrgencyChange panel =>
    obtain ⟨-, done⟩ := Option.ite_none_right_eq_some.mp done
    obtain ⟨info, found, done⟩ := Option.bind_eq_some_iff.mp done
    have told : bar.panel_infos_ panel = some info := found
    dsimp only at done
    split at done
    · exact Option.some.inj done ▸ invariant
    · generalize noted : bar.setInfo panel
        (some { info with is_urgent := (bar.screen.content_win panel).wm_hint_urgent }) = informed at done
      have same : bar.KeepsPlaces informed := by
        subst noted
        refine ⟨rfl, fun other => ?_, rfl, .refl _⟩
        by_cases here : other = panel
        · rw [here, snappedRight, snappedRight, setInfo_self, told]
          rfl
        · rw [snappedRight, snappedRight, setInfo_of_ne bar here]
      exact invariant.keeps packed (same.trans (keepsPlaces_vertical.settle done))
  | HandlePanelResize panel width height gravity =>
    obtain ⟨-, done⟩ := Option.ite_none_right_eq_some.mp done
    have resized : PanelsApart { bar with screen := bar.screen.ResizeContent panel width height gravity } := by
      refine invariant.apart.moved (fun _ inside => inside) ?_
      dsimp only
      rw [Screen.ResizeContent]
      split <;> rfl
    have nodup : (PanelBar.panels_
        { bar with screen := bar.screen.ResizeContent panel width height gravity }).Nodup :=
      invariant.packed.nodup
    have placed := PackPanels_places nodup resized done
    obtain ⟨after, same, repacked, -⟩ := PackPanels_spec (PackPanels_informed done) nodup none
    rw [HandlePanelResize, same, Option.some.injEq] at done
    subst done
    exact ⟨packed, resized.moved (fun _ => repacked.panels.mem_iff.mp) repacked.moved.panels,
      placed.weaken _⟩
  | HandleScreenResize width height =>
    obtain ⟨middle, -, settled, packing, again, repacked⟩ := HandleScreenResize_repacks invariant.packed done
    have resized : (bar.onScreen width height).PanelsApart := invariant.apart
    obtain ⟨placed, apart⟩ := repack_places again repacked
      (resized.moved (fun _ => (settled.panels ▸ ·)) settled.moved.panels) packing
    exact ⟨packed, apart, placed⟩
  | HandleInputWindowButtonPress button =>
    have destroyed : bar.KeepsPlaces bar.DestroyAnchor := ⟨rfl, fun _ => rfl, rfl, .refl _⟩
    rw [step, HandleInputWindowButtonPress] at done
    split at done
    · exact Option.some.inj done ▸ invariant
    · split at done
      · exact invariant.keeps packed (destroyed.trans (CollapsePanel_keepsPlaces done))
      · exact invariant.keeps packed (Option.some.inj done ▸ destroyed)
  | HandleInputWindowPointerEnter x_root =>
    rw [step, HandleInputWindowPointerEnter] at done
    split at done
    · exact invariant.keeps packed (keepsPlaces_vertical.ShowCollapsedPanels done)
    · split at done
      · exact invariant.keeps packed (Option.some.inj done ▸ ⟨rfl, fun _ => rfl, rfl, .refl _⟩)
      · exact Option.some.inj done ▸ invariant
  | HandleInputWindowPointerLeave =>
    rw [step, Option.some.injEq] at done
    subst done
    rw [HandleInputWindowPointerLeave] at packed ⊢
    split
    · exact invariant.keeps (invariant.packed.keeps ⟨rfl, fun _ => rfl, rfl, rfl, rfl⟩)
        ⟨rfl, fun _ => rfl, rfl, .refl _⟩
    · exact invariant
  | HandleShowCollapsedPanelsTimer =>
    obtain ⟨-, done⟩ := Option.ite_none_right_eq_some.mp done
    have disarmed : bar.KeepsPlaces bar.DisableShowCollapsedPanelsTimer := ⟨rfl, fun _ => rfl, rfl, .refl _⟩
    exact invariant.keeps packed (disarmed.trans (keepsPlaces_vertical.ShowCollapsedPanels done))
  | hideCollapsedPanelsWatcher =>
    obtain ⟨-, done⟩ := Option.ite_none_right_eq_some.mp done
    have stopped : bar.KeepsPlaces { bar with hide_collapsed_panels_pointer_watcher_ := some false } :=
      ⟨rfl, fun _ => rfl, rfl, .refl _⟩
    exact invariant.keeps packed (stopped.trans (keepsPlaces_vertical.HideCollapsedPanels done))
  | anchorPointerWatcher =>
    rw [step, Option.some.injEq] at done
    exact invariant.keeps packed (done ▸ ⟨rfl, fun _ => rfl, rfl, .refl _⟩)
  | TakeFocus =>
    rw [step, Option.some.injEq] at done
    exact invariant.keeps packed (done ▸ TakeFocus_keepsPlaces)
  | elsewhere screen =>
    rw [step] at done
    split at done
    · next keeps =>
      rw [Option.some.injEq] at done
      simp only [keepsPanels, Bool.and_eq_true, decide_eq_true_eq, List.all_eq_true] at keeps
      subst done
      refine ⟨packed, fun first inside second member different => ?_, fun panel member free => ?_⟩
      · rw [Screen.Apart, (keeps.2 first inside).1, (keeps.2 second member).1]
        exact invariant.apart first inside second member different
      · rw [kept panel member]
        exact invariant.placed panel member free
    · cases done

end Running

end PanelBar

end ChromiumOS.WindowManager
