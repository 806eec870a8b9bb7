import ChromiumOS.Model.WindowManager.PanelBar

/-! # What moving panels leaves alone

A screen on which windows were moved has the same panels, and the same windows up to their positions.
Most of what a panel bar does to its panels changes nothing else, and repacking the panels changes their
order and their snapped positions besides.
-/

namespace ChromiumOS.WindowManager

/-- Windows were moved, and another one may be active. -/
structure Screen.Moved (before after : Screen) : Prop where
  width : after.width = before.width
  height : after.height = before.height
  panels : after.panels = before.panels
  windows : ∀ xid, ∃ x y, after.windows xid = (before.windows xid).MoveComposited x y

namespace Screen.Moved

variable {first second third : Screen}

theorem refl (screen : Screen) : screen.Moved screen :=
  ⟨rfl, rfl, rfl, fun _ => ⟨_, _, rfl⟩⟩

theorem trans (moved : first.Moved second) (again : second.Moved third) : first.Moved third where
  width := again.width.trans moved.width
  height := again.height.trans moved.height
  panels := again.panels.trans moved.panels
  windows := by
    intro xid
    obtain ⟨x, y, once⟩ := moved.windows xid
    obtain ⟨x', y', twice⟩ := again.windows xid
    exact ⟨x', y', by rw [twice, once]; rfl⟩

theorem content_win (moved : first.Moved second) (panel : ℕ) :
    ∃ x y, second.content_win panel = (first.content_win panel).MoveComposited x y := by
  rw [Screen.content_win, Screen.content_win, moved.panels]
  exact moved.windows _

theorem titlebar_win (moved : first.Moved second) (panel : ℕ) :
    ∃ x y, second.titlebar_win panel = (first.titlebar_win panel).MoveComposited x y := by
  rw [Screen.titlebar_win, Screen.titlebar_win, moved.panels]
  exact moved.windows _

theorem content_width (moved : first.Moved second) (panel : ℕ) :
    second.content_width panel = first.content_width panel := by
  obtain ⟨x, y, same⟩ := moved.content_win panel
  rw [Screen.content_width, same]
  rfl

theorem total_height (moved : first.Moved second) (panel : ℕ) :
    second.total_height panel = first.total_height panel := by
  obtain ⟨x, y, content⟩ := moved.content_win panel
  obtain ⟨x', y', titlebar⟩ := moved.titlebar_win panel
  rw [Screen.total_height, Screen.content_height, Screen.titlebar_height, content, titlebar]
  rfl

theorem focused (moved : first.Moved second) (panel : ℕ) :
    (second.content_win panel).focused = (first.content_win panel).focused := by
  obtain ⟨x, y, same⟩ := moved.content_win panel
  rw [same]
  rfl

theorem is_expanded (moved : first.Moved second) (panel : ℕ) :
    second.is_expanded panel = first.is_expanded panel := by
  rw [Screen.is_expanded, moved.panels]
  rfl

end Screen.Moved

namespace Screen

variable (screen : Screen)

theorem onWindow_moved (xid : XWindow) {method : PanelWindow → PanelWindow}
    (moves : ∀ win, ∃ x y, method win = win.MoveComposited x y) :
    screen.Moved (screen.onWindow xid method) := by
  refine ⟨rfl, rfl, rfl, fun other => ?_⟩
  by_cases same : other = xid
  · obtain ⟨x, y, moved⟩ := moves (screen.windows xid)
    exact ⟨x, y, by simp only [onWindow, same, Function.update_self, moved]⟩
  · exact ⟨_, _, Function.update_of_ne same _ _⟩

theorem onWindows_moved (panel : ℕ) {titlebar content : PanelWindow → PanelWindow}
    (first : ∀ win, ∃ x y, titlebar win = win.MoveComposited x y)
    (second : ∀ win, ∃ x y, content win = win.MoveComposited x y) :
    screen.Moved (screen.onWindows panel titlebar content) :=
  (screen.onWindow_moved _ first).trans (onWindow_moved _ _ second)

theorem Move_moved (panel : ℕ) (right y : ℤ) : screen.Moved (screen.Move panel right y) :=
  screen.onWindows_moved panel (fun _ => ⟨_, _, rfl⟩) (fun _ => ⟨_, _, rfl⟩)

theorem MoveX_moved (panel : ℕ) (right : ℤ) : screen.Moved (screen.MoveX panel right) :=
  screen.onWindows_moved panel (fun _ => ⟨_, _, rfl⟩) (fun _ => ⟨_, _, rfl⟩)

theorem MoveY_moved (panel : ℕ) (y : ℤ) : screen.Moved (screen.MoveY panel y) :=
  screen.onWindows_moved panel (fun _ => ⟨_, _, rfl⟩) (fun _ => ⟨_, _, rfl⟩)

theorem SetActiveWindowProperty_moved (xid : Option XWindow) :
    screen.Moved (screen.SetActiveWindowProperty xid) :=
  ⟨rfl, rfl, rfl, fun _ => ⟨_, _, rfl⟩⟩

end Screen

namespace PanelBar

/-- What the bar knows of a drag. -/
def drag (bar : PanelBar) : Option ℕ × Bool := (bar.dragged_panel_, bar.dragging_panel_horizontally_)

/-- What the bar knows of showing and hiding collapsed panels. -/
def visibility (bar : PanelBar) : CollapsedPanelState × Bool × Bool × Option Bool :=
  (bar.collapsed_panel_state_, bar.showCollapsedPanelsInputOnscreen, bar.showCollapsedPanelsTimerArmed,
    bar.hide_collapsed_panels_pointer_watcher_)

/-- Panels were moved, and the anchor and the focus may have changed. -/
structure Settled (before after : PanelBar) : Prop where
  moved : before.screen.Moved after.screen
  panels : after.panels_ = before.panels_
  infos : after.panel_infos_ = before.panel_infos_
  total : after.total_panel_width_ = before.total_panel_width_
  drag : after.drag = before.drag
  visibility : after.visibility = before.visibility

namespace Settled

variable {first second third : PanelBar}

theorem refl (bar : PanelBar) : bar.Settled bar := ⟨.refl _, rfl, rfl, rfl, rfl, rfl⟩

theorem trans (settled : first.Settled second) (again : second.Settled third) : first.Settled third where
  moved := settled.moved.trans again.moved
  panels := again.panels.trans settled.panels
  infos := again.infos.trans settled.infos
  total := again.total.trans settled.total
  drag := again.drag.trans settled.drag
  visibility := again.visibility.trans settled.visibility

theorem visible (settled : first.Settled second) :
    second.collapsed_panel_state_ = first.collapsed_panel_state_ ∧
      second.showCollapsedPanelsInputOnscreen = first.showCollapsedPanelsInputOnscreen ∧
      second.showCollapsedPanelsTimerArmed = first.showCollapsedPanelsTimerArmed ∧
      second.hide_collapsed_panels_pointer_watcher_ = first.hide_collapsed_panels_pointer_watcher_ := by
  have same := settled.visibility
  simp only [PanelBar.visibility, Prod.mk.injEq] at same
  exact same

end Settled

variable (bar : PanelBar)

theorem moveX_settled (panel : ℕ) (right : ℤ) : bar.Settled (bar.moveX panel right) :=
  ⟨bar.screen.MoveX_moved panel right, rfl, rfl, rfl, rfl, rfl⟩

theorem moveY_settled (panel : ℕ) (y : ℤ) : bar.Settled (bar.moveY panel y) :=
  ⟨bar.screen.MoveY_moved panel y, rfl, rfl, rfl, rfl, rfl⟩

theorem active_settled (xid : Option XWindow) :
    bar.Settled { bar with screen := bar.screen.SetActiveWindowProperty xid } :=
  ⟨bar.screen.SetActiveWindowProperty_moved xid, rfl, rfl, rfl, rfl, rfl⟩

theorem FocusPanel_settled (panel : ℕ) : bar.Settled (bar.FocusPanel panel) :=
  ⟨bar.screen.SetActiveWindowProperty_moved _, rfl, rfl, rfl, rfl, rfl⟩

theorem TakeFocus_settled : bar.Settled bar.TakeFocus.2 := by
  rw [TakeFocus]
  split
  · exact bar.FocusPanel_settled _
  · exact .refl bar

theorem wmTakeFocus_settled : bar.Settled bar.wmTakeFocus := by
  rw [wmTakeFocus]
  split
  · exact bar.active_settled _
  · exact bar.TakeFocus_settled

theorem giveUpFocus_settled (panel : ℕ) (panel_to_focus : Option ℕ) :
    bar.Settled (bar.giveUpFocus panel panel_to_focus) := by
  rw [giveUpFocus]
  split
  · have chosen : bar.Settled { bar with desired_panel_to_focus_ := panel_to_focus } :=
      ⟨.refl _, rfl, rfl, rfl, rfl, rfl⟩
    have taken := chosen.trans (TakeFocus_settled { bar with desired_panel_to_focus_ := panel_to_focus })
    dsimp only
    split
    · next found =>
      rw [found] at taken
      exact taken
    · next found =>
      rw [found] at taken
      exact (taken.trans (active_settled _ none)).trans (wmTakeFocus_settled _)
  · exact .refl bar

theorem place_settled (panel : ℕ) (info : PanelInfo) (source : PanelSource) :
    bar.Settled (bar.place panel info source) := by
  cases source with
  | PANEL_SOURCE_NEW =>
    have moved : bar.Settled
        { bar with screen := bar.screen.Move panel info.snapped_right bar.screen.height } :=
      ⟨bar.screen.Move_moved _ _ _, rfl, rfl, rfl, rfl, rfl⟩
    exact moved.trans (moveY_settled _ _ _)
  | PANEL_SOURCE_DRAGGED => exact bar.moveY_settled _ _
  | PANEL_SOURCE_DROPPED => exact ⟨bar.screen.Move_moved _ _ _, rfl, rfl, rfl, rfl, rfl⟩

theorem focusAdded_settled (panel : ℕ) (source : PanelSource) :
    bar.Settled (bar.focusAdded panel source) := by
  rw [focusAdded]
  split
  · exact bar.FocusPanel_settled panel
  · exact .refl bar

theorem dragTo_settled (panel : ℕ) (drag_x drag_y : ℤ) : bar.Settled (bar.dragTo panel drag_x drag_y) := by
  rw [dragTo]
  split
  · exact bar.moveX_settled _ _
  · exact bar.moveY_settled _ _

theorem setInfo_self (panel : ℕ) (info : Option PanelInfo) :
    (bar.setInfo panel info).panel_infos_ panel = info := by
  simp only [setInfo, Function.update_self]

theorem setInfo_of_ne {panel other : ℕ} (different : other ≠ panel) (info : Option PanelInfo) :
    (bar.setInfo panel info).panel_infos_ other = bar.panel_infos_ other := by
  simp only [setInfo, Function.update_of_ne different]

/-- Every panel has its information. -/
def Informed (bar : PanelBar) : Prop := ∀ panel ∈ bar.panels_, (bar.panel_infos_ panel).isSome

variable {bar}

theorem settle_settled {panel : ℕ} (known : (bar.panel_infos_ panel).isSome) :
    ∃ next, bar.settle panel = some next ∧ bar.Settled next := by
  obtain ⟨info, found⟩ := Option.isSome_iff_exists.mp known
  rw [settle]
  split
  · exact ⟨bar, rfl, .refl bar⟩
  · simp only [GetPanelInfoOrDie, found, Option.bind_eq_bind, Option.bind_some]
    split
    · exact ⟨_, rfl, bar.moveY_settled _ _⟩
    · exact ⟨bar, rfl, .refl bar⟩

theorem jump_settled {panel : ℕ} (known : (bar.panel_infos_ panel).isSome) :
    ∃ next, bar.jump panel = some next ∧ bar.Settled next := by
  obtain ⟨info, found⟩ := Option.isSome_iff_exists.mp known
  refine ⟨_, ?_, bar.moveY_settled panel (bar.ComputePanelY panel info)⟩
  simp only [jump, GetPanelInfoOrDie, found, Option.bind_eq_bind, Option.bind_some]

/-- A loop over the panels that settles one after the other. -/
theorem foldlM_settled {visit : PanelBar → ℕ → Option PanelBar}
    (visited : ∀ {bar : PanelBar} {panel : ℕ}, (bar.panel_infos_ panel).isSome →
      ∃ next, visit bar panel = some next ∧ bar.Settled next)
    {panels : List ℕ} (known : ∀ panel ∈ panels, (bar.panel_infos_ panel).isSome) :
    ∃ next, panels.foldlM visit bar = some next ∧ bar.Settled next := by
  induction panels generalizing bar with
  | nil => exact ⟨bar, rfl, .refl bar⟩
  | cons panel rest ih =>
    obtain ⟨middle, taken, settled⟩ := visited (known panel List.mem_cons_self)
    have later : ∀ panel ∈ rest, (middle.panel_infos_ panel).isSome := by
      intro other member
      rw [settled.infos]
      exact known other (List.mem_cons_of_mem _ member)
    obtain ⟨next, folded, again⟩ := ih later
    refine ⟨next, ?_, settled.trans again⟩
    rw [List.foldlM_cons, taken, Option.bind_eq_bind, Option.bind_some, folded]

/-- The width that panels take up. -/
def span (screen : Screen) (panels : List ℕ) : ℤ :=
  (panels.map fun panel => (screen.content_width panel : ℤ) + kPixelsBetweenPanels).sum

theorem span_nil (screen : Screen) : span screen [] = 0 := rfl

theorem span_cons (screen : Screen) (panel : ℕ) (rest : List ℕ) :
    span screen (panel :: rest) = screen.content_width panel + kPixelsBetweenPanels + span screen rest :=
  List.sum_cons

theorem span_append (screen : Screen) (first second : List ℕ) :
    span screen (first ++ second) = span screen first + span screen second := by
  rw [span, List.map_append, List.sum_append]
  rfl

theorem span_perm (screen : Screen) {first second : List ℕ} (perm : first.Perm second) :
    span screen first = span screen second :=
  (perm.map _).sum_eq

theorem span_nonneg (screen : Screen) (panels : List ℕ) : 0 ≤ span screen panels := by
  apply List.sum_nonneg
  intro value member
  obtain ⟨panel, -, rfl⟩ := List.mem_map.mp member
  have gap : (0 : ℤ) ≤ kPixelsBetweenPanels := by decide
  omega

theorem span_congr {first second : Screen} {panels : List ℕ}
    (same : ∀ panel ∈ panels, second.content_width panel = first.content_width panel) :
    span second panels = span first panels := by
  rw [span, span]
  refine congrArg List.sum (List.map_congr_left fun panel member => ?_)
  rw [same panel member]

theorem Settled.collapsed {next : PanelBar} (settled : bar.Settled next) :
    next.GetNumCollapsedPanels = bar.GetNumCollapsedPanels := by
  rw [GetNumCollapsedPanels, GetNumCollapsedPanels, settled.panels]
  refine List.countP_congr fun panel _ => ?_
  rw [settled.moved.is_expanded]

theorem ShowCollapsedPanels_spec (informed : bar.Informed) :
    ∃ next, bar.ShowCollapsedPanels = some next ∧
      Settled { bar with
        collapsed_panel_state_ := .COLLAPSED_PANEL_STATE_SHOWN
        showCollapsedPanelsInputOnscreen := false
        showCollapsedPanelsTimerArmed := false
        hide_collapsed_panels_pointer_watcher_ := some true } next := by
  rw [ShowCollapsedPanels]
  generalize begun : bar.DisableShowCollapsedPanelsTimer.setCollapsedPanelState
    .COLLAPSED_PANEL_STATE_SHOWN = shown
  have known : shown.Informed := begun ▸ informed
  obtain ⟨middle, folded, settled⟩ := foldlM_settled settle_settled known
  simp only [folded, Option.bind_eq_bind, Option.bind_some]
  refine ⟨_, rfl, ?_⟩
  subst begun
  refine ⟨settled.moved, settled.panels, settled.infos, settled.total, settled.drag, ?_⟩
  obtain ⟨state, -, armed, -⟩ := Settled.visible settled
  simp only [visibility, StartHideCollapsedPanelsWatcher, ConfigureShowCollapsedPanelsInputWindow, state, armed]
  rfl

/-- The input window is on screen when collapsed panels have been hidden. -/
def onscreenWhenHidden (bar : PanelBar) : Bool :=
  if 0 < bar.GetNumCollapsedPanels then true else bar.showCollapsedPanelsInputOnscreen

theorem hideNow_spec (informed : bar.Informed) :
    ∃ next, bar.hideNow = some next ∧
      Settled { bar with
        collapsed_panel_state_ := .COLLAPSED_PANEL_STATE_HIDDEN
        showCollapsedPanelsInputOnscreen := bar.onscreenWhenHidden
        hide_collapsed_panels_pointer_watcher_ := none } next := by
  rw [hideNow]
  generalize begun : bar.setCollapsedPanelState .COLLAPSED_PANEL_STATE_HIDDEN = hidden
  have known : hidden.Informed := begun ▸ informed
  obtain ⟨middle, folded, settled⟩ := foldlM_settled settle_settled known
  simp only [folded, Option.bind_eq_bind, Option.bind_some]
  refine ⟨_, rfl, ?_⟩
  have counted := settled.collapsed
  subst begun
  obtain ⟨state, onscreen, armed, -⟩ := Settled.visible settled
  have collapsed : middle.GetNumCollapsedPanels = bar.GetNumCollapsedPanels := counted
  rw [onscreenWhenHidden, collapsed]
  split
  · refine ⟨settled.moved, settled.panels, settled.infos, settled.total, settled.drag, ?_⟩
    simp only [visibility, ConfigureShowCollapsedPanelsInputWindow, state, armed]
    rfl
  · refine ⟨settled.moved, settled.panels, settled.infos, settled.total, settled.drag, ?_⟩
    simp only [visibility, state, onscreen, armed]
    rfl

theorem hideInputAfterLastCollapsed_eq :
    bar.hideInputAfterLastCollapsed =
      { bar with
        showCollapsedPanelsInputOnscreen :=
          if bar.GetNumCollapsedPanels = 0 then false else bar.showCollapsedPanelsInputOnscreen } := by
  rw [hideInputAfterLastCollapsed]
  split <;> rfl

theorem showInputForFirstCollapsed_eq :
    bar.showInputForFirstCollapsed =
      { bar with
        showCollapsedPanelsInputOnscreen :=
          if bar.GetNumCollapsedPanels = 1 then true else bar.showCollapsedPanelsInputOnscreen } := by
  rw [showInputForFirstCollapsed]
  split <;> rfl

theorem Settled.hideInput {next : PanelBar} (settled : bar.Settled next) :
    bar.hideInputAfterLastCollapsed.Settled next.hideInputAfterLastCollapsed := by
  obtain ⟨state, onscreen, armed, watcher⟩ := settled.visible
  rw [hideInputAfterLastCollapsed_eq, hideInputAfterLastCollapsed_eq]
  refine ⟨settled.moved, settled.panels, settled.infos, settled.total, settled.drag, ?_⟩
  simp only [PanelBar.visibility, settled.collapsed, state, onscreen, armed, watcher]

theorem Settled.showInput {next : PanelBar} (settled : bar.Settled next) :
    bar.showInputForFirstCollapsed.Settled next.showInputForFirstCollapsed := by
  obtain ⟨state, onscreen, armed, watcher⟩ := settled.visible
  rw [showInputForFirstCollapsed_eq, showInputForFirstCollapsed_eq]
  refine ⟨settled.moved, settled.panels, settled.infos, settled.total, settled.drag, ?_⟩
  simp only [PanelBar.visibility, settled.collapsed, state, onscreen, armed, watcher]

theorem ExpandPanel_spec {panel : ℕ} (known : (bar.panel_infos_ panel).isSome)
    (collapsed : bar.screen.is_expanded panel = false) (create_anchor : Bool) :
    ∃ next, bar.ExpandPanel panel create_anchor = some next ∧
      (bar.setExpandedState panel true).hideInputAfterLastCollapsed.Settled next := by
  obtain ⟨info, found⟩ := Option.isSome_iff_exists.mp known
  rw [ExpandPanel, if_neg (by rw [collapsed]; exact Bool.false_ne_true)]
  have told : (bar.setExpandedState panel true).panel_infos_ panel = some info := found
  generalize bar.setExpandedState panel true = expanded at told
  simp only [GetPanelInfoOrDie, told, Option.bind_eq_bind, Option.bind_some]
  refine ⟨_, rfl, Settled.hideInput ?_⟩
  have moved := expanded.moveY_settled panel (expanded.ComputePanelY panel info)
  split
  · exact moved.trans ⟨.refl _, rfl, rfl, rfl, rfl, rfl⟩
  · exact moved

theorem CollapsePanel_spec {panel : ℕ} (known : (bar.panel_infos_ panel).isSome)
    (expanded : bar.screen.is_expanded panel = true) :
    ∃ next, bar.CollapsePanel panel = some next ∧
      (bar.setExpandedState panel false).showInputForFirstCollapsed.Settled next := by
  obtain ⟨info, found⟩ := Option.isSome_iff_exists.mp known
  rw [CollapsePanel, if_neg (by rw [expanded]; exact Bool.false_ne_true)]
  dsimp only
  generalize bar.GetNearestExpandedPanel panel = panel_to_focus
  have anchored : (bar.setExpandedState panel false).Settled
      ((if bar.anchor_panel_ = some panel then bar.DestroyAnchor else bar).setExpandedState panel false) := by
    split
    · exact ⟨.refl _, rfl, rfl, rfl, rfl, rfl⟩
    · exact .refl _
  generalize (if bar.anchor_panel_ = some panel then bar.DestroyAnchor else bar).setExpandedState panel
    false = collapsed at anchored ⊢
  have told : collapsed.panel_infos_ panel = some info := by rw [anchored.infos]; exact found
  simp only [GetPanelInfoOrDie, told, Option.bind_eq_bind, Option.bind_some]
  refine ⟨_, rfl, Settled.showInput ?_⟩
  exact (anchored.trans (collapsed.moveY_settled panel _)).trans (giveUpFocus_settled _ panel panel_to_focus)

end PanelBar

end ChromiumOS.WindowManager
