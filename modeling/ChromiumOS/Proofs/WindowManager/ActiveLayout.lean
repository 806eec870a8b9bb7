import ChromiumOS.Proofs.WindowManager.LayoutMapping
import ChromiumOS.ToMathlib.PartialRun

/-! # The layout of active mode

Every event leaves the windows laid out: it lays them out itself, or it changes nothing that the layout
is about. The addresses and the input windows are kept up with mapping and unmapping.
-/

namespace ChromiumOS.WindowManager.LayoutManager

variable {manager middle next : LayoutManager} {address : ℕ} {reference : Option ℕ}

/-- The invariant of the layout: the area is what the docks leave of the screen, and the windows are laid
out in it. -/
structure Arranged (manager : LayoutManager) : Prop extends Addressed manager where
  fitted : manager.area = availableArea manager.area.wm_width manager.area.wm_height
    manager.leftDockVisible manager.rightDockVisible
  laid : manager.Laid

theorem Kept.arranged (kept : Kept manager next) (arranged : manager.Arranged) : next.Arranged := by
  refine ⟨kept.addressed, ?_, kept.laid arranged.laid⟩
  rw [kept.area, kept.leftDockVisible, kept.rightDockVisible]
  exact arranged.fitted

theorem Changed.arranged {windows : List WindowKeys} {transients : List (XWindow × ℕ)}
    (changed : Changed manager next windows transients) (arranged : manager.Arranged) : next.Arranged := by
  refine ⟨changed.addressed, ?_, changed.laid arranged.laid⟩
  rw [changed.area, changed.leftDockVisible, changed.rightDockVisible]
  exact arranged.fitted

/-- Which windows are mapped does not matter to the layout. -/
theorem Arranged.with_mapped (arranged : manager.Arranged) (mapped : List XWindow) :
    Arranged { manager with mapped } :=
  ⟨⟨arranged.nodup, arranged.below, arranged.inputs, arranged.inputKeys, arranged.active,
    arranged.magnified, arranged.under⟩, arranged.fitted, arranged.laid⟩

section Configuration

variable (configuration : LayoutConfiguration)

theorem HandleButtonPress_kept (addressed : manager.Addressed) {xid : XWindow} {button : ℕ}
    (taken : manager.HandleButtonPress configuration xid button = some next) : Kept manager next := by
  rw [HandleButtonPress] at taken
  split at taken
  · cases taken
    exact .refl addressed
  · split at taken
    · next address found =>
      have present := addressed.input_refers xid address found
      split at taken
      · cases taken
        exact .refl addressed
      · next pressed =>
        have overview := not_not.mp (not_or.mp pressed).2
        split at taken
        · exact .of_exists (magnified_kept configuration addressed overview (.some present)) taken
        · have changed := kept_in_overview addressed overview (.some present) addressed.magnified
            addressed.under
          exact changed.trans (.of_exists (SetMode_kept configuration changed.addressed .MODE_ACTIVE) taken)
    · split at taken
      · cases taken
        exact .refl addressed
      · exact call_kept (HandleButtonPress_gentle xid) addressed taken

theorem HandlePointerEnter_kept (addressed : manager.Addressed) (xid : XWindow) :
    ∃ next, manager.HandlePointerEnter configuration xid = some next ∧ Kept manager next := by
  rw [HandlePointerEnter]
  split
  · exact ⟨manager, rfl, .refl addressed⟩
  · next address found =>
    split
    · exact ⟨manager, rfl, .refl addressed⟩
    · next overview =>
      split
      · exact magnified_kept configuration addressed (not_not.mp overview)
          (.some (addressed.input_refers xid address found))
      · exact ⟨manager, rfl, .refl addressed⟩

theorem handleSwitchMessage_kept (addressed : manager.Addressed) (xid : XWindow) :
    ∃ next, manager.handleSwitchMessage configuration xid = some next ∧ Kept manager next := by
  obtain ⟨switched, done, kept⟩ := SetMode_kept configuration addressed .MODE_OVERVIEW
  rw [handleSwitchMessage, done, Option.bind_eq_bind, Option.bind_some]
  split
  · exact ⟨switched, rfl, kept⟩
  · next address found =>
    refine ⟨_, SetMagnifiedToplevelWindow_eq configuration kept.addressed.magnified _, kept.trans ?_⟩
    exact kept_of_references kept.addressed
      (.some (GetToplevelWindowByWindow_refers xid address found)) kept.addressed.under

omit configuration in
theorem preferTransient_kept (addressed : manager.Addressed) {xid : XWindow}
    (preferred : manager.preferTransient xid = some next) :
    Kept manager next ∧ next.Refers (next.toplevelOf xid) := by
  have byWindow : next.Refers (next.GetToplevelWindowByWindow xid) := GetToplevelWindowByWindow_refers xid
  rw [preferTransient] at preferred
  split at preferred
  · next owner found =>
    have kept := call_kept (SetPreferredTransientWindowToFocus_gentle (some xid)) addressed preferred
    refine ⟨kept, .or ?_ byWindow⟩
    rw [GetToplevelWindowOwningTransientWindow, kept.transients]
    rw [GetToplevelWindowOwningTransientWindow] at found
    rw [found]
    exact .some (kept.addresses ▸ (call_eq_some.mp preferred).1)
  · next unowned =>
    cases preferred
    refine ⟨.refl addressed, .or ?_ byWindow⟩
    rw [unowned]
    exact .none

theorem HandleClientMessage_kept (addressed : manager.Addressed) {xid : XWindow}
    (taken : manager.HandleClientMessage configuration xid = some next) : Kept manager next := by
  rw [HandleClientMessage] at taken
  split at taken
  · cases taken
    exact .refl addressed
  · rw [Option.bind_eq_bind, Option.bind_eq_some_iff] at taken
    obtain ⟨preferred, first, taken⟩ := taken
    obtain ⟨kept, refers⟩ := preferTransient_kept addressed first
    refine kept.trans ?_
    split at taken
    · cases taken
      exact .refl kept.addressed
    · next address found =>
      have present := refers address found
      split at taken
      · split at taken
        · exact .of_exists (SetActiveToplevelWindow_kept kept.addressed present _ _) taken
        · exact call_kept TakeFocus_gentle kept.addressed taken
      · next inactive =>
        have changed := kept_in_overview kept.addressed (mode_overview inactive) (.some present)
          kept.addressed.magnified kept.addressed.under
        exact changed.trans (.of_exists (SetMode_kept configuration changed.addressed .MODE_ACTIVE) taken)

omit configuration in
theorem HandleFocusChange_kept (addressed : manager.Addressed) {xid : XWindow} {focus_in : Bool}
    (taken : manager.HandleFocusChange xid focus_in = some next) : Kept manager next := by
  rw [HandleFocusChange] at taken
  generalize (if focus_in then xid :: manager.focused else
    manager.focused.filter fun other => other != xid) = focused at taken
  have noted := kept_of_others addressed manager.floating_tab_ manager.tab_summary_
    manager.create_browser_window_ manager.floating_tab_event_coalescer_ focused
  split at taken
  · cases taken
    exact noted
  · split at taken
    · cases taken
      exact noted
    · exact noted.trans (call_kept id_gentle noted.addressed taken)

omit configuration in
theorem ResizeClient_gentle (size : ℤ × ℤ) :
    Gentle fun toplevel => toplevel.ResizeClient size .GRAVITY_NORTHWEST :=
  ⟨⟨fun _ => rfl, fun _ => rfl, fun _ => rfl, fun _ => rfl,
      fun toplevel => sub_zero toplevel.win_.client_x,
      fun toplevel => sub_zero toplevel.win_.client_y⟩, fun _ => rfl⟩

omit configuration in
theorem HandleWindowConfigureRequest_kept (addressed : manager.Addressed) {xid : XWindow}
    {req_width req_height : ℤ}
    (taken : manager.HandleWindowConfigureRequest xid req_width req_height = some next) :
    Kept manager next := by
  rw [HandleWindowConfigureRequest] at taken
  split at taken
  · cases taken
    exact .refl addressed
  · split at taken
    · exact call_kept id_gentle addressed taken
    · split at taken
      · cases taken
        exact .refl addressed
      · exact call_kept (ResizeClient_gentle (req_width, req_height)) addressed taken

omit configuration in
theorem TakeFocus_kept (addressed : manager.Addressed) (taken : manager.TakeFocus = some next) :
    Kept manager next := by
  rw [TakeFocus] at taken
  split at taken
  · exact call_kept TakeFocus_gentle addressed taken
  · cases taken
    exact .refl addressed

/-- A new area makes the layout manager resize the windows and lay them out. -/
theorem MoveAndResize_spec (addressed : manager.Addressed) (x y width height : ℤ) :
    ∃ next, manager.MoveAndResize configuration x y width height = some next ∧
      Kept { manager with
        area := { manager.area with x_ := x, y_ := y, width_ := width, height_ := height } } next ∧
      ((x, y, width, height) ≠ (manager.area.x_, manager.area.y_, manager.area.width_, manager.area.height_) →
        next.Laid) := by
  rw [MoveAndResize]
  split
  · next same =>
    obtain ⟨rfl, rfl, rfl, rfl⟩ := same
    exact ⟨manager, rfl, .refl addressed, fun other => absurd rfl other⟩
  · dsimp only
    generalize (if |x - manager.area.x_| > |x + width - (manager.area.x_ + manager.area.width_)| then
      Gravity.GRAVITY_NORTHEAST else .GRAVITY_NORTHWEST) = gravity
    have same : SameWindows
        { manager with area := { manager.area with x_ := x, y_ := y, width_ := width, height_ := height } }
        { manager with
          area := { manager.area with x_ := x, y_ := y, width_ := width, height_ := height }
          toplevels_ := manager.toplevels_.map fun toplevel => toplevel.ResizeClient
            (configuration.GetMaxSize toplevel.win_.xid width height) gravity } :=
      ⟨windows_map _ fun _ => rfl, rfl, rfl, rfl, rfl, rfl, rfl, rfl⟩
    have resized := same.addressed
      (⟨addressed.nodup, addressed.below, addressed.inputs, addressed.inputKeys, addressed.active,
        addressed.magnified, addressed.under⟩)
      addressed.active addressed.magnified addressed.under
    split
    · exact ⟨_, rfl, relaid same resized false, fun _ => layoutActive_laid resized false⟩
    · next overview =>
      obtain ⟨next, laidOut, kept⟩ := overviewed same resized overview
      refine ⟨next, laidOut, kept, fun _ => kept.laid fun active => ?_⟩
      rw [show manager.mode_ = .MODE_ACTIVE from active] at overview
      cases overview

theorem UpdateAvailableArea_spec (addressed : manager.Addressed) :
    ∃ next, manager.UpdateAvailableArea configuration = some next ∧
      Kept { manager with
        area := availableArea manager.area.wm_width manager.area.wm_height manager.leftDockVisible
          manager.rightDockVisible } next ∧
      (manager.area ≠ availableArea manager.area.wm_width manager.area.wm_height manager.leftDockVisible
        manager.rightDockVisible → next.Laid) := by
  obtain ⟨next, moved, kept, laid⟩ := MoveAndResize_spec configuration addressed
    (availableArea manager.area.wm_width manager.area.wm_height manager.leftDockVisible
      manager.rightDockVisible).x_ _ _ _
  refine ⟨next, moved, kept, fun other => laid fun same => other ?_⟩
  rw [Prod.ext_iff, Prod.ext_iff, Prod.ext_iff] at same
  obtain ⟨x, y, width, height⟩ := same
  exact Area.ext x.symm y.symm width.symm height.symm rfl rfl

theorem HandleRRScreenChangeNotify_arranged (arranged : manager.Arranged) (width height : ℤ) :
    ∃ next, manager.HandleRRScreenChangeNotify configuration width height = some next ∧
      next.Arranged ∧ Kept { manager with
        area := availableArea width height manager.leftDockVisible manager.rightDockVisible } next := by
  have addressed : Addressed
      { manager with area := { manager.area with wm_width := width, wm_height := height } } :=
    ⟨arranged.nodup, arranged.below, arranged.inputs, arranged.inputKeys, arranged.active,
      arranged.magnified, arranged.under⟩
  obtain ⟨next, updated, kept, laid⟩ := UpdateAvailableArea_spec configuration addressed
  refine ⟨next, updated, ⟨kept.addressed, ?_, ?_⟩, kept⟩
  · rw [kept.area, kept.leftDockVisible, kept.rightDockVisible]
    rfl
  · by_cases same : width = manager.area.wm_width ∧ height = manager.area.wm_height
    · obtain ⟨rfl, rfl⟩ := same
      apply kept.laid
      rw [← arranged.fitted]
      exact arranged.laid
    · apply laid
      intro fits
      have fitted := arranged.fitted
      have before := congrArg Area.width_ fitted
      have after := congrArg Area.width_ fits
      have beforeHeight := congrArg Area.height_ fitted
      have afterHeight := congrArg Area.height_ fits
      simp only [availableArea] at before after beforeHeight afterHeight
      exact same ⟨by omega, by omega⟩

theorem HandleDockVisibilityChange_arranged (arranged : manager.Arranged) (left right : Bool) :
    ∃ next, manager.HandleDockVisibilityChange configuration left right = some next ∧
      next.Arranged ∧ Kept { manager with
        area := availableArea manager.area.wm_width manager.area.wm_height left right
        leftDockVisible := left
        rightDockVisible := right } next := by
  have addressed : Addressed { manager with leftDockVisible := left, rightDockVisible := right } :=
    ⟨arranged.nodup, arranged.below, arranged.inputs, arranged.inputKeys, arranged.active,
      arranged.magnified, arranged.under⟩
  obtain ⟨next, updated, kept, laid⟩ := UpdateAvailableArea_spec configuration addressed
  refine ⟨next, updated, ⟨kept.addressed, ?_, ?_⟩, kept⟩
  · rw [kept.area, kept.leftDockVisible, kept.rightDockVisible]
    rfl
  · by_cases same : manager.area =
        availableArea manager.area.wm_width manager.area.wm_height left right
    · apply kept.laid
      dsimp only
      rw [← same]
      exact arranged.laid
    · exact laid same

theorem HandleMapNotify_arranged (arranged : manager.Arranged) {win : Window} {input_xid : XWindow}
    (taken : manager.HandleMapNotify configuration win input_xid = some next) : next.Arranged := by
  rw [HandleMapNotify] at taken
  split at taken
  · cases taken
    exact arranged
  · have noted := arranged.with_mapped (win.xid :: manager.mapped)
    rcases HandleWindowMap_cases configuration noted.toAddressed taken with kept | ⟨_, -, changed⟩ | changed
    · exact kept.arranged noted
    · exact changed.arranged noted
    · exact changed.arranged noted

theorem HandleUnmapNotify_arranged (arranged : manager.Arranged) {xid : XWindow}
    (taken : manager.HandleUnmapNotify configuration xid = some next) : next.Arranged := by
  have noted := arranged.with_mapped (manager.mapped.filter fun other => other != xid)
  obtain ⟨middle, kept, rest⟩ := HandleWindowUnmap_eq configuration noted.toAddressed xid
  rw [HandleUnmapNotify, rest, Option.bind_eq_some_iff] at taken
  obtain ⟨last, unmapped, taken⟩ := taken
  have arranged' := kept.arranged noted
  have lastArranged : last.Arranged := by
    cases found : middle.GetToplevelWindowOwningTransientWindow xid with
    | none =>
      rw [unmapTransient, found] at unmapped
      cases unmapped
      exact arranged'
    | some owner => exact (unmapTransient_changed arranged'.toAddressed found unmapped).arranged arranged'
  cases found : last.GetToplevelWindowByWindow xid with
  | none =>
    rw [unmapToplevel, found] at taken
    cases taken
    exact lastArranged
  | some address =>
    obtain ⟨_, _, _, again, -, -, -, -, changed⟩ :=
      unmapToplevel_changed configuration lastArranged.toAddressed found
    obtain rfl := Option.some.inj (again.symm.trans taken)
    exact changed.arranged lastArranged

/-- An event that is not about mapping keeps the windows, apart from the area they are in. -/
theorem step_kept (arranged : manager.Arranged) {event : LayoutEvent}
    (mapping : ∀ win input_xid, event ≠ .HandleMapNotify win input_xid)
    (unmapping : ∀ xid, event ≠ .HandleUnmapNotify xid) (taken : manager.step configuration event = some next) :
    next.Arranged ∧ ∃ area left right,
      Kept { manager with area := area, leftDockVisible := left, rightDockVisible := right } next := by
  have inPlace (kept : Kept manager next) : next.Arranged ∧ ∃ area left right,
      Kept { manager with area := area, leftDockVisible := left, rightDockVisible := right } next :=
    ⟨kept.arranged arranged, manager.area, manager.leftDockVisible, manager.rightDockVisible, kept⟩
  have addressed := arranged.toAddressed
  cases event with
  | HandleMapNotify win input_xid => exact absurd rfl (mapping win input_xid)
  | HandleUnmapNotify xid => exact absurd rfl (unmapping xid)
  | HandleFocusChange xid focus_in => exact inPlace (HandleFocusChange_kept addressed taken)
  | HandleButtonPress xid button => exact inPlace (HandleButtonPress_kept configuration addressed taken)
  | HandlePointerEnter xid =>
    exact inPlace (.of_exists (HandlePointerEnter_kept configuration addressed xid) taken)
  | HandleClientMessage xid => exact inPlace (HandleClientMessage_kept configuration addressed taken)
  | HandleWindowConfigureRequest xid req_width req_height =>
    exact inPlace (HandleWindowConfigureRequest_kept addressed taken)
  | WM_SWITCH_TO_OVERVIEW_MODE xid =>
    exact inPlace (.of_exists (handleSwitchMessage_kept configuration addressed xid) taken)
  | WM_MOVE_FLOATING_TAB xid x y =>
    refine inPlace ?_
    rw [step, handleMoveMessage] at taken
    split at taken
    · cases taken
      exact kept_of_others addressed _ _ _ _ _
    · cases taken
      exact .refl addressed
  | floatingTabTimer =>
    refine inPlace ?_
    rw [step] at taken
    split at taken
    · exact .of_exists (handleFloatingTabTimer_kept configuration addressed) taken
    · cases taken
      exact .refl addressed
  | SwitchToOverviewMode => exact inPlace (.of_exists (SetMode_kept configuration addressed .MODE_OVERVIEW) taken)
  | SwitchToActiveMode activate_magnified_win =>
    exact inPlace (.of_exists (SwitchToActiveMode_kept configuration addressed _) taken)
  | CycleActiveToplevelWindow forward =>
    exact inPlace (.of_exists (CycleActiveToplevelWindow_kept addressed forward) taken)
  | CycleMagnifiedToplevelWindow forward =>
    exact inPlace (.of_exists (CycleMagnifiedToplevelWindow_kept configuration addressed forward) taken)
  | ActivateToplevelWindowByIndex index =>
    exact inPlace (.of_exists (ActivateToplevelWindowByIndex_kept addressed index) taken)
  | MagnifyToplevelWindowByIndex index =>
    exact inPlace (.of_exists (MagnifyToplevelWindowByIndex_kept configuration addressed index) taken)
  | PanOverviewMode => exact inPlace (.of_exists (layoutOverview_kept addressed) taken)
  | TakeFocus => exact inPlace (TakeFocus_kept addressed taken)
  | HandleRRScreenChangeNotify width height =>
    obtain ⟨_, again, arranged', kept⟩ :=
      HandleRRScreenChangeNotify_arranged configuration arranged width height
    obtain rfl := Option.some.inj (again.symm.trans taken)
    exact ⟨arranged', _, _, _, kept⟩
  | HandleDockVisibilityChange left right =>
    obtain ⟨_, again, arranged', kept⟩ :=
      HandleDockVisibilityChange_arranged configuration arranged left right
    obtain rfl := Option.some.inj (again.symm.trans taken)
    exact ⟨arranged', _, _, _, kept⟩

theorem step_arranged (arranged : manager.Arranged) {event : LayoutEvent}
    (taken : manager.step configuration event = some next) : next.Arranged := by
  by_cases mapping : ∃ win input_xid, event = .HandleMapNotify win input_xid
  · obtain ⟨win, input_xid, rfl⟩ := mapping
    exact HandleMapNotify_arranged configuration arranged taken
  · by_cases unmapping : ∃ xid, event = .HandleUnmapNotify xid
    · obtain ⟨xid, rfl⟩ := unmapping
      exact HandleUnmapNotify_arranged configuration arranged taken
    · exact (step_kept configuration arranged (fun win input_xid same => mapping ⟨win, input_xid, same⟩)
        (fun xid same => unmapping ⟨xid, same⟩) taken).1

omit configuration in
theorem new_arranged (width height : ℤ) : (new width height).Arranged := by
  refine ⟨⟨List.nodup_nil, ?_, .nil, List.nodup_nil, .none, .none, .none⟩, rfl, ?_⟩
  · intro _ inside
    cases inside
  · intro _ some
    exact absurd rfl some

/-- Between events of active mode the active window is one of the toplevel windows and on the screen, and
every other one is off the screen. -/
theorem active_layout_holds (width height : ℤ) (events : List LayoutEvent) :
    PartialRun.Always (step configuration)
      (fun manager => manager.mode_ = .MODE_ACTIVE → manager.toplevels_ ≠ [] →
        ∃ active ∈ manager.toplevels_, manager.active_toplevel_ = some active.address ∧
          active.state_ = .STATE_ACTIVE_MODE_ONSCREEN ∧
          ∀ toplevel ∈ manager.toplevels_, toplevel ≠ active →
            toplevel.state_ = .STATE_ACTIVE_MODE_OFFSCREEN ∧
              toplevel.win_.client_x = manager.area.wm_width ∧
              toplevel.win_.client_y = manager.area.wm_height)
      (new width height) events := by
  have always : PartialRun.Always (step configuration) Arranged (new width height) events :=
    PartialRun.always_of_preserved (new_arranged width height)
      (fun _ _ _ arranged taken => step_arranged configuration arranged taken) events
  intro past before manager reached mode some
  have arranged := always past before manager reached
  obtain ⟨address, found, present, shown⟩ := arranged.laid mode some
  obtain ⟨active, inside, rfl⟩ := mem_addresses.mp present
  have onscreen := shown active inside
  rw [ShownIn, if_pos rfl] at onscreen
  refine ⟨active, inside, found, onscreen, ?_⟩
  intro toplevel member other
  have offscreen := shown toplevel member
  rwa [ShownIn, if_neg fun same => other (arranged.eq_of_address member inside same)] at offscreen

end Configuration

end ChromiumOS.WindowManager.LayoutManager
