import ChromiumOS.Model.WindowManager.Wm
import ChromiumOS.ToMathlib.PartialRun

/-! # The stacking order of the children of the root window

The window manager keeps all children of the root window in the order that the X server has, whether it
tracks them or not. The windows that it tracks are among them, so that the creation of a child is never
taken for that of a window that is known.
-/

namespace ChromiumOS.WindowManager

variable {root next : RootWindow} {manager : Wm} {window : XWindow} {answers : WindowAnswers}

/-- A child that is restacked leaves the others where they are. -/
theorem RootWindow.restack_mem (present : window ∈ root.children) {above : Option XWindow}
    (restacked : root.restack window above = some next) (xid : XWindow) :
    xid ∈ next.children ↔ xid ∈ root.children := by
  have back : xid = window ∨ xid ∈ root.children.erase window ↔ xid ∈ root.children := by
    rw [← List.mem_cons]
    exact (List.perm_cons_erase present).mem_iff.symm
  cases above with
  | none =>
    cases restacked
    rw [List.mem_append, List.mem_singleton, or_comm]
    exact back
  | some above =>
    rw [RootWindow.restack] at restacked
    split at restacked
    · next sibling =>
      cases restacked
      rw [(ListOrder.insertBefore_perm window
        ((List.mem_erase_of_ne sibling.2).mpr sibling.1)).mem_iff, List.mem_cons]
      exact back
    · cases restacked

namespace Wm

/-- The ids of the windows that are tracked. -/
def clientXids (manager : Wm) : List XWindow := manager.client_windows_.map fun win => win.xid

@[simp] theorem UpdateClientListProperty_stacked :
    manager.UpdateClientListProperty.stacked_xids_ = manager.stacked_xids_ := rfl

@[simp] theorem UpdateClientListProperty_clients :
    manager.UpdateClientListProperty.client_windows_ = manager.client_windows_ := rfl

@[simp] theorem UpdateClientListStackingProperty_stacked :
    manager.UpdateClientListStackingProperty.stacked_xids_ = manager.stacked_xids_ := rfl

@[simp] theorem UpdateClientListStackingProperty_clients :
    manager.UpdateClientListStackingProperty.client_windows_ = manager.client_windows_ := rfl

theorem GetWindow_eq_none : manager.GetWindow window = none ↔ window ∉ manager.clientXids := by
  simp [GetWindow, clientXids]

theorem set_mapped_xids (mapped : Bool) : (manager.set_mapped window mapped).clientXids = manager.clientXids := by
  rw [clientXids, set_mapped, List.map_map, clientXids]
  apply List.map_congr_left
  intro win _
  simp only [Function.comp_apply]
  split <;> rfl

theorem HandleMappedWindow_same (manager : Wm) (win : ClientWindow) :
    (manager.HandleMappedWindow win).stacked_xids_ = manager.stacked_xids_ ∧
      (manager.HandleMappedWindow win).client_windows_ = manager.client_windows_ := by
  rw [HandleMappedWindow]
  split
  · exact ⟨rfl, rfl⟩
  · split <;> exact ⟨rfl, rfl⟩

theorem TrackWindow_spec (manager : Wm) (window : XWindow) (override_redirect : Bool)
    (answers : WindowAnswers) :
    (manager.TrackWindow window override_redirect answers).2.stacked_xids_ = manager.stacked_xids_ ∧
      ∀ xid ∈ (manager.TrackWindow window override_redirect answers).2.clientXids,
        xid = window ∨ xid ∈ manager.clientXids := by
  rw [TrackWindow]
  split
  · exact ⟨rfl, fun _ => .inr⟩
  · split
    · exact ⟨rfl, fun _ => .inr⟩
    · split
      · exact ⟨rfl, fun _ => .inr⟩
      · exact ⟨rfl, fun _ inside => List.mem_cons.mp inside⟩

theorem eraseClient_xids : (manager.eraseClient window).clientXids =
    manager.clientXids.filter fun xid => xid != window := by
  rw [eraseClient, clientXids, clientXids, List.filter_map]
  rfl

end Wm

/-- The window manager has the children of the root window in their order. -/
structure Mirrors (root : RootWindow) (manager : Wm) : Prop where
  stacked : manager.stacked_xids_.items = root.children
  clients : ∀ xid ∈ manager.clientXids, xid ∈ root.children

namespace Mirrors

/-- A child that comes goes on top. -/
theorem enter (mirrors : Mirrors root manager) (entered : root.enter window = some next) :
    Mirrors next { manager with stacked_xids_ := manager.stacked_xids_.AddOnTop window } := by
  rw [RootWindow.enter] at entered
  split at entered
  · cases entered
  · next absent =>
    cases entered
    refine ⟨?_, fun xid inside => List.mem_cons_of_mem _ (mirrors.clients xid inside)⟩
    rw [Stacker.items_AddOnTop (mirrors.stacked ▸ absent), mirrors.stacked]

theorem track (mirrors : Mirrors root manager) (present : window ∈ root.children)
    (override_redirect : Bool) (answers : WindowAnswers) :
    Mirrors root (manager.TrackWindow window override_redirect answers).2 := by
  obtain ⟨stacked, clients⟩ := Wm.TrackWindow_spec manager window override_redirect answers
  refine ⟨by rw [stacked, mirrors.stacked], fun xid inside => ?_⟩
  rcases clients xid inside with rfl | old
  · exact present
  · exact mirrors.clients xid old

/-- A child that goes is forgotten. -/
theorem leave (mirrors : Mirrors root manager)
    (forgotten : ∀ xid ∈ manager.clientXids, xid ≠ window) :
    Mirrors (root.leave window)
      { manager with stacked_xids_ := manager.stacked_xids_.Remove window } := by
  refine ⟨?_, fun xid inside => ?_⟩
  · rw [Stacker.items_Remove, mirrors.stacked]
    rfl
  · exact (List.mem_erase_of_ne (forgotten xid inside)).mpr (mirrors.clients xid inside)

/-- What is mirrored depends on the stacking order and on the ids of the clients only. -/
theorem of_same {other : Wm} (mirrors : Mirrors root manager)
    (stacked : other.stacked_xids_ = manager.stacked_xids_)
    (clients : other.clientXids = manager.clientXids) : Mirrors root other :=
  ⟨by rw [stacked, mirrors.stacked], fun xid inside => mirrors.clients xid (clients ▸ inside)⟩

theorem map (mirrors : Mirrors root manager) (window : XWindow) : Mirrors (root.map window) manager := by
  rw [RootWindow.map]
  split
  · exact ⟨mirrors.stacked, mirrors.clients⟩
  · exact mirrors

end Mirrors

namespace Wm

theorem HandleCreateNotify_mirrors (mirrors : Mirrors root manager) (override_redirect : Bool)
    (entered : root.enter window = some next) :
    Mirrors next (manager.HandleCreateNotify window true override_redirect answers) := by
  have absent : window ∉ root.children := by
    intro present
    rw [RootWindow.enter, if_pos present] at entered
    cases entered
  have unknown : manager.GetWindow window = none :=
    GetWindow_eq_none.mpr fun inside => absent (mirrors.clients window inside)
  have present : window ∈ next.children := by
    rw [RootWindow.enter, if_neg absent] at entered
    cases entered
    exact List.mem_cons_self
  rw [HandleCreateNotify, unknown]
  simp only [Option.isSome_none, Bool.false_eq_true, if_false, Bool.not_true]
  split
  · exact mirrors.enter entered
  · exact (mirrors.enter entered).track present override_redirect answers

/-- The stacking order after a child is put above another one, or below all of them. -/
theorem restack_stacked (mirrors : Mirrors root manager) (present : window ∈ root.children)
    {above : Option XWindow} (restacked : root.restack window above = some next) :
    (manager.restack window above).2.stacked_xids_.items = next.children := by
  have nodup : root.children.Nodup := mirrors.stacked ▸ manager.stacked_xids_.nodup
  have absent : window ∉ (manager.stacked_xids_.Remove window).items := by
    rw [Stacker.mem_Remove]
    exact fun inside => inside.1 rfl
  rw [restack, Stacker.GetUnder, mirrors.stacked]
  cases above with
  | none =>
    cases restacked
    split
    · next last => rw [mirrors.stacked, ListOrder.erase_append_of_next_none nodup present last]
    · dsimp only
      rw [Stacker.items_AddOnBottom absent, Stacker.items_Remove, mirrors.stacked]
  | some above =>
    rw [RootWindow.restack] at restacked
    split at restacked
    · next sibling =>
      cases restacked
      split
      · next under => rw [mirrors.stacked, ListOrder.insertBefore_erase_of_next nodup under]
      · have known : above ∈ (manager.stacked_xids_.Remove window).items := by
          rw [Stacker.mem_Remove, mirrors.stacked]
          exact ⟨sibling.2, sibling.1⟩
        simp only [Stacker.Contains, known, decide_true, if_true]
        rw [Stacker.items_AddAbove absent known, Stacker.items_Remove, mirrors.stacked]
    · cases restacked

theorem restack_clients (above : Option XWindow) :
    (manager.restack window above).2.client_windows_ = manager.client_windows_ := by
  rw [restack]
  split <;> rfl

theorem HandleConfigureNotify_mirrors (mirrors : Mirrors root manager) (present : window ∈ root.children)
    {above : Option XWindow} (restacked : root.restack window above = some next) :
    Mirrors next (manager.HandleConfigureNotify window above) := by
  have stacked := restack_stacked mirrors present restacked
  have same := RootWindow.restack_mem present restacked
  have moved : Mirrors next (manager.restack window above).2 := by
    refine ⟨stacked, fun xid inside => (same xid).mpr (mirrors.clients xid ?_)⟩
    rwa [clientXids, restack_clients] at inside
  have contained : manager.stacked_xids_.Contains window = true := by
    rw [Stacker.Contains, mirrors.stacked]
    exact decide_eq_true present
  rw [HandleConfigureNotify, contained, Bool.not_true, if_neg Bool.false_ne_true]
  dsimp only
  split
  · exact moved
  · split
    · exact moved.of_same rfl rfl
    · exact moved

/-- A window that was removed from the stacking order is no longer tracked either. -/
theorem forgotten_mirrors (mirrors : Mirrors root manager) {other : Wm}
    (stacked : other.stacked_xids_.items = manager.stacked_xids_.items.erase window)
    (clients : other.clientXids ⊆ manager.clientXids.filter fun xid => xid != window) :
    Mirrors (root.leave window) other := by
  refine ⟨by rw [stacked, mirrors.stacked]; rfl, fun xid inside => ?_⟩
  obtain ⟨inside, different⟩ := List.mem_filter.mp (clients inside)
  exact (List.mem_erase_of_ne (bne_iff_ne.mp different)).mpr (mirrors.clients xid inside)

theorem filter_xids (unknown : window ∉ manager.clientXids) :
    (manager.clientXids.filter fun xid => xid != window) = manager.clientXids := by
  rw [List.filter_eq_self]
  intro xid inside
  exact bne_iff_ne.mpr fun same => unknown (same ▸ inside)

theorem HandleDestroyNotify_mirrors (mirrors : Mirrors root manager) (window : XWindow) :
    Mirrors (root.leave window) (manager.HandleDestroyNotify window) := by
  rw [HandleDestroyNotify]
  split
  · next unknown =>
    have unknown : window ∉ manager.clientXids := GetWindow_eq_none.mp unknown
    refine forgotten_mirrors mirrors rfl ?_
    rw [filter_xids unknown]
    exact List.Subset.refl _
  · split
    · refine forgotten_mirrors mirrors rfl ?_
      rw [eraseClient_xids]
      exact List.Subset.refl _
    · refine forgotten_mirrors mirrors rfl ?_
      rw [eraseClient_xids]
      exact List.Subset.refl _

theorem removeMapped_same (manager : Wm) (window : XWindow) :
    (manager.removeMapped window).stacked_xids_ = manager.stacked_xids_ ∧
      (manager.removeMapped window).client_windows_ = manager.client_windows_ := by
  rw [removeMapped]
  split <;> exact ⟨rfl, rfl⟩

/-- What happens to the windows when one is reparented away is what happens when one is destroyed, but for
the list of mapped windows. -/
theorem HandleReparentNotify_mirrors (mirrors : Mirrors root manager) (window : XWindow) :
    Mirrors (root.leave window) (manager.HandleReparentNotify window false) := by
  rw [HandleReparentNotify, if_neg Bool.false_ne_true]
  split
  · next absent =>
    have unknown : window ∉ root.children := by
      simpa [Stacker.Contains, mirrors.stacked] using absent
    have unchanged : root.children.erase window = root.children := List.erase_of_not_mem unknown
    exact ⟨by rw [mirrors.stacked, RootWindow.leave, unchanged],
      fun xid inside => by rw [RootWindow.leave, unchanged]; exact mirrors.clients xid inside⟩
  · dsimp only
    obtain ⟨stacked, clients⟩ :=
      removeMapped_same { manager with stacked_xids_ := manager.stacked_xids_.Remove window } window
    generalize Wm.removeMapped _ _ = removed at stacked clients ⊢
    have sameStacked : removed.stacked_xids_.items = manager.stacked_xids_.items.erase window := by
      rw [stacked]
      rfl
    have sameXids : removed.clientXids = manager.clientXids := by rw [clientXids, clients, clientXids]
    split
    · next unknown =>
      refine forgotten_mirrors mirrors sameStacked ?_
      rw [filter_xids (sameXids ▸ GetWindow_eq_none.mp unknown), sameXids]
      exact List.Subset.refl _
    · split
      · refine forgotten_mirrors mirrors sameStacked ?_
        rw [eraseClient_xids, sameXids]
        exact List.Subset.refl _
      · refine forgotten_mirrors mirrors sameStacked ?_
        rw [eraseClient_xids, ← sameXids]
        exact List.Subset.refl _

theorem HandleMapNotify_mirrors (mirrors : Mirrors root manager) (window : XWindow) :
    Mirrors root (manager.HandleMapNotify window) := by
  rw [HandleMapNotify]
  split
  · exact mirrors
  · next win _ =>
    split
    · exact mirrors
    · obtain ⟨stacked, clients⟩ := HandleMappedWindow_same (manager.set_mapped window true) win
      refine mirrors.of_same stacked ?_
      rw [clientXids, clients]
      exact set_mapped_xids true

theorem HandleUnmapNotify_mirrors (mirrors : Mirrors root manager) (window : XWindow) :
    Mirrors root (manager.HandleUnmapNotify window) := by
  have unmapped : Mirrors root (manager.set_mapped window false) :=
    mirrors.of_same rfl (set_mapped_xids false)
  rw [HandleUnmapNotify]
  split
  · exact mirrors
  · dsimp only
    split
    · exact unmapped.of_same rfl rfl
    · exact unmapped

/-- Whatever the X server tells, the stacking order is the same afterwards. -/
theorem HandleEvent_mirrors (mirrors : Mirrors root manager) {event : XEvent}
    (changed : root.change event = some next) : Mirrors next (manager.HandleEvent event) := by
  cases event with
  | CreateNotify window inRoot override_redirect answers =>
    cases inRoot with
    | true => exact HandleCreateNotify_mirrors mirrors override_redirect changed
    | false =>
      cases changed
      rw [HandleEvent, HandleCreateNotify]
      split
      · exact mirrors
      · exact mirrors
  | ConfigureNotify window above =>
    rw [RootWindow.change] at changed
    split at changed
    · next present => exact HandleConfigureNotify_mirrors mirrors present changed
    · next absent =>
      cases changed
      have unknown : manager.stacked_xids_.Contains window = false := by
        rw [Stacker.Contains, mirrors.stacked]
        exact decide_eq_false absent
      rw [HandleEvent, HandleConfigureNotify, unknown]
      exact mirrors
  | DestroyNotify window =>
    cases changed
    exact HandleDestroyNotify_mirrors mirrors window
  | ReparentNotify window toRoot =>
    cases toRoot with
    | true => exact mirrors.enter changed
    | false =>
      cases changed
      exact HandleReparentNotify_mirrors mirrors window
  | MapNotify window =>
    cases changed
    exact (HandleMapNotify_mirrors mirrors window).map window
  | UnmapNotify window =>
    cases changed
    have unmapped := HandleUnmapNotify_mirrors mirrors window
    exact ⟨unmapped.stacked, unmapped.clients⟩

/-- A window that exists when the window manager starts is handled like one that is created and mapped. -/
theorem manageExistingWindow_eq (unknown : manager.GetWindow window = none) (answers : WindowAnswers) :
    manager.manageExistingWindow window answers =
      match answers.attributes with
      | none => manager
      | some override_redirect =>
        let tracked := manager.HandleCreateNotify window true override_redirect answers
        if answers.mapState then tracked.HandleMapNotify window else tracked := by
  rw [manageExistingWindow]
  cases looked : answers.attributes with
  | none => rfl
  | some override_redirect =>
    have created : manager.HandleCreateNotify window true override_redirect answers =
        (TrackWindow { manager with stacked_xids_ := manager.stacked_xids_.AddOnTop window } window
          override_redirect answers).2 := by
      rw [HandleCreateNotify, unknown, looked]
      rfl
    have untracked : GetWindow { manager with stacked_xids_ := manager.stacked_xids_.AddOnTop window }
        window = none := unknown
    dsimp only
    rw [created, TrackWindow]
    cases answers.internal with
    | true =>
      simp only [if_true, HandleMapNotify, untracked, ite_self]
    | false =>
      cases answers.inputOnly with
      | true => simp only [Bool.false_eq_true, if_true, HandleMapNotify, untracked, ite_self]
      | false =>
        simp only [Bool.false_eq_true, if_false, untracked]
        cases answers.mapState with
        | false => rfl
        | true => simp [HandleMapNotify, GetWindow]

end Wm

/-- One more window that exists is one more that enters the root window. -/
theorem RootWindow.ofExisting_concat {windows : List (XWindow × WindowAnswers)}
    (absent : window ∉ windows.map Prod.fst) (answers : WindowAnswers) :
    RootWindow.ofExisting (windows ++ [(window, answers)]) =
      match answers.attributes with
      | none => .ofExisting windows
      | some _ =>
        let entered : RootWindow :=
          { RootWindow.ofExisting windows with children := window :: (RootWindow.ofExisting windows).children }
        if answers.mapState then entered.map window else entered := by
  have unmapped : window ∉ (RootWindow.ofExisting windows).mapped := by
    intro mapped
    obtain ⟨entry, inside, same⟩ := List.mem_map.mp mapped
    exact absent (List.mem_map.mpr ⟨entry, (List.mem_filter.mp inside).1, same⟩)
  cases looked : answers.attributes with
  | none => simp [RootWindow.ofExisting, looked]
  | some override_redirect =>
    cases answered : answers.mapState with
    | false => simp [RootWindow.ofExisting, looked, answered]
    | true =>
      dsimp only
      rw [if_pos rfl, RootWindow.map, if_pos ⟨List.mem_cons_self, unmapped⟩]
      simp [RootWindow.ofExisting, looked, answered]

/-- What creation and mapping preserve holds when the window manager has started. -/
theorem Wm.managed (invariant : RootWindow → Wm → Prop)
    (implied : ∀ root manager, invariant root manager → Mirrors root manager)
    (created : ∀ root manager window override_redirect answers next, invariant root manager →
      root.enter window = some next →
      invariant next (manager.HandleCreateNotify window true override_redirect answers))
    (mapped : ∀ root manager window, invariant root manager →
      invariant (root.map window) (manager.HandleMapNotify window))
    (first : invariant ⟨[], []⟩ .new) {windows : List (XWindow × WindowAnswers)}
    (nodup : (windows.map Prod.fst).Nodup) :
    invariant (.ofExisting windows)
      (windows.foldl (fun manager window => manager.manageExistingWindow window.1 window.2) .new) := by
  induction windows using List.reverseRecOn with
  | nil => exact first
  | append_singleton windows last ih =>
    obtain ⟨window, answers⟩ := last
    rw [List.map_append, List.map_singleton, List.nodup_append] at nodup
    have absent : window ∉ windows.map Prod.fst := by
      intro inside
      exact nodup.2.2 window inside window List.mem_cons_self rfl
    have before := ih nodup.1
    rw [List.foldl_append, List.foldl_cons, List.foldl_nil, RootWindow.ofExisting_concat absent]
    generalize windows.foldl _ _ = manager at before ⊢
    have outside : window ∉ (RootWindow.ofExisting windows).children := by
      intro inside
      obtain ⟨entry, inside, same⟩ := List.mem_map.mp (List.mem_reverse.mp inside)
      exact absent (List.mem_map.mpr ⟨entry, (List.mem_filter.mp inside).1, same⟩)
    have unknown : manager.GetWindow window = none :=
      GetWindow_eq_none.mpr fun inside => outside ((implied _ _ before).clients window inside)
    rw [manageExistingWindow_eq unknown]
    cases answers.attributes with
    | none => exact before
    | some override_redirect =>
      have tracked := created _ _ window override_redirect answers _ before (if_neg outside)
      dsimp only
      split
      · exact mapped _ _ window tracked
      · exact tracked

namespace Desktop

theorem start_mirrors (existing : ExistingWindows) :
    Mirrors (start existing).root (start existing).wm := by
  have managed := Wm.managed Mirrors (fun _ _ mirrors => mirrors)
    (fun _ _ _ override_redirect _ _ mirrors entered =>
      Wm.HandleCreateNotify_mirrors mirrors override_redirect entered)
    (fun _ _ window mirrors => (Wm.HandleMapNotify_mirrors mirrors window).map window)
    ⟨rfl, fun _ inside => by cases inside⟩ existing.nodup
  exact managed.of_same rfl rfl

/-- The window manager of a desktop has the children of its root window in their order. -/
def Mirrored (desktop : Desktop) : Prop := Mirrors desktop.root desktop.wm

/-- After each truthful event the window manager has the children of the root window in the order of the
server. -/
theorem stacking_mirrors_server (existing : ExistingWindows) (events : List XEvent) :
    PartialRun.Always step
      (fun desktop => desktop.wm.stacked_xids_.items = desktop.root.children) (start existing) events := by
  have always : PartialRun.Always step Mirrored (start existing) events := by
    have first : (start existing).Mirrored := start_mirrors existing
    refine PartialRun.always_of_preserved first ?_ events
    intro desktop event next mirrors taken
    obtain ⟨root, changed, rfl⟩ := Option.map_eq_some_iff.mp taken
    exact Wm.HandleEvent_mirrors mirrors changed
  intro past before desktop reached
  exact (always past before desktop reached).stacked

end Desktop

end ChromiumOS.WindowManager
