import ChromiumOS.Model.WindowManager.LayoutManager

/-! # Steps of the layout manager that keep its windows

Most of what the layout manager does leaves its windows and its maps as they are: it activates,
magnifies, configures and focuses windows that are there. `Kept` says so once, together with what such a
step does to the references and to the layout of active mode.
-/

namespace ChromiumOS.WindowManager

/-- What the maps of the layout manager say about a toplevel window. -/
structure WindowKeys where
  address : ℕ
  xid : XWindow
  input_xid_ : XWindow
  transients : List XWindow

def ToplevelWindow.keys (toplevel : ToplevelWindow) : WindowKeys where
  address := toplevel.address
  xid := toplevel.win_.xid
  input_xid_ := toplevel.input_xid_
  transients := toplevel.transients_.map fun transient => transient.xid

namespace LayoutManager

/-- The keys of the windows, in order. -/
def windows (manager : LayoutManager) : List WindowKeys :=
  manager.toplevels_.map fun toplevel => toplevel.keys

def addresses (manager : LayoutManager) : List ℕ := manager.windows.map fun keys => keys.address

/-- The address of a window or nothing. -/
def Refers (manager : LayoutManager) (reference : Option ℕ) : Prop :=
  ∀ address, reference = some address → address ∈ manager.addresses

/-- The references to toplevel windows, apart from those of transient windows. -/
structure Addressed (manager : LayoutManager) : Prop where
  nodup : manager.addresses.Nodup
  below : ∀ address ∈ manager.addresses, address < manager.nextAddress
  inputs : manager.input_to_toplevel_.Perm
    (manager.windows.map fun keys => (keys.input_xid_, keys.address))
  inputKeys : (manager.input_to_toplevel_.map Prod.fst).Nodup
  active : manager.Refers manager.active_toplevel_
  magnified : manager.Refers manager.magnified_toplevel_
  under : manager.Refers manager.toplevel_under_floating_tab_

/-- How active mode shows a window, given the one that is active. -/
def ShownIn (area : Area) (active : ℕ) (toplevel : ToplevelWindow) : Prop :=
  if toplevel.address = active then toplevel.state_ = .STATE_ACTIVE_MODE_ONSCREEN
  else toplevel.state_ = .STATE_ACTIVE_MODE_OFFSCREEN ∧ toplevel.win_.client_x = area.wm_width ∧
    toplevel.win_.client_y = area.wm_height

/-- The layout of active mode: the active window is on the screen, and the others are not. -/
def Laid (manager : LayoutManager) : Prop :=
  manager.mode_ = .MODE_ACTIVE → manager.toplevels_ ≠ [] →
    ∃ active, manager.active_toplevel_ = some active ∧ active ∈ manager.addresses ∧
      ∀ toplevel ∈ manager.toplevels_, ShownIn manager.area active toplevel

/-- The windows, the maps and the area are the same. -/
structure SameWindows (before after : LayoutManager) : Prop where
  windows : after.windows = before.windows
  inputs : after.input_to_toplevel_ = before.input_to_toplevel_
  transients : after.transient_to_toplevel_ = before.transient_to_toplevel_
  mapped : after.mapped = before.mapped
  nextAddress : after.nextAddress = before.nextAddress
  area : after.area = before.area
  leftDockVisible : after.leftDockVisible = before.leftDockVisible
  rightDockVisible : after.rightDockVisible = before.rightDockVisible

/-- A step that leaves the windows as they are, and that breaks no reference and no layout. -/
structure Kept (before after : LayoutManager) : Prop extends SameWindows before after where
  addressed : after.Addressed
  laid : before.Laid → after.Laid

variable {manager middle next : LayoutManager} {address : ℕ} {reference : Option ℕ}

theorem SameWindows.refl (manager : LayoutManager) : SameWindows manager manager :=
  ⟨rfl, rfl, rfl, rfl, rfl, rfl, rfl, rfl⟩

theorem SameWindows.trans (first : SameWindows manager middle) (second : SameWindows middle next) :
    SameWindows manager next where
  windows := second.windows.trans first.windows
  inputs := second.inputs.trans first.inputs
  transients := second.transients.trans first.transients
  mapped := second.mapped.trans first.mapped
  nextAddress := second.nextAddress.trans first.nextAddress
  area := second.area.trans first.area
  leftDockVisible := second.leftDockVisible.trans first.leftDockVisible
  rightDockVisible := second.rightDockVisible.trans first.rightDockVisible

theorem SameWindows.addresses (same : SameWindows manager next) : next.addresses = manager.addresses := by
  rw [LayoutManager.addresses, same.windows, LayoutManager.addresses]

theorem Kept.refl (addressed : manager.Addressed) : Kept manager manager :=
  ⟨.refl manager, addressed, id⟩

theorem Kept.trans (first : Kept manager middle) (second : Kept middle next) : Kept manager next :=
  ⟨first.toSameWindows.trans second.toSameWindows, second.addressed, second.laid ∘ first.laid⟩

/-- References that are to windows before a step that leaves them as they are. -/
theorem SameWindows.addressed (same : SameWindows manager next) (addressed : manager.Addressed)
    (active : manager.Refers next.active_toplevel_) (magnified : manager.Refers next.magnified_toplevel_)
    (under : manager.Refers next.toplevel_under_floating_tab_) : next.Addressed := by
  refine ⟨?_, ?_, ?_, ?_, ?_, ?_, ?_⟩
  · rw [same.addresses]
    exact addressed.nodup
  · rw [same.addresses, same.nextAddress]
    exact addressed.below
  · rw [same.inputs, same.windows]
    exact addressed.inputs
  · rw [same.inputs]
    exact addressed.inputKeys
  · rwa [Refers, same.addresses]
  · rwa [Refers, same.addresses]
  · rwa [Refers, same.addresses]

theorem mem_addresses : address ∈ manager.addresses ↔
    ∃ toplevel ∈ manager.toplevels_, toplevel.address = address := by
  simp [addresses, windows, ToplevelWindow.keys]

theorem deref_isSome : (manager.deref address).isSome = true ↔ address ∈ manager.addresses := by
  simp [deref, mem_addresses]

theorem usable_iff : manager.usable reference = true ↔ manager.Refers reference := by
  cases reference with
  | none => simp [usable, Refers]
  | some address => simp [usable, Refers, deref_isSome]

theorem Refers.some (present : address ∈ manager.addresses) : manager.Refers (some address) := by
  rintro _ ⟨⟩
  exact present

theorem Refers.none : manager.Refers none := by
  rintro _ ⟨⟩

theorem Refers.or {other : Option ℕ} (first : manager.Refers reference) (second : manager.Refers other) :
    manager.Refers (reference.or other) := by
  cases reference with
  | none => exact second
  | some address => exact first

theorem addressAt_refers (index : ℤ) : manager.Refers (manager.addressAt index) := by
  intro address found
  rw [addressAt] at found
  generalize (if index < 0 then (manager.toplevels_.length : ℤ) + index else index) = place at found
  split at found
  · cases found
  · obtain ⟨toplevel, at_, rfl⟩ := Option.map_eq_some_iff.mp found
    exact mem_addresses.mpr ⟨toplevel, List.mem_of_getElem? at_, rfl⟩

theorem addressAt_isSome {index : ℤ} (inside : 0 ≤ index ∧ index < manager.toplevels_.length) :
    ∃ address, manager.addressAt index = some address := by
  have bound : index.toNat < manager.toplevels_.length := by omega
  rw [addressAt]
  simp only [not_lt.mpr inside.1, if_false, List.getElem?_eq_getElem bound, Option.map_some]
  exact ⟨_, rfl⟩

theorem GetToplevelWindowByWindow_refers (xid : XWindow) :
    manager.Refers (manager.GetToplevelWindowByWindow xid) := by
  intro address found
  obtain ⟨toplevel, search, rfl⟩ := Option.map_eq_some_iff.mp found
  exact mem_addresses.mpr ⟨toplevel, List.mem_of_find?_eq_some search, rfl⟩

theorem mem_of_lookup {entries : List (XWindow × ℕ)} {key : XWindow}
    (found : entries.lookup key = some address) : (key, address) ∈ entries := by
  induction entries with
  | nil => cases found
  | cons entry rest ih =>
    obtain ⟨first, value⟩ := entry
    rw [List.lookup_cons] at found
    split at found
    · next same =>
      obtain rfl := eq_of_beq same
      cases found
      exact List.mem_cons_self
    · exact List.mem_cons_of_mem _ (ih found)

theorem Addressed.input_refers (addressed : manager.Addressed) (xid : XWindow) :
    manager.Refers (manager.GetToplevelWindowByInputXid xid) := by
  intro address found
  have entry := addressed.inputs.mem_iff.mp (mem_of_lookup found)
  obtain ⟨keys, member, same⟩ := List.mem_map.mp entry
  exact List.mem_map.mpr ⟨keys, member, (Prod.ext_iff.mp same).2⟩

/-- A window is known by its address. -/
theorem Addressed.eq_of_address (addressed : manager.Addressed) {toplevel other : ToplevelWindow}
    (inside : toplevel ∈ manager.toplevels_) (otherInside : other ∈ manager.toplevels_)
    (same : toplevel.address = other.address) : toplevel = other := by
  have nodup := addressed.nodup
  rw [LayoutManager.addresses, LayoutManager.windows, List.map_map] at nodup
  exact List.inj_on_of_nodup_map nodup inside otherInside same

/-- Methods that keep the address, the window and the input window, and how the window is shown. -/
structure Steady (method : ToplevelWindow → ToplevelWindow) : Prop where
  sameAddress : ∀ toplevel, (method toplevel).address = toplevel.address
  xid : ∀ toplevel, (method toplevel).win_.xid = toplevel.win_.xid
  input_xid_ : ∀ toplevel, (method toplevel).input_xid_ = toplevel.input_xid_
  state_ : ∀ toplevel, (method toplevel).state_ = toplevel.state_
  client_x : ∀ toplevel, (method toplevel).win_.client_x = toplevel.win_.client_x
  client_y : ∀ toplevel, (method toplevel).win_.client_y = toplevel.win_.client_y

/-- Methods that keep the transient windows too. -/
structure Gentle (method : ToplevelWindow → ToplevelWindow) : Prop extends Steady method where
  transients_ : ∀ toplevel, (method toplevel).transients_ = toplevel.transients_

theorem Gentle.keys {method : ToplevelWindow → ToplevelWindow} (gentle : Gentle method)
    (toplevel : ToplevelWindow) : (method toplevel).keys = toplevel.keys := by
  simp only [ToplevelWindow.keys, gentle.sameAddress, gentle.xid, gentle.input_xid_, gentle.transients_]

theorem Steady.comp {first second : ToplevelWindow → ToplevelWindow} (steady : Steady first)
    (other : Steady second) : Steady (second ∘ first) where
  sameAddress toplevel := (other.sameAddress _).trans (steady.sameAddress toplevel)
  xid toplevel := (other.xid _).trans (steady.xid toplevel)
  input_xid_ toplevel := (other.input_xid_ _).trans (steady.input_xid_ toplevel)
  state_ toplevel := (other.state_ _).trans (steady.state_ toplevel)
  client_x toplevel := (other.client_x _).trans (steady.client_x toplevel)
  client_y toplevel := (other.client_y _).trans (steady.client_y toplevel)

theorem Gentle.comp {first second : ToplevelWindow → ToplevelWindow} (gentle : Gentle first)
    (other : Gentle second) : Gentle (second ∘ first) :=
  ⟨gentle.toSteady.comp other.toSteady,
    fun toplevel => (other.transients_ _).trans (gentle.transients_ toplevel)⟩

theorem id_gentle : Gentle id :=
  ⟨⟨fun _ => rfl, fun _ => rfl, fun _ => rfl, fun _ => rfl, fun _ => rfl, fun _ => rfl⟩, fun _ => rfl⟩

theorem Steady.shownIn {method : ToplevelWindow → ToplevelWindow} (steady : Steady method) {area : Area}
    {active : ℕ} {toplevel : ToplevelWindow} (shown : ShownIn area active toplevel) :
    ShownIn area active (method toplevel) := by
  rw [ShownIn, steady.sameAddress, steady.state_, steady.client_x, steady.client_y]
  exact shown

theorem windows_map (manager : LayoutManager) {method : ToplevelWindow → ToplevelWindow}
    (same : ∀ toplevel, (method toplevel).keys = toplevel.keys) :
    windows { manager with toplevels_ := manager.toplevels_.map method } = manager.windows := by
  rw [windows, windows, List.map_map]
  exact List.map_congr_left fun toplevel _ => same toplevel

theorem call_keys (address : ℕ) {method : ToplevelWindow → ToplevelWindow}
    (same : ∀ toplevel, (method toplevel).keys = toplevel.keys) (toplevel : ToplevelWindow) :
    (if toplevel.address = address then method toplevel else toplevel).keys = toplevel.keys := by
  split
  · exact same toplevel
  · rfl

theorem call_eq_some {method : ToplevelWindow → ToplevelWindow} :
    manager.call address method = some next ↔ address ∈ manager.addresses ∧
      next = { manager with toplevels_ := manager.toplevels_.map fun toplevel =>
        if toplevel.address = address then method toplevel else toplevel } := by
  rw [call]
  split
  · next present =>
    rw [deref_isSome] at present
    rw [Option.some.injEq, eq_comm]
    exact (and_iff_right present).symm
  · next absent =>
    rw [deref_isSome] at absent
    simp [absent]

/-- A call of a method that keeps what the maps say. -/
theorem call_same {method : ToplevelWindow → ToplevelWindow}
    (keys : ∀ toplevel, (method toplevel).keys = toplevel.keys) (present : address ∈ manager.addresses) :
    ∃ next, manager.call address method = some next ∧ SameWindows manager next ∧
      next.mode_ = manager.mode_ ∧ next.active_toplevel_ = manager.active_toplevel_ ∧
      next.magnified_toplevel_ = manager.magnified_toplevel_ ∧
      next.toplevel_under_floating_tab_ = manager.toplevel_under_floating_tab_ := by
  refine ⟨_, call_eq_some.mpr ⟨present, rfl⟩, ⟨?_, rfl, rfl, rfl, rfl, rfl, rfl, rfl⟩, rfl, rfl, rfl, rfl⟩
  exact windows_map manager (call_keys address keys)

/-- A steady method keeps the layout of active mode. -/
theorem call_laid {method : ToplevelWindow → ToplevelWindow} (steady : Steady method)
    (called : manager.call address method = some next) (laid : manager.Laid) : next.Laid := by
  obtain ⟨-, rfl⟩ := call_eq_some.mp called
  intro active some
  obtain ⟨active, found, member, shown⟩ := laid active (by simpa using some)
  have each : ∀ toplevel ∈ manager.toplevels_.map fun toplevel =>
      if toplevel.address = address then method toplevel else toplevel,
      ShownIn manager.area active toplevel := by
    intro toplevel inside
    obtain ⟨original, member, rfl⟩ := List.mem_map.mp inside
    split
    · exact steady.shownIn (shown original member)
    · exact shown original member
  refine ⟨active, found, mem_addresses.mpr ?_, each⟩
  obtain ⟨toplevel, inside, rfl⟩ := mem_addresses.mp member
  refine ⟨_, List.mem_map_of_mem inside, ?_⟩
  split
  · exact steady.sameAddress toplevel
  · rfl

theorem call_kept {method : ToplevelWindow → ToplevelWindow} (gentle : Gentle method)
    (addressed : manager.Addressed) (called : manager.call address method = some next) :
    Kept manager next := by
  obtain ⟨_, again, same, -, active, magnified, under⟩ :=
    call_same gentle.keys (call_eq_some.mp called).1
  obtain rfl := Option.some.inj (called.symm.trans again)
  refine ⟨same, same.addressed addressed ?_ ?_ ?_, call_laid gentle.toSteady called⟩
  · exact active ▸ addressed.active
  · exact magnified ▸ addressed.magnified
  · exact under ▸ addressed.under

theorem RestackTransientWindowOnTop_gentle (transient : TransientWindow) :
    Gentle fun toplevel => toplevel.RestackTransientWindowOnTop transient := by
  refine ⟨⟨?_, ?_, ?_, ?_, ?_, ?_⟩, ?_⟩ <;> intro toplevel <;>
    rw [ToplevelWindow.RestackTransientWindowOnTop] <;> split <;> rfl

theorem TakeFocus_gentle : Gentle fun toplevel => toplevel.TakeFocus := by
  refine ⟨⟨?_, ?_, ?_, ?_, ?_, ?_⟩, ?_⟩ <;> intro toplevel <;> rw [ToplevelWindow.TakeFocus] <;>
    cases toplevel.transient_to_focus_ <;> try rfl
  · exact (RestackTransientWindowOnTop_gentle _).sameAddress toplevel
  · exact (RestackTransientWindowOnTop_gentle _).xid toplevel
  · exact (RestackTransientWindowOnTop_gentle _).input_xid_ toplevel
  · exact (RestackTransientWindowOnTop_gentle _).state_ toplevel
  · exact (RestackTransientWindowOnTop_gentle _).client_x toplevel
  · exact (RestackTransientWindowOnTop_gentle _).client_y toplevel
  · exact (RestackTransientWindowOnTop_gentle _).transients_ toplevel

/-- The preferred window is all that a preference changes. -/
theorem SetPreferredTransientWindowToFocus_eq (toplevel : ToplevelWindow) (win : Option XWindow) :
    ∃ focus, toplevel.SetPreferredTransientWindowToFocus win =
      { toplevel with transient_to_focus_ := focus } := by
  cases win with
  | none =>
    simp only [ToplevelWindow.SetPreferredTransientWindowToFocus]
    split
    · split <;> exact ⟨_, rfl⟩
    · exact ⟨_, rfl⟩
  | some xid =>
    simp only [ToplevelWindow.SetPreferredTransientWindowToFocus]
    split
    · exact ⟨_, rfl⟩
    · split
      · exact ⟨_, rfl⟩
      · split
        · exact ⟨_, rfl⟩
        · split <;> exact ⟨_, rfl⟩

theorem SetPreferredTransientWindowToFocus_gentle (win : Option XWindow) :
    Gentle fun toplevel => toplevel.SetPreferredTransientWindowToFocus win := by
  refine ⟨⟨?_, ?_, ?_, ?_, ?_, ?_⟩, ?_⟩ <;> intro toplevel <;>
    obtain ⟨focus, same⟩ := SetPreferredTransientWindowToFocus_eq toplevel win <;> simp only [same]

theorem HandleButtonPress_gentle (xid : XWindow) :
    Gentle fun toplevel => toplevel.HandleButtonPress xid := by
  refine ⟨⟨?_, ?_, ?_, ?_, ?_, ?_⟩, ?_⟩ <;> intro toplevel
  · exact ((SetPreferredTransientWindowToFocus_gentle _).comp TakeFocus_gentle).sameAddress toplevel
  · exact ((SetPreferredTransientWindowToFocus_gentle _).comp TakeFocus_gentle).xid toplevel
  · exact ((SetPreferredTransientWindowToFocus_gentle _).comp TakeFocus_gentle).input_xid_ toplevel
  · exact ((SetPreferredTransientWindowToFocus_gentle _).comp TakeFocus_gentle).state_ toplevel
  · exact ((SetPreferredTransientWindowToFocus_gentle _).comp TakeFocus_gentle).client_x toplevel
  · exact ((SetPreferredTransientWindowToFocus_gentle _).comp TakeFocus_gentle).client_y toplevel
  · exact ((SetPreferredTransientWindowToFocus_gentle _).comp TakeFocus_gentle).transients_ toplevel

theorem ConfigureForActiveMode_keys (toplevel : ToplevelWindow) (area : Area) (active update_focus : Bool) :
    (toplevel.ConfigureForActiveMode area active update_focus).keys = toplevel.keys := by
  rw [ToplevelWindow.ConfigureForActiveMode]
  cases active with
  | false => rfl
  | true =>
    cases update_focus with
    | false => rfl
    | true => exact TakeFocus_gentle.keys _

theorem ConfigureForActiveMode_shownIn (toplevel : ToplevelWindow) (area : Area) (active : ℕ)
    (update_focus : Bool) :
    ShownIn area active
      (toplevel.ConfigureForActiveMode area (some toplevel.address == some active) update_focus) := by
  have address := congrArg WindowKeys.address
    (ConfigureForActiveMode_keys toplevel area (some toplevel.address == some active) update_focus)
  simp only [ToplevelWindow.keys] at address
  rw [ShownIn, address]
  split
  · next same => rw [same, beq_self_eq_true]; rfl
  · next other =>
    rw [beq_eq_false_iff_ne.mpr fun same => other (Option.some.inj same)]
    exact ⟨rfl, rfl, rfl⟩

theorem layoutActive_same (manager : LayoutManager) (update_focus : Bool) :
    SameWindows manager (manager.LayoutToplevelWindowsForActiveMode update_focus) := by
  rw [LayoutToplevelWindowsForActiveMode]
  split
  · exact .refl manager
  · refine ⟨?_, rfl, rfl, rfl, rfl, rfl, rfl, rfl⟩
    rw [windows, windows, List.map_map]
    exact List.map_congr_left fun toplevel _ => ConfigureForActiveMode_keys toplevel _ _ _

/-- Laying out the windows for active mode leaves them laid out, whatever they were before. -/
theorem layoutActive_laid (addressed : manager.Addressed) (update_focus : Bool) :
    (manager.LayoutToplevelWindowsForActiveMode update_focus).Laid := by
  have laidOut := layoutActive_same manager update_focus
  have first : manager.Refers (manager.addressAt 0) := addressAt_refers 0
  intro _ some
  have nonempty : manager.toplevels_ ≠ [] := by
    intro empty
    rw [LayoutToplevelWindowsForActiveMode, if_pos empty] at some
    exact some empty
  obtain ⟨active, found⟩ : ∃ active, manager.active_toplevel_.or (manager.addressAt 0) = Option.some active := by
    obtain ⟨active, found⟩ : ∃ active, manager.addressAt 0 = Option.some active :=
      addressAt_isSome ⟨le_refl 0, Int.natCast_pos.mpr (List.length_pos_iff.mpr nonempty)⟩
    cases manager.active_toplevel_ with
    | none => exact ⟨active, found⟩
    | some active => exact ⟨active, rfl⟩
  have present := addressed.active.or first active found
  rw [← laidOut.addresses] at present
  rw [LayoutToplevelWindowsForActiveMode, if_neg nonempty] at present ⊢
  refine ⟨active, found, present, ?_⟩
  intro toplevel inside
  obtain ⟨original, member, rfl⟩ := List.mem_map.mp inside
  simp only [found]
  exact ConfigureForActiveMode_shownIn original manager.area active update_focus

theorem relaid (same : SameWindows manager middle) (addressed : middle.Addressed) (update_focus : Bool) :
    Kept manager (middle.LayoutToplevelWindowsForActiveMode update_focus) := by
  have laidOut := layoutActive_same middle update_focus
  have first : middle.Refers (middle.addressAt 0) := addressAt_refers 0
  refine ⟨same.trans laidOut, ?_, fun _ => layoutActive_laid addressed update_focus⟩
  refine laidOut.addressed addressed ?_ ?_ ?_ <;> rw [LayoutToplevelWindowsForActiveMode] <;> split
  · exact addressed.active
  · exact addressed.active.or first
  · exact addressed.magnified
  · exact addressed.magnified
  · exact addressed.under
  · exact addressed.under

theorem ConfigureForOverviewMode_keys (toplevel : ToplevelWindow) (area : Area) (magnified : Bool) :
    (toplevel.ConfigureForOverviewMode area magnified).keys = toplevel.keys :=
  rfl

/-- Laying out the windows for overview mode. -/
theorem overviewed (same : SameWindows manager middle) (addressed : middle.Addressed)
    (overview : middle.mode_ = .MODE_OVERVIEW) :
    ∃ next, middle.LayoutToplevelWindowsForOverviewMode = some next ∧ Kept manager next := by
  have usable := usable_iff.mpr addressed.magnified
  refine ⟨_, by rw [LayoutToplevelWindowsForOverviewMode, usable]; rfl, ?_⟩
  have laidOut : SameWindows middle { middle with
      toplevels_ := middle.toplevels_.map fun toplevel => toplevel.ConfigureForOverviewMode middle.area
        (some toplevel.address == middle.magnified_toplevel_) } := by
    refine ⟨?_, rfl, rfl, rfl, rfl, rfl, rfl, rfl⟩
    rw [windows, windows, List.map_map]
    exact List.map_congr_left fun toplevel _ => ConfigureForOverviewMode_keys toplevel _ _
  refine ⟨same.trans laidOut, ?_, ?_⟩
  · exact laidOut.addressed addressed addressed.active addressed.magnified addressed.under
  · intro _ active
    rw [overview] at active
    cases active

/-- Activating a window lays out all of them, unless it is active. -/
theorem SetActiveToplevelWindow_spec (addressed : manager.Addressed) (present : address ∈ manager.addresses)
    (state_for_new_win state_for_old_win : ToplevelState) :
    ∃ next, manager.SetActiveToplevelWindow address state_for_new_win state_for_old_win = some next ∧
      Kept manager next ∧ (manager.active_toplevel_ ≠ some address → next.Laid) := by
  have restate (state : ToplevelState) (toplevel : ToplevelWindow) :
      { toplevel with state_ := state }.keys = toplevel.keys := rfl
  rw [SetActiveToplevelWindow]
  split
  · next idle =>
    refine ⟨manager, rfl, .refl addressed, fun other mode => ?_⟩
    exact absurd idle (not_or.mpr ⟨not_not.mpr mode, other⟩)
  · obtain ⟨middle, left, same, magnified, under⟩ : ∃ middle,
        manager.setStateForOldWin state_for_old_win = some middle ∧ SameWindows manager middle ∧
          middle.magnified_toplevel_ = manager.magnified_toplevel_ ∧
          middle.toplevel_under_floating_tab_ = manager.toplevel_under_floating_tab_ := by
      rw [setStateForOldWin]
      split
      · next old active =>
        obtain ⟨middle, left, same, -, -, references⟩ := call_same (restate _) (addressed.active old active)
        exact ⟨middle, left, same, references⟩
      · exact ⟨manager, rfl, .refl manager, rfl, rfl⟩
    rw [← same.addresses] at present
    obtain ⟨last, entered, again, -, -, magnified', under'⟩ :=
      call_same (restate state_for_new_win) present
    have whole : SameWindows manager { last with active_toplevel_ := some address } :=
      (same.trans again).trans ⟨rfl, rfl, rfl, rfl, rfl, rfl, rfl, rfl⟩
    have lastAddressed : Addressed { last with active_toplevel_ := some address } := by
      refine whole.addressed addressed (.some (same.addresses ▸ present)) ?_ ?_
      · rw [magnified', magnified]
        exact addressed.magnified
      · rw [under', under]
        exact addressed.under
    refine ⟨_, by rw [left, Option.bind_eq_bind, Option.bind_some, entered]; rfl, ?_, fun _ => ?_⟩
    · exact relaid whole lastAddressed true
    · exact layoutActive_laid lastAddressed true

theorem SetActiveToplevelWindow_kept (addressed : manager.Addressed) (present : address ∈ manager.addresses)
    (state_for_new_win state_for_old_win : ToplevelState) :
    ∃ next, manager.SetActiveToplevelWindow address state_for_new_win state_for_old_win = some next ∧
      Kept manager next := by
  obtain ⟨next, taken, kept, -⟩ :=
    SetActiveToplevelWindow_spec addressed present state_for_new_win state_for_old_win
  exact ⟨next, taken, kept⟩

/-- What is known to succeed is known of its result. -/
theorem Kept.of_exists {operation : Option LayoutManager}
    (known : ∃ next, operation = some next ∧ Kept manager next) (taken : operation = some next) :
    Kept manager next := by
  obtain ⟨other, same, kept⟩ := known
  exact Option.some.inj (same.symm.trans taken) ▸ kept

/-- In overview mode, a step may change any reference. -/
theorem kept_in_overview (addressed : manager.Addressed) (overview : manager.mode_ = .MODE_OVERVIEW)
    {active magnified under : Option ℕ} (activeRefers : manager.Refers active)
    (magnifiedRefers : manager.Refers magnified) (underRefers : manager.Refers under) :
    Kept manager
      { manager with
        active_toplevel_ := active
        magnified_toplevel_ := magnified
        toplevel_under_floating_tab_ := under } := by
  have same : SameWindows manager
      { manager with
        active_toplevel_ := active
        magnified_toplevel_ := magnified
        toplevel_under_floating_tab_ := under } :=
    ⟨rfl, rfl, rfl, rfl, rfl, rfl, rfl, rfl⟩
  refine ⟨same, same.addressed addressed activeRefers magnifiedRefers underRefers, ?_⟩
  intro _ mode
  rw [show manager.mode_ = .MODE_ACTIVE from mode] at overview
  cases overview

/-- A step may change what is not about toplevel windows. -/
theorem kept_of_others (addressed : manager.Addressed) (floating_tab tab_summary create : Option XWindow)
    (coalescer : MotionEventCoalescer) (focused : List XWindow) :
    Kept manager
      { manager with
        floating_tab_ := floating_tab
        tab_summary_ := tab_summary
        create_browser_window_ := create
        floating_tab_event_coalescer_ := coalescer
        focused := focused } := by
  have same : SameWindows manager
      { manager with
        floating_tab_ := floating_tab
        tab_summary_ := tab_summary
        create_browser_window_ := create
        floating_tab_event_coalescer_ := coalescer
        focused := focused } :=
    ⟨rfl, rfl, rfl, rfl, rfl, rfl, rfl, rfl⟩
  exact ⟨same, same.addressed addressed addressed.active addressed.magnified addressed.under, id⟩

/-- A step that changes references only, but not the active one. -/
theorem kept_of_references (addressed : manager.Addressed) {magnified under : Option ℕ}
    (magnifiedRefers : manager.Refers magnified) (underRefers : manager.Refers under) :
    Kept manager
      { manager with magnified_toplevel_ := magnified, toplevel_under_floating_tab_ := under } := by
  have same : SameWindows manager
      { manager with magnified_toplevel_ := magnified, toplevel_under_floating_tab_ := under } :=
    ⟨rfl, rfl, rfl, rfl, rfl, rfl, rfl, rfl⟩
  exact ⟨same, same.addressed addressed addressed.active magnifiedRefers underRefers, id⟩

theorem mode_overview (inactive : manager.mode_ ≠ .MODE_ACTIVE) : manager.mode_ = .MODE_OVERVIEW := by
  cases mode : manager.mode_ with
  | MODE_ACTIVE => exact absurd mode inactive
  | MODE_OVERVIEW => rfl

section Configuration

variable (configuration : LayoutConfiguration)

theorem SetMagnifiedToplevelWindow_eq (magnified : manager.Refers manager.magnified_toplevel_)
    (reference : Option ℕ) :
    manager.SetMagnifiedToplevelWindow configuration reference =
      some { manager with magnified_toplevel_ := reference } := by
  rw [SetMagnifiedToplevelWindow]
  split
  · next same => rw [← same]
  · rw [usable_iff.mpr magnified, Bool.not_true, Bool.and_false, if_neg Bool.false_ne_true]

/-- A change of references and of the mode. -/
theorem same_of_references (mode : Mode) (active magnified under : Option ℕ) :
    SameWindows manager { manager with
      mode_ := mode
      active_toplevel_ := active
      magnified_toplevel_ := magnified
      toplevel_under_floating_tab_ := under } :=
  ⟨rfl, rfl, rfl, rfl, rfl, rfl, rfl, rfl⟩

theorem leaveOverviewMode_eq (magnified : manager.Refers manager.magnified_toplevel_) :
    ∃ reference, manager.Refers reference ∧
      manager.leaveOverviewMode configuration = some { manager with magnified_toplevel_ := reference } := by
  rw [leaveOverviewMode]
  split
  · exact ⟨manager.magnified_toplevel_, magnified, rfl⟩
  · exact ⟨none, .none, SetMagnifiedToplevelWindow_eq configuration magnified none⟩

theorem setActiveMode_kept (addressed : manager.Addressed) :
    ∃ next, manager.setActiveMode configuration = some next ∧ Kept manager next := by
  rw [setActiveMode]
  generalize chosen : (if (configuration.lm_new_overview_mode || manager.active_toplevel_.isNone) &&
    manager.magnified_toplevel_.isSome then manager.magnified_toplevel_
    else manager.active_toplevel_) = active
  have refers : manager.Refers (active.or (manager.addressAt 0)) := by
    refine .or ?_ (addressAt_refers 0)
    rw [← chosen]
    split
    · exact addressed.magnified
    · exact addressed.active
  obtain ⟨reference, magnified, left⟩ := leaveOverviewMode_eq configuration
    (show Refers { manager with mode_ := .MODE_ACTIVE, active_toplevel_ := active.or (manager.addressAt 0) }
      manager.magnified_toplevel_ from addressed.magnified)
  refine ⟨_, by rw [left]; rfl, relaid (same_of_references _ _ _ _) ?_ true⟩
  exact (same_of_references _ _ _ _).addressed addressed refers magnified addressed.under

theorem setOverviewMode_kept (addressed : manager.Addressed) :
    ∃ next, manager.setOverviewMode configuration = some next ∧ Kept manager next := by
  rw [setOverviewMode]
  generalize chosen : (if configuration.lm_new_overview_mode then manager.active_toplevel_ else none) = magnified
  have refers : manager.Refers magnified := by
    rw [← chosen]
    split
    · exact addressed.active
    · exact .none
  have changed : Addressed { manager with mode_ := .MODE_OVERVIEW, magnified_toplevel_ := magnified } :=
    (same_of_references _ _ _ _).addressed addressed addressed.active refers addressed.under
  obtain ⟨next, laidOut, kept⟩ := overviewed (same_of_references _ _ _ _) changed rfl
  refine ⟨next, ?_, kept⟩
  rw [SetMagnifiedToplevelWindow_eq configuration
      (show Refers { manager with mode_ := .MODE_OVERVIEW } manager.magnified_toplevel_ from
        addressed.magnified),
    Option.bind_eq_bind, Option.bind_some, usable_iff.mpr changed.active]
  exact laidOut

theorem SetMode_kept (addressed : manager.Addressed) (mode : Mode) :
    ∃ next, manager.SetMode configuration mode = some next ∧ Kept manager next := by
  cases mode with
  | MODE_ACTIVE => exact setActiveMode_kept configuration addressed
  | MODE_OVERVIEW => exact setOverviewMode_kept configuration addressed

theorem SwitchToActiveMode_kept (addressed : manager.Addressed) (activate_magnified_win : Bool) :
    ∃ next, manager.SwitchToActiveMode configuration activate_magnified_win = some next ∧
      Kept manager next := by
  rw [SwitchToActiveMode]
  split
  · exact ⟨manager, rfl, .refl addressed⟩
  · next inactive =>
    split
    · have changed := kept_in_overview addressed (mode_overview inactive) addressed.magnified addressed.magnified
        addressed.under
      obtain ⟨next, switched, kept⟩ := SetMode_kept configuration changed.addressed .MODE_ACTIVE
      exact ⟨next, switched, changed.trans kept⟩
    · exact SetMode_kept configuration addressed .MODE_ACTIVE

theorem magnified_kept (addressed : manager.Addressed) (overview : manager.mode_ = .MODE_OVERVIEW)
    (refers : manager.Refers reference) :
    ∃ next, (do
        let manager ← manager.SetMagnifiedToplevelWindow configuration reference
        manager.LayoutToplevelWindowsForOverviewMode) = some next ∧ Kept manager next := by
  have changed := kept_of_references addressed refers addressed.under
  obtain ⟨next, laidOut, kept⟩ := overviewed changed.toSameWindows changed.addressed overview
  refine ⟨next, ?_, kept⟩
  rw [SetMagnifiedToplevelWindow_eq configuration addressed.magnified]
  exact laidOut

theorem ActivateToplevelWindowByIndex_kept (addressed : manager.Addressed) (index : ℤ) :
    ∃ next, manager.ActivateToplevelWindowByIndex index = some next ∧ Kept manager next := by
  rw [ActivateToplevelWindowByIndex]
  split
  · exact ⟨manager, rfl, .refl addressed⟩
  · split
    · exact ⟨manager, rfl, .refl addressed⟩
    · next address found =>
      split
      · exact ⟨manager, rfl, .refl addressed⟩
      · exact SetActiveToplevelWindow_kept addressed (addressAt_refers index address found) _ _

theorem MagnifyToplevelWindowByIndex_kept (addressed : manager.Addressed) (index : ℤ) :
    ∃ next, manager.MagnifyToplevelWindowByIndex configuration index = some next ∧ Kept manager next := by
  rw [MagnifyToplevelWindowByIndex]
  split
  · exact ⟨manager, rfl, .refl addressed⟩
  · next some =>
    split
    · exact ⟨manager, rfl, .refl addressed⟩
    · next address found =>
      split
      · exact ⟨manager, rfl, .refl addressed⟩
      · exact magnified_kept configuration addressed (not_not.mp (not_or.mp some).2)
          (.some (addressAt_refers index address found))

theorem addressAt_emod (nonempty : manager.toplevels_ ≠ []) (index : ℤ) :
    ∃ address, manager.addressAt (index % manager.toplevels_.length) = some address := by
  have positive : (0 : ℤ) < manager.toplevels_.length :=
    Int.natCast_pos.mpr (List.length_pos_iff.mpr nonempty)
  exact addressAt_isSome ⟨Int.emod_nonneg _ positive.ne', Int.emod_lt_of_pos _ positive⟩

theorem neighbour_spec (nonempty : manager.toplevels_ ≠ []) (address : ℕ) (forward : Bool) :
    ∃ neighbour, manager.neighbour address forward = some neighbour ∧ neighbour ∈ manager.addresses := by
  obtain ⟨neighbour, found⟩ := addressAt_emod nonempty
    (manager.toplevels_.length + manager.GetIndexForToplevelWindow address + (if forward then 1 else -1))
  exact ⟨neighbour, found, addressAt_refers _ neighbour found⟩

theorem cycleTarget_spec (nonempty : manager.toplevels_ ≠ []) (forward : Bool) :
    ∃ address, manager.cycleTarget forward = some address ∧ address ∈ manager.addresses := by
  rw [cycleTarget]
  split
  · have positive := List.length_pos_iff.mpr nonempty
    obtain ⟨address, found⟩ : ∃ address, manager.addressAt (if forward then 0 else -1) = some address := by
      cases forward with
      | true => exact addressAt_isSome ⟨le_refl 0, Int.natCast_pos.mpr positive⟩
      | false =>
        obtain ⟨address, found⟩ : ∃ address, manager.addressAt (manager.toplevels_.length - 1 : ℤ) = some address :=
          addressAt_isSome (by omega)
        refine ⟨address, ?_⟩
        rw [addressAt] at found ⊢
        have last : ¬ ((manager.toplevels_.length : ℤ) - 1 < 0) := by omega
        simpa [last, ← sub_eq_add_neg] using found
    exact ⟨address, found, addressAt_refers _ address found⟩
  · exact neighbour_spec nonempty _ forward

theorem CycleActiveToplevelWindow_kept (addressed : manager.Addressed) (forward : Bool) :
    ∃ next, manager.CycleActiveToplevelWindow forward = some next ∧ Kept manager next := by
  rw [CycleActiveToplevelWindow]
  split
  · exact ⟨manager, rfl, .refl addressed⟩
  · next some =>
    split
    · exact ⟨manager, rfl, .refl addressed⟩
    · obtain ⟨address, found, present⟩ := cycleTarget_spec (not_or.mp some).2 forward
      rw [found, Option.bind_eq_bind, Option.bind_some]
      exact SetActiveToplevelWindow_kept addressed present _ _

theorem magnifyNext_eq (addressed : manager.Addressed) (nonempty : manager.toplevels_ ≠ [])
    (forward : Bool) :
    ∃ reference, manager.Refers reference ∧ manager.magnifyNext configuration forward =
      some { manager with magnified_toplevel_ := reference } := by
  rw [magnifyNext]
  split
  · exact ⟨_, addressAt_refers 0, SetMagnifiedToplevelWindow_eq configuration addressed.magnified _⟩
  · next old found =>
    have present := addressed.magnified.or addressed.active old found
    obtain ⟨address, neighbour, member⟩ :=
      neighbour_spec (show { manager with magnified_toplevel_ := some old }.toplevels_ ≠ [] from nonempty) old
        forward
    refine ⟨some address, .some member, ?_⟩
    dsimp only
    rw [neighbour, Option.bind_eq_bind, Option.bind_some]
    exact SetMagnifiedToplevelWindow_eq configuration
      (show Refers { manager with magnified_toplevel_ := some old } (some old) from .some present) _

theorem CycleMagnifiedToplevelWindow_kept (addressed : manager.Addressed) (forward : Bool) :
    ∃ next, manager.CycleMagnifiedToplevelWindow configuration forward = some next ∧ Kept manager next := by
  rw [CycleMagnifiedToplevelWindow]
  split
  · exact ⟨manager, rfl, .refl addressed⟩
  · next some =>
    obtain ⟨overview, nonempty⟩ := not_or.mp some
    split
    · exact ⟨manager, rfl, .refl addressed⟩
    · obtain ⟨reference, refers, magnified⟩ := magnifyNext_eq configuration addressed nonempty forward
      have changed := kept_of_references addressed refers addressed.under
      rw [magnified, Option.bind_eq_bind, Option.bind_some]
      exact overviewed changed.toSameWindows changed.addressed (not_not.mp overview)

theorem dockable_refers (x y : ℤ) :
    manager.Refers (manager.dockable configuration x y) := by
  intro address found
  simp only [dockable, Option.bind_eq_bind, Option.bind_eq_some_iff] at found
  obtain ⟨chosen, -, toplevel, search, found⟩ := found
  split at found
  · cases found
    exact deref_isSome.mp (Option.isSome_iff_exists.mpr ⟨toplevel, search⟩)
  · cases found

theorem MoveFloatingTab_kept (addressed : manager.Addressed) (x y : ℤ) :
    ∃ next, manager.MoveFloatingTab configuration x y = some next ∧ Kept manager next := by
  rw [MoveFloatingTab]
  split
  · exact ⟨manager, rfl, .refl addressed⟩
  · split
    · next overview =>
      rw [usable_iff.mpr addressed.magnified, usable_iff.mpr addressed.under]
      simp only [Bool.not_true, Bool.false_eq_true, if_false]
      split
      · exact ⟨manager, rfl, .refl addressed⟩
      · have docked : manager.Refers (manager.dockable configuration x y) := dockable_refers configuration x y
        have changed := kept_of_references addressed addressed.magnified docked
        obtain ⟨next, laidOut, kept⟩ := magnified_kept configuration changed.addressed overview docked
        exact ⟨next, laidOut, changed.trans kept⟩
    · split
      · exact SetMode_kept configuration addressed .MODE_OVERVIEW
      · exact ⟨manager, rfl, .refl addressed⟩

theorem handleFloatingTabTimer_kept (addressed : manager.Addressed) :
    ∃ next, manager.handleFloatingTabTimer configuration = some next ∧ Kept manager next := by
  rw [handleFloatingTabTimer]
  split
  · exact ⟨manager, rfl, .refl addressed⟩
  · next x y queued =>
    obtain ⟨moved, done, kept⟩ := MoveFloatingTab_kept configuration addressed x y
    refine ⟨_, by rw [done]; rfl, kept.trans ?_⟩
    exact kept_of_others kept.addressed _ _ _ _ _

end Configuration

end LayoutManager

end ChromiumOS.WindowManager
