import ChromiumOS.Proofs.WindowManager.LayoutSteps

/-! # Mapping and unmapping windows of the layout manager

A window that is mapped becomes a toplevel window or a transient window of one, and one that is unmapped
stops to be that. `Changed` says what is left of the windows and of the map of transient windows, and that
neither a reference nor the layout of active mode is broken by it.
-/

namespace ChromiumOS.WindowManager

/-- A window with another transient window, and without one. -/
def WindowKeys.own (keys : WindowKeys) (xid : XWindow) : WindowKeys :=
  if xid ∈ keys.transients then keys else { keys with transients := xid :: keys.transients }

def WindowKeys.disown (keys : WindowKeys) (xid : XWindow) : WindowKeys :=
  { keys with transients := keys.transients.filter fun other => other != xid }

namespace LayoutManager

variable {manager middle next : LayoutManager} {address owner : ℕ} {xid : XWindow}

/-- A step that leaves certain windows, in some order, and certain transient windows. -/
structure Changed (before after : LayoutManager) (windows : List WindowKeys)
    (transients : List (XWindow × ℕ)) : Prop where
  windows : after.windows.Perm windows
  transients : after.transient_to_toplevel_ = transients
  mapped : after.mapped = before.mapped
  area : after.area = before.area
  leftDockVisible : after.leftDockVisible = before.leftDockVisible
  rightDockVisible : after.rightDockVisible = before.rightDockVisible
  addressed : after.Addressed
  laid : before.Laid → after.Laid

theorem Kept.changed (kept : Kept manager next) :
    Changed manager next manager.windows manager.transient_to_toplevel_ :=
  ⟨.of_eq kept.windows, kept.transients, kept.mapped, kept.area, kept.leftDockVisible, kept.rightDockVisible,
    kept.addressed, kept.laid⟩

theorem Changed.then_kept {windows : List WindowKeys} {transients : List (XWindow × ℕ)}
    (changed : Changed manager middle windows transients) (kept : Kept middle next) :
    Changed manager next windows transients where
  windows := (List.Perm.of_eq kept.windows).trans changed.windows
  transients := kept.transients.trans changed.transients
  mapped := kept.mapped.trans changed.mapped
  area := kept.area.trans changed.area
  leftDockVisible := kept.leftDockVisible.trans changed.leftDockVisible
  rightDockVisible := kept.rightDockVisible.trans changed.rightDockVisible
  addressed := kept.addressed
  laid := kept.laid ∘ changed.laid

theorem Kept.then_changed {windows : List WindowKeys} {transients : List (XWindow × ℕ)}
    (kept : Kept manager middle) (changed : Changed middle next windows transients) :
    Changed manager next windows transients where
  windows := changed.windows
  transients := changed.transients
  mapped := changed.mapped.trans kept.mapped
  area := changed.area.trans kept.area
  leftDockVisible := changed.leftDockVisible.trans kept.leftDockVisible
  rightDockVisible := changed.rightDockVisible.trans kept.rightDockVisible
  addressed := changed.addressed
  laid := changed.laid ∘ kept.laid

/-! ## A new toplevel window -/

theorem filter_key_of_lookup {entries : List (XWindow × ℕ)} {key : XWindow}
    (unused : entries.lookup key = none) : erase entries key = entries := by
  rw [erase, List.filter_eq_self]
  intro entry inside
  rw [List.lookup_eq_none_iff] at unused
  have other := unused entry inside
  exact bne_iff_ne.mpr fun same => absurd same.symm (by simpa using other)

/-- What is addressed stays so when a window with a new address and a new input window comes. -/
theorem addressed_of_insert (addressed : manager.Addressed) {toplevel : ToplevelWindow}
    {toplevels : List ToplevelWindow} (inserted : toplevels.Perm (toplevel :: manager.toplevels_))
    (fresh : toplevel.address = manager.nextAddress)
    (unused : manager.GetToplevelWindowByInputXid toplevel.input_xid_ = none) :
    Addressed { manager with
      nextAddress := manager.nextAddress + 1
      input_to_toplevel_ := assign manager.input_to_toplevel_ toplevel.input_xid_ manager.nextAddress
      toplevels_ := toplevels } := by
  have windows : (toplevels.map fun toplevel => toplevel.keys).Perm (toplevel.keys :: manager.windows) :=
    inserted.map _
  have addresses : ((toplevels.map fun toplevel => toplevel.keys).map fun keys => keys.address).Perm
      (manager.nextAddress :: manager.addresses) := by
    rw [← fresh]
    exact windows.map _
  have refers {reference : Option ℕ} (refers : manager.Refers reference) :
      ∀ address, reference = some address →
        address ∈ (toplevels.map fun toplevel => toplevel.keys).map fun keys => keys.address := by
    intro address found
    exact addresses.mem_iff.mpr (List.mem_cons_of_mem _ (refers address found))
  have entries : assign manager.input_to_toplevel_ toplevel.input_xid_ manager.nextAddress =
      (toplevel.input_xid_, manager.nextAddress) :: manager.input_to_toplevel_ :=
    congrArg _ (filter_key_of_lookup unused)
  refine ⟨?_, ?_, ?_, ?_, refers addressed.active, refers addressed.magnified, refers addressed.under⟩
  · refine addresses.nodup_iff.mpr (List.nodup_cons.mpr ⟨?_, addressed.nodup⟩)
    intro old
    exact lt_irrefl _ (addressed.below _ old)
  · intro address inside
    rcases List.mem_cons.mp (addresses.mem_iff.mp inside) with rfl | old
    · exact Nat.lt_succ_self _
    · exact Nat.lt_succ_of_lt (addressed.below address old)
  · dsimp only
    rw [entries]
    refine List.Perm.trans ?_ (windows.map _).symm
    rw [List.map_cons, ← fresh]
    exact addressed.inputs.cons _
  · dsimp only
    rw [entries, List.map_cons, List.nodup_cons]
    refine ⟨?_, addressed.inputKeys⟩
    intro old
    obtain ⟨entry, inside, same⟩ := List.mem_map.mp old
    rw [GetToplevelWindowByInputXid, List.lookup_eq_none_iff] at unused
    simpa [same] using unused entry inside

theorem insertToplevel_spec (refers : manager.Refers manager.active_toplevel_) (toplevel : ToplevelWindow) :
    ∃ toplevels, manager.insertToplevel toplevel = some { manager with toplevels_ := toplevels } ∧
      toplevels.Perm (toplevel :: manager.toplevels_) := by
  rw [insertToplevel]
  split
  · next active found =>
    obtain ⟨original, inside, rfl⟩ := mem_addresses.mp (refers active found)
    have search : manager.toplevels_.findIdx? (fun toplevel => toplevel.address == original.address) ≠ none := by
      intro absent
      rw [List.findIdx?_eq_none_iff] at absent
      simpa using absent original inside
    obtain ⟨index, place⟩ := Option.ne_none_iff_exists'.mp search
    rw [GetIndexForToplevelWindow, place]
    have bound : index < manager.toplevels_.length := (List.findIdx?_eq_some_iff_getElem.mp place).1
    refine ⟨_, rfl, ?_⟩
    exact List.perm_insertIdx toplevel _ bound
  · exact ⟨_, rfl, List.perm_append_singleton toplevel _⟩

/-- The windows after the insertion of one. -/
theorem changed_of_insert {toplevel : ToplevelWindow} {toplevels : List ToplevelWindow}
    (inserted : toplevels.Perm (toplevel :: manager.toplevels_))
    (kept : Kept { manager with
      nextAddress := manager.nextAddress + 1
      input_to_toplevel_ := assign manager.input_to_toplevel_ toplevel.input_xid_ manager.nextAddress
      toplevels_ := toplevels } next)
    (laid : next.Laid) :
    Changed manager next (toplevel.keys :: manager.windows) manager.transient_to_toplevel_ :=
  ⟨(List.Perm.of_eq kept.windows).trans (inserted.map _), kept.transients, kept.mapped, kept.area,
    kept.leftDockVisible, kept.rightDockVisible, kept.addressed, fun _ => laid⟩

section Configuration

variable (configuration : LayoutConfiguration)

/-- A new toplevel window is activated in active mode, and laid out with the others in overview mode. -/
theorem mapToplevel_changed (addressed : manager.Addressed) {win : Window} {input_xid : XWindow}
    (taken : manager.mapToplevel configuration win input_xid = some next) :
    Changed manager next (⟨manager.nextAddress, win.xid, input_xid, []⟩ :: manager.windows)
      manager.transient_to_toplevel_ := by
  rw [mapToplevel] at taken
  split at taken
  · cases taken
  · next unused =>
    rw [Bool.not_eq_true, Option.isSome_eq_false_iff, Option.isNone_iff_eq_none] at unused
    dsimp only at taken
    generalize created : ToplevelWindow.new manager.nextAddress manager.area
      (configuration.GetMaxSize win.xid) win input_xid = toplevel at taken
    obtain ⟨fresh, input, keys⟩ : manager.nextAddress = toplevel.address ∧ input_xid = toplevel.input_xid_ ∧
        (⟨manager.nextAddress, win.xid, input_xid, []⟩ : WindowKeys) = toplevel.keys := by
      rw [← created]
      exact ⟨rfl, rfl, rfl⟩
    rw [keys]
    rw [input] at taken unused
    split at taken
    · rw [Option.bind_eq_bind, Option.bind_eq_some_iff] at taken
      obtain ⟨middle, inserted, taken⟩ := taken
      obtain ⟨toplevels, again, order⟩ := insertToplevel_spec
        (show Refers { manager with
          nextAddress := manager.nextAddress + 1
          input_to_toplevel_ := assign manager.input_to_toplevel_ toplevel.input_xid_ manager.nextAddress }
          manager.active_toplevel_ from addressed.active) toplevel
      obtain rfl := Option.some.inj (inserted.symm.trans again)
      have addressed' := addressed_of_insert addressed order fresh.symm unused
      have present : manager.nextAddress ∈
          (toplevels.map fun toplevel => toplevel.keys).map fun keys => keys.address := by
        rw [fresh, List.map_map]
        exact List.mem_map_of_mem (order.mem_iff.mpr List.mem_cons_self)
      obtain ⟨_, activated, kept, laid⟩ := SetActiveToplevelWindow_spec addressed' present
        .STATE_ACTIVE_MODE_IN_FROM_RIGHT .STATE_ACTIVE_MODE_OUT_TO_LEFT
      obtain rfl := Option.some.inj (activated.symm.trans taken)
      refine changed_of_insert order kept (laid fun old => ?_)
      exact lt_irrefl _ (addressed.below _ (addressed.active _ old))
    · next overview =>
      have order : (manager.toplevels_ ++ [toplevel]).Perm (toplevel :: manager.toplevels_) :=
        List.perm_append_singleton toplevel _
      obtain ⟨_, laidOut, kept⟩ :=
        overviewed (.refl _) (addressed_of_insert addressed order fresh.symm unused) overview
      obtain rfl := Option.some.inj (laidOut.symm.trans taken)
      refine changed_of_insert order kept (kept.laid ?_)
      intro active
      rw [show manager.mode_ = .MODE_ACTIVE from active] at overview
      cases overview

end Configuration

/-! ## Transient windows -/

/-- The windows after one of them is changed. -/
def changeAt (windows : List WindowKeys) (address : ℕ) (change : WindowKeys → WindowKeys) :
    List WindowKeys :=
  windows.map fun keys => if keys.address = address then change keys else keys

theorem call_windows {method : ToplevelWindow → ToplevelWindow} {change : WindowKeys → WindowKeys}
    (keys : ∀ toplevel, (method toplevel).keys = change toplevel.keys)
    (called : manager.call address method = some next) :
    next.windows = changeAt manager.windows address change := by
  obtain ⟨-, rfl⟩ := call_eq_some.mp called
  rw [changeAt, windows, windows, List.map_map, List.map_map]
  apply List.map_congr_left
  intro toplevel _
  simp only [Function.comp_apply]
  split
  · next same => rw [keys, if_pos (show toplevel.keys.address = address from same)]
  · next other => rw [if_neg (show ¬ toplevel.keys.address = address from other)]

theorem call_addressed {method : ToplevelWindow → ToplevelWindow} (steady : Steady method)
    (addressed : manager.Addressed) (called : manager.call address method = some next) :
    next.Addressed := by
  have pairs : (next.windows.map fun keys => (keys.input_xid_, keys.address)) =
      manager.windows.map fun keys => (keys.input_xid_, keys.address) := by
    obtain ⟨-, rfl⟩ := call_eq_some.mp called
    rw [windows, windows, List.map_map, List.map_map, List.map_map]
    apply List.map_congr_left
    intro toplevel _
    simp only [Function.comp_apply, ToplevelWindow.keys]
    split
    · rw [steady.input_xid_, steady.sameAddress]
    · rfl
  have addresses : next.addresses = manager.addresses := by
    have second := congrArg (List.map Prod.snd) pairs
    rwa [List.map_map, List.map_map] at second
  obtain ⟨-, rfl⟩ := call_eq_some.mp called
  refine ⟨?_, ?_, ?_, addressed.inputKeys, ?_, ?_, ?_⟩
  · rw [addresses]
    exact addressed.nodup
  · rw [addresses]
    exact addressed.below
  · rw [pairs]
    exact addressed.inputs
  · rw [Refers, addresses]
    exact addressed.active
  · rw [Refers, addresses]
    exact addressed.magnified
  · rw [Refers, addresses]
    exact addressed.under

theorem call_changed {method : ToplevelWindow → ToplevelWindow} (change : WindowKeys → WindowKeys)
    (steady : Steady method) (keys : ∀ toplevel, (method toplevel).keys = change toplevel.keys)
    (addressed : manager.Addressed) (called : manager.call address method = some next) :
    Changed manager next (changeAt manager.windows address change) manager.transient_to_toplevel_ := by
  have laid := call_laid steady called
  have addressed' := call_addressed steady addressed called
  have windows := call_windows keys called
  obtain ⟨-, rfl⟩ := call_eq_some.mp called
  exact ⟨.of_eq windows, rfl, rfl, rfl, rfl, rfl, addressed', laid⟩

/-- A new transient window changes nothing but what a toplevel window knows about its transient windows. -/
theorem AddTransientWindow_eq (toplevel : ToplevelWindow) (transient : TransientWindow) :
    ∃ transients stacked focus, toplevel.AddTransientWindow transient =
      { toplevel with
        transients_ := transients, stacked_transients_ := stacked, transient_to_focus_ := focus } ∧
      (transients.map fun other => other.xid) = (toplevel.keys.own transient.xid).transients := by
  have known : (toplevel.GetTransientWindow transient.xid).isSome = true ↔
      transient.xid ∈ toplevel.keys.transients := by
    simp [ToplevelWindow.GetTransientWindow, ToplevelWindow.keys]
  rw [ToplevelWindow.AddTransientWindow, WindowKeys.own]
  split
  · next found =>
    rw [if_pos (known.mp found)]
    exact ⟨_, _, _, rfl, rfl⟩
  · next unknown =>
    rw [if_neg fun inside => unknown (known.mpr inside)]
    dsimp only
    have preferred (stacked : Stacker TransientWindow) := SetPreferredTransientWindowToFocus_eq
      { toplevel with transients_ := transient :: toplevel.transients_, stacked_transients_ := stacked }
      (some transient.xid)
    exact ⟨transient :: toplevel.transients_, _, _, (preferred _).choose_spec, rfl⟩

theorem RemoveTransientWindow_eq (toplevel : ToplevelWindow) (xid : XWindow) :
    ∃ transients stacked focus, toplevel.RemoveTransientWindow xid =
      { toplevel with
        transients_ := transients, stacked_transients_ := stacked, transient_to_focus_ := focus } ∧
      (transients.map fun other => other.xid) = (toplevel.keys.disown xid).transients := by
  have left : ((toplevel.transients_.filter fun other => other.xid != xid).map fun other => other.xid) =
      (toplevel.keys.disown xid).transients := by
    rw [WindowKeys.disown, ToplevelWindow.keys, List.filter_map]
    rfl
  rw [ToplevelWindow.RemoveTransientWindow]
  split
  · next absent =>
    refine ⟨_, _, _, rfl, ?_⟩
    rw [← left, List.filter_eq_self.mpr]
    intro other inside
    rw [ToplevelWindow.GetTransientWindow, List.find?_eq_none] at absent
    simpa using absent other inside
  · dsimp only
    split
    · obtain ⟨focus, preferred⟩ := SetPreferredTransientWindowToFocus_eq _ _
      exact ⟨_, _, _, preferred, left⟩
    · exact ⟨_, _, _, rfl, left⟩

theorem own_fields (keys : WindowKeys) (xid : XWindow) :
    keys.own xid = { keys with transients := (keys.own xid).transients } := by
  rw [WindowKeys.own]
  split <;> rfl

theorem AddTransientWindow_steady (transient : TransientWindow) :
    Steady fun toplevel => toplevel.AddTransientWindow transient := by
  refine ⟨?_, ?_, ?_, ?_, ?_, ?_⟩ <;> intro toplevel <;>
    obtain ⟨_, _, _, same, -⟩ := AddTransientWindow_eq toplevel transient <;> simp only [same]

theorem AddTransientWindow_keys (transient : TransientWindow) (toplevel : ToplevelWindow) :
    (toplevel.AddTransientWindow transient).keys = toplevel.keys.own transient.xid := by
  obtain ⟨_, _, _, same, transients⟩ := AddTransientWindow_eq toplevel transient
  rw [own_fields, ← transients, same]
  rfl

theorem RemoveTransientWindow_steady (xid : XWindow) :
    Steady fun toplevel => toplevel.RemoveTransientWindow xid := by
  refine ⟨?_, ?_, ?_, ?_, ?_, ?_⟩ <;> intro toplevel <;>
    obtain ⟨_, _, _, same, -⟩ := RemoveTransientWindow_eq toplevel xid <;> simp only [same]

theorem RemoveTransientWindow_keys (xid : XWindow) (toplevel : ToplevelWindow) :
    (toplevel.RemoveTransientWindow xid).keys = toplevel.keys.disown xid := by
  obtain ⟨_, _, _, same, transients⟩ := RemoveTransientWindow_eq toplevel xid
  rw [same, show toplevel.keys.disown xid =
    { toplevel.keys with transients := (toplevel.keys.disown xid).transients } from rfl, ← transients]
  rfl

/-- What is addressed stays so whatever the map of transient windows is. -/
theorem Addressed.with_transients (addressed : manager.Addressed) (transients : List (XWindow × ℕ)) :
    Addressed { manager with transient_to_toplevel_ := transients } :=
  ⟨addressed.nodup, addressed.below, addressed.inputs, addressed.inputKeys, addressed.active,
    addressed.magnified, addressed.under⟩

theorem mapTransient_changed (addressed : manager.Addressed) {win : Window}
    (taken : manager.mapTransient win owner = some next) :
    Changed manager next (changeAt manager.windows owner fun keys => keys.own win.xid)
      (assign manager.transient_to_toplevel_ win.xid owner) := by
  rw [mapTransient, Option.bind_eq_bind, Option.bind_eq_some_iff] at taken
  obtain ⟨middle, called, taken⟩ := taken
  have added := call_changed (fun keys => keys.own win.xid)
    (AddTransientWindow_steady { xid := win.xid, wm_state_modal := win.wm_state_modal })
    (AddTransientWindow_keys _) (addressed.with_transients _) called
  have focused : Kept middle next := by
    split at taken
    · rw [Option.bind_eq_bind, Option.bind_eq_some_iff] at taken
      obtain ⟨toplevel, -, taken⟩ := taken
      split at taken
      · exact call_kept TakeFocus_gentle added.addressed taken
      · cases taken
        exact .refl added.addressed
    · cases taken
      exact .refl added.addressed
  have whole := added.then_kept focused
  exact ⟨whole.windows, whole.transients, whole.mapped, whole.area, whole.leftDockVisible,
    whole.rightDockVisible, whole.addressed, whole.laid⟩

theorem unmapTransient_changed (addressed : manager.Addressed)
    (found : manager.GetToplevelWindowOwningTransientWindow xid = some owner)
    (taken : manager.unmapTransient xid = some next) :
    Changed manager next (changeAt manager.windows owner fun keys => keys.disown xid)
      (erase manager.transient_to_toplevel_ xid) := by
  rw [unmapTransient, found] at taken
  simp only [Option.bind_eq_bind, Option.bind_eq_some_iff] at taken
  obtain ⟨middle, called, taken⟩ := taken
  have removed := call_changed (fun keys => keys.disown xid) (RemoveTransientWindow_steady xid)
    (RemoveTransientWindow_keys xid) addressed called
  have erased := removed.addressed.with_transients (erase middle.transient_to_toplevel_ xid)
  have focused : Kept { middle with transient_to_toplevel_ := erase middle.transient_to_toplevel_ xid }
      next := by
    split at taken
    · exact call_kept TakeFocus_gentle erased taken
    · cases taken
      exact .refl erased
  refine ⟨?_, ?_, ?_, ?_, ?_, ?_, focused.addressed, ?_⟩
  · exact (List.Perm.of_eq focused.windows).trans removed.windows
  · rw [focused.transients, removed.transients]
  · exact focused.mapped.trans removed.mapped
  · exact focused.area.trans removed.area
  · exact focused.leftDockVisible.trans removed.leftDockVisible
  · exact focused.rightDockVisible.trans removed.rightDockVisible
  · intro laid
    exact focused.laid (removed.laid laid)

/-! ## A toplevel window that goes -/

/-- A reference that is forgotten when it is to a certain window. -/
def without (address : ℕ) (reference : Option ℕ) : Option ℕ :=
  if reference = some address then none else reference

theorem without_eq_some {reference : Option ℕ} {other : ℕ} :
    without address reference = some other ↔ reference = some other ∧ other ≠ address := by
  rw [without]
  split
  · next same => simp [same, eq_comm]
  · next different =>
    constructor
    · intro found
      refine ⟨found, ?_⟩
      rintro rfl
      exact different found
    · exact fun found => found.1

theorem forget_eq (configuration : LayoutConfiguration) (addressed : manager.Addressed) (address : ℕ) :
    manager.forget configuration address = some { manager with
      magnified_toplevel_ := without address manager.magnified_toplevel_
      active_toplevel_ := without address manager.active_toplevel_
      toplevel_under_floating_tab_ := without address manager.toplevel_under_floating_tab_ } := by
  have unmagnified : manager.unmagnify configuration address =
      some { manager with magnified_toplevel_ := without address manager.magnified_toplevel_ } := by
    rw [unmagnify, without]
    split
    · exact SetMagnifiedToplevelWindow_eq configuration addressed.magnified none
    · rfl
  rw [forget, unmagnified]
  rfl

theorem deref_split (present : address ∈ manager.addresses) :
    ∃ left toplevel right, manager.toplevels_ = left ++ toplevel :: right ∧ toplevel.address = address ∧
      manager.deref address = some toplevel ∧ manager.GetIndexForToplevelWindow address = left.length := by
  obtain ⟨toplevel, found⟩ := Option.isSome_iff_exists.mp (deref_isSome.mpr present)
  obtain ⟨same, left, right, whole, before⟩ := List.find?_eq_some_iff_append.mp found
  refine ⟨left, toplevel, right, whole, eq_of_beq same, found, ?_⟩
  have place : manager.toplevels_.findIdx? (fun toplevel => toplevel.address == address) =
      some left.length := by
    rw [whole, List.findIdx?_append, List.findIdx?_eq_none_iff.mpr, List.findIdx?_cons, if_pos same]
    · simp
    · intro other inside
      simpa using before other inside
  rw [GetIndexForToplevelWindow, place]

/-- The layout manager with other windows, and without what it knows about a window. -/
def dropped (manager : LayoutManager) (toplevel : ToplevelWindow) (toplevels : List ToplevelWindow) :
    LayoutManager :=
  { manager with
    magnified_toplevel_ := without toplevel.address manager.magnified_toplevel_
    active_toplevel_ := without toplevel.address manager.active_toplevel_
    toplevel_under_floating_tab_ := without toplevel.address manager.toplevel_under_floating_tab_
    input_to_toplevel_ := erase manager.input_to_toplevel_ toplevel.input_xid_
    toplevels_ := toplevels }

theorem addressed_of_erase (addressed : manager.Addressed) {left right : List ToplevelWindow}
    {toplevel : ToplevelWindow} (whole : manager.toplevels_ = left ++ toplevel :: right) :
    (manager.dropped toplevel (left ++ right)).Addressed := by
  have windows : manager.windows.Perm
      (toplevel.keys :: (left ++ right).map fun toplevel => toplevel.keys) := by
    rw [LayoutManager.windows, whole]
    exact List.perm_middle.map _
  have addresses : manager.addresses.Perm
      (toplevel.address :: ((left ++ right).map fun toplevel => toplevel.keys).map fun keys => keys.address) :=
    windows.map _
  have nodup := List.nodup_cons.mp (addresses.nodup_iff.mp addressed.nodup)
  have entries := addressed.inputs.trans (windows.map fun keys => (keys.input_xid_, keys.address))
  have inputKeys := (entries.map Prod.fst).nodup_iff.mp addressed.inputKeys
  rw [List.map_cons, List.map_cons, List.nodup_cons] at inputKeys
  have refers {reference : Option ℕ} (refers : manager.Refers reference) :
      ∀ address, without toplevel.address reference = some address →
        address ∈ ((left ++ right).map fun toplevel => toplevel.keys).map fun keys => keys.address := by
    intro address found
    obtain ⟨found, other⟩ := without_eq_some.mp found
    exact (List.mem_cons.mp (addresses.mem_iff.mp (refers address found))).resolve_left other
  refine ⟨nodup.2, ?_, ?_, ?_, refers addressed.active, refers addressed.magnified, refers addressed.under⟩
  · intro address inside
    exact addressed.below address (addresses.mem_iff.mpr (List.mem_cons_of_mem _ inside))
  · refine (entries.filter _).trans (.of_eq ?_)
    rw [List.map_cons, List.filter_cons_of_neg (by simp [ToplevelWindow.keys])]
    refine List.filter_eq_self.mpr fun entry inside => bne_iff_ne.mpr fun same => inputKeys.1 ?_
    exact List.mem_map.mpr ⟨entry, inside, same⟩
  · exact addressed.inputKeys.sublist (List.filter_sublist.map _)

/-- When the active window is gone another one is activated. -/
theorem activateReplacement_kept (addressed : manager.Addressed) (index : ℤ) :
    ∃ next, manager.activateReplacement index = some next ∧ Kept manager next ∧
      (manager.active_toplevel_ = none → next.Laid) := by
  rw [activateReplacement]
  split
  · next idle =>
    refine ⟨manager, rfl, .refl addressed, fun inactive _ some => ?_⟩
    rw [inactive] at idle
    exact absurd (idle.resolve_left (by simp)) some
  · next idle =>
    obtain ⟨-, nonempty⟩ := not_or.mp idle
    obtain ⟨address, found⟩ := addressAt_emod nonempty (index + manager.toplevels_.length - 1)
    obtain ⟨next, activated, kept, laid⟩ := SetActiveToplevelWindow_spec addressed
      (addressAt_refers _ address found) .STATE_ACTIVE_MODE_IN_FROM_LEFT .STATE_ACTIVE_MODE_OUT_TO_RIGHT
    refine ⟨next, ?_, kept, fun inactive => laid ?_⟩
    · dsimp only
      rw [found]
      exact activated
    · rw [inactive]
      exact Option.some_ne_none address ∘ Eq.symm

/-- The windows that stay are laid out as before, if the active one stays. -/
theorem laid_of_erase {left right : List ToplevelWindow} {toplevel : ToplevelWindow}
    (whole : manager.toplevels_ = left ++ toplevel :: right)
    (addressed : (manager.dropped toplevel (left ++ right)).Addressed)
    (stays : without toplevel.address manager.active_toplevel_ ≠ none) (laid : manager.Laid) :
    (manager.dropped toplevel (left ++ right)).Laid := by
  intro mode _
  obtain ⟨active, found, -, shown⟩ := laid mode (by simp [whole])
  obtain ⟨chosen, same⟩ := Option.ne_none_iff_exists'.mp stays
  obtain rfl := Option.some.inj ((without_eq_some.mp same).1.symm.trans found)
  refine ⟨chosen, same, addressed.active chosen same, fun other inside => shown other ?_⟩
  rw [whole]
  exact List.mem_append.mpr ((List.mem_append.mp inside).imp_right (List.mem_cons_of_mem _))

/-- The rest of unmapping a toplevel window, when it is no longer known. -/
theorem dropped_changed {left right : List ToplevelWindow} {toplevel : ToplevelWindow}
    (whole : manager.toplevels_ = left ++ toplevel :: right)
    (addressed : (manager.dropped toplevel (left ++ right)).Addressed) (index : ℤ) :
    ∃ next, (if manager.mode_ = .MODE_OVERVIEW then
        (manager.dropped toplevel (left ++ right)).LayoutToplevelWindowsForOverviewMode
      else (manager.dropped toplevel (left ++ right)).activateReplacement index) = some next ∧
      Changed manager next ((left ++ right).map fun toplevel => toplevel.keys)
        manager.transient_to_toplevel_ := by
  suffices rest : ∃ next, (if manager.mode_ = .MODE_OVERVIEW then
        (manager.dropped toplevel (left ++ right)).LayoutToplevelWindowsForOverviewMode
      else (manager.dropped toplevel (left ++ right)).activateReplacement index) = some next ∧
      Kept (manager.dropped toplevel (left ++ right)) next ∧ (manager.Laid → next.Laid) by
    obtain ⟨next, taken, kept, laid⟩ := rest
    exact ⟨next, taken, .of_eq kept.windows, kept.transients, kept.mapped, kept.area, kept.leftDockVisible,
      kept.rightDockVisible, kept.addressed, laid⟩
  split
  · next overview =>
    obtain ⟨next, laidOut, kept⟩ := overviewed (.refl _) addressed overview
    refine ⟨next, laidOut, kept, fun _ => kept.laid fun active => ?_⟩
    rw [show manager.mode_ = .MODE_ACTIVE from active] at overview
    cases overview
  · obtain ⟨next, activated, kept, replaced⟩ := activateReplacement_kept addressed index
    refine ⟨next, activated, kept, fun laid => ?_⟩
    by_cases stays : without toplevel.address manager.active_toplevel_ = none
    · exact replaced stays
    · exact kept.laid (laid_of_erase whole addressed stays laid)

/-- A toplevel window that is unmapped is removed, whatever transient windows it has. -/
theorem unmapToplevel_changed (configuration : LayoutConfiguration) (addressed : manager.Addressed)
    (found : manager.GetToplevelWindowByWindow xid = some address) :
    ∃ next toplevel rest, manager.unmapToplevel configuration xid = some next ∧
      toplevel ∈ manager.toplevels_ ∧ toplevel.address = address ∧ toplevel.win_.xid = xid ∧
      manager.windows.Perm (toplevel.keys :: rest) ∧
      Changed manager next rest manager.transient_to_toplevel_ := by
  obtain ⟨left, toplevel, right, whole, rfl, dereferenced, index⟩ :=
    deref_split (GetToplevelWindowByWindow_refers xid address found)
  have inside : toplevel ∈ manager.toplevels_ := by simp [whole]
  have named : toplevel.win_.xid = xid := by
    obtain ⟨original, search, same⟩ := Option.map_eq_some_iff.mp found
    obtain rfl := addressed.eq_of_address (List.mem_of_find?_eq_some search) inside same
    simpa using List.find?_some search
  have known : manager.GetToplevelWindowByInputXid toplevel.input_xid_ ≠ none := by
    intro unknown
    rw [GetToplevelWindowByInputXid, List.lookup_eq_none_iff] at unknown
    have entry := addressed.inputs.mem_iff.mpr
      (List.mem_map_of_mem (List.mem_map_of_mem inside (f := fun toplevel => toplevel.keys)))
    simpa [ToplevelWindow.keys] using unknown _ entry
  obtain ⟨next, taken, changed⟩ :=
    dropped_changed whole (addressed_of_erase addressed whole) left.length
  refine ⟨next, toplevel, _, ?_, inside, rfl, named, ?_, changed⟩
  · rw [unmapToplevel, found]
    simp only [forget_eq configuration addressed, Option.bind_eq_bind, Option.bind_some]
    refine Option.bind_eq_some_iff.mpr ⟨toplevel, dereferenced, (if_neg ?_).trans ?_⟩
    · rw [Option.isNone_iff_eq_none]
      exact known
    · have erased : manager.toplevels_.eraseIdx left.length = left ++ right := by
        rw [whole, List.eraseIdx_append_of_length_le (le_refl _), Nat.sub_self, List.eraseIdx_cons_zero]
      change (if manager.mode_ = .MODE_OVERVIEW then
          (manager.dropped toplevel (manager.toplevels_.eraseIdx
            (manager.GetIndexForToplevelWindow toplevel.address).toNat)).LayoutToplevelWindowsForOverviewMode
        else (manager.dropped toplevel (manager.toplevels_.eraseIdx
          (manager.GetIndexForToplevelWindow toplevel.address).toNat)).activateReplacement
            (manager.GetIndexForToplevelWindow toplevel.address)) = some next
      rw [index, Int.toNat_natCast, erased]
      exact taken
  · rw [windows, whole]
    exact List.perm_middle.map _

/-! ## The handlers -/

/-- The layout manager is asked for a layout of overview mode only in that mode. -/
theorem layoutOverview_kept (addressed : manager.Addressed) :
    ∃ next, (if manager.mode_ = .MODE_OVERVIEW then manager.LayoutToplevelWindowsForOverviewMode
      else some manager) = some next ∧ Kept manager next := by
  split
  · next overview => exact overviewed (.refl manager) addressed overview
  · exact ⟨manager, rfl, .refl addressed⟩

/-- A window that is mapped is noted, or it becomes a transient window or a toplevel window. -/
theorem HandleWindowMap_cases (configuration : LayoutConfiguration) (addressed : manager.Addressed)
    {win : Window} {input_xid : XWindow}
    (taken : manager.HandleWindowMap configuration win input_xid = some next) :
    Kept manager next ∨
      (∃ owner ∈ manager.addresses,
        Changed manager next (changeAt manager.windows owner fun keys => keys.own win.xid)
          (assign manager.transient_to_toplevel_ win.xid owner)) ∨
      Changed manager next (⟨manager.nextAddress, win.xid, input_xid, []⟩ :: manager.windows)
        manager.transient_to_toplevel_ := by
  rw [HandleWindowMap] at taken
  split at taken
  · split at taken
    · cases taken
      exact .inl (kept_of_others addressed _ _ _ _ _)
    · cases taken
      exact .inl (.refl addressed)
  · split at taken
    · cases taken
      exact .inl (.refl addressed)
    · split at taken
      · cases taken
        exact .inl (kept_of_others addressed _ _ _ _ _)
      · cases taken
        exact .inl (kept_of_others addressed _ _ _ _ _)
      · have noted := kept_of_others addressed manager.floating_tab_ manager.tab_summary_ (some win.xid)
          manager.floating_tab_event_coalescer_ manager.focused
        exact .inl (noted.trans (.of_exists (layoutOverview_kept noted.addressed) taken))
      · split at taken
        · next owner found =>
          obtain ⟨xid, -, search⟩ := Option.bind_eq_some_iff.mp found
          exact .inr (.inl ⟨owner, GetToplevelWindowByWindow_refers xid owner search,
            mapTransient_changed addressed taken⟩)
        · exact .inr (.inr (mapToplevel_changed configuration addressed taken))

theorem stopFloatingTab_kept (configuration : LayoutConfiguration) (addressed : manager.Addressed) :
    ∃ next, manager.stopFloatingTab configuration = some next ∧ Kept manager next := by
  rw [stopFloatingTab]
  dsimp only
  split
  · have stopped := kept_of_others addressed manager.floating_tab_ manager.tab_summary_
      manager.create_browser_window_ manager.floating_tab_event_coalescer_.stopped manager.focused
    obtain ⟨next, handled, kept⟩ := handleFloatingTabTimer_kept configuration stopped.addressed
    exact ⟨next, handled, stopped.trans kept⟩
  · exact ⟨manager, rfl, .refl addressed⟩

theorem unmapFloatingTab_kept (configuration : LayoutConfiguration) (addressed : manager.Addressed)
    (xid : XWindow) :
    ∃ next, manager.unmapFloatingTab configuration xid = some next ∧ Kept manager next := by
  rw [unmapFloatingTab]
  split
  · obtain ⟨middle, stopped, kept⟩ := stopFloatingTab_kept configuration addressed
    refine ⟨_, by rw [stopped]; rfl, kept.trans ?_⟩
    exact kept_of_others kept.addressed _ _ _ _ _
  · exact ⟨manager, rfl, .refl addressed⟩

theorem unmapOthers_kept (addressed : manager.Addressed) (xid : XWindow) :
    ∃ next, manager.unmapOthers xid = some next ∧ Kept manager next := by
  have summarised : ∃ tab_summary, (if manager.tab_summary_ = some xid then
      { manager with tab_summary_ := none } else manager) = { manager with tab_summary_ := tab_summary } := by
    split
    · exact ⟨_, rfl⟩
    · exact ⟨_, rfl⟩
  obtain ⟨tab_summary, summarised⟩ := summarised
  rw [unmapOthers, summarised]
  dsimp only
  split
  · have noted := kept_of_others addressed manager.floating_tab_ tab_summary none
      manager.floating_tab_event_coalescer_ manager.focused
    obtain ⟨next, laidOut, kept⟩ := layoutOverview_kept noted.addressed
    exact ⟨next, laidOut, noted.trans kept⟩
  · exact ⟨_, rfl, kept_of_others addressed _ _ _ _ _⟩

/-- Windows are forgotten after what a window of another kind asks for is done. -/
theorem HandleWindowUnmap_eq (configuration : LayoutConfiguration) (addressed : manager.Addressed)
    (xid : XWindow) :
    ∃ middle, Kept manager middle ∧ manager.HandleWindowUnmap configuration xid =
      (middle.unmapTransient xid).bind fun last => last.unmapToplevel configuration xid := by
  obtain ⟨first, unmapped, kept⟩ := unmapFloatingTab_kept configuration addressed xid
  obtain ⟨middle, others, kept'⟩ := unmapOthers_kept kept.addressed xid
  refine ⟨middle, kept.trans kept', ?_⟩
  rw [HandleWindowUnmap, unmapped, Option.bind_eq_bind, Option.bind_some, others]
  rfl

end LayoutManager

end ChromiumOS.WindowManager
