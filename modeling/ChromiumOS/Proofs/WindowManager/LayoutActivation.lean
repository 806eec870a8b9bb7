import ChromiumOS.Proofs.WindowManager.LayoutReferences

/-! # Requests to activate a window

The entries of the transient windows of a toplevel window are right for as long as it is there, whatever entries
others have left behind. So a request for a window or for one of its transient windows comes to that window, and it
becomes the active one, except where leaving overview mode makes the magnified window the active one.
-/

namespace ChromiumOS.WindowManager.LayoutManager

variable {manager middle next : LayoutManager} {address owner : ℕ} {xid : XWindow}
  {windows rest : List WindowKeys} {entries : List (XWindow × ℕ)} {mapped : List XWindow}

/-- The entries of the transient windows of the toplevel windows that there are. -/
structure Noted (windows : List WindowKeys) (entries : List (XWindow × ℕ)) (mapped : List XWindow) : Prop where
  xids : (windows.map fun keys => keys.xid).Nodup
  xidsMapped : ∀ keys ∈ windows, keys.xid ∈ mapped
  entryKeys : (entries.map Prod.fst).Nodup
  entriesMapped : ∀ entry ∈ entries, entry.1 ∈ mapped
  apart : ∀ entry ∈ entries, ∀ keys ∈ windows, keys.xid ≠ entry.1
  known : ∀ keys ∈ windows, ∀ xid ∈ keys.transients, (xid, keys.address) ∈ entries

theorem Noted.perm (noted : Noted windows entries mapped) (order : rest.Perm windows) : Noted rest entries mapped where
  xids := (order.map _).nodup_iff.mpr noted.xids
  xidsMapped keys inside := noted.xidsMapped keys (order.mem_iff.mp inside)
  entryKeys := noted.entryKeys
  entriesMapped := noted.entriesMapped
  apart entry inside keys member := noted.apart entry inside keys (order.mem_iff.mp member)
  known keys inside := noted.known keys (order.mem_iff.mp inside)

theorem Noted.insert (noted : Noted windows entries mapped) (unmapped : xid ∉ mapped) (address : ℕ)
    (input_xid : XWindow) : Noted (⟨address, xid, input_xid, []⟩ :: windows) entries (xid :: mapped) where
  xids := by
    apply List.nodup_cons.mpr
    refine ⟨fun old => ?_, noted.xids⟩
    obtain ⟨keys, inside, same⟩ := List.mem_map.mp old
    obtain rfl : keys.xid = xid := same
    exact unmapped (noted.xidsMapped keys inside)
  xidsMapped := by
    intro keys inside
    rcases List.mem_cons.mp inside with rfl | old
    · exact List.mem_cons_self
    · exact List.mem_cons_of_mem _ (noted.xidsMapped keys old)
  entryKeys := noted.entryKeys
  entriesMapped entry inside := List.mem_cons_of_mem _ (noted.entriesMapped entry inside)
  apart := by
    intro entry inside keys member
    rcases List.mem_cons.mp member with rfl | old
    · rintro rfl
      exact unmapped (noted.entriesMapped entry inside)
    · exact noted.apart entry inside keys old
  known := by
    intro keys inside other owns
    rcases List.mem_cons.mp inside with rfl | old
    · cases owns
    · exact noted.known keys old other owns

/-- A toplevel window goes, and leaves the entries of its transient windows behind. -/
theorem Noted.drop (noted : Noted windows entries mapped) {keys : WindowKeys} (order : windows.Perm (keys :: rest)) :
    Noted rest entries mapped := by
  have whole := noted.perm order.symm
  refine ⟨(List.nodup_cons.mp whole.xids).2, ?_, whole.entryKeys, whole.entriesMapped, ?_, ?_⟩
  · intro other inside
    exact whole.xidsMapped other (List.mem_cons_of_mem _ inside)
  · intro entry inside other member
    exact whole.apart entry inside other (List.mem_cons_of_mem _ member)
  · intro other inside
    exact whole.known other (List.mem_cons_of_mem _ inside)

theorem Noted.more (noted : Noted windows entries mapped) (xid : XWindow) : Noted windows entries (xid :: mapped) :=
  ⟨noted.xids, fun keys inside => List.mem_cons_of_mem _ (noted.xidsMapped keys inside), noted.entryKeys,
    fun entry inside => List.mem_cons_of_mem _ (noted.entriesMapped entry inside), noted.apart, noted.known⟩

/-- A window that is neither a toplevel window nor in the map is unmapped. -/
theorem Noted.unmap (noted : Noted windows entries mapped) (noToplevel : ∀ keys ∈ windows, keys.xid ≠ xid)
    (noTransient : ∀ entry ∈ entries, entry.1 ≠ xid) :
    Noted windows entries (mapped.filter fun other => other != xid) where
  xids := noted.xids
  xidsMapped keys inside :=
    List.mem_filter.mpr ⟨noted.xidsMapped keys inside, bne_iff_ne.mpr (noToplevel keys inside)⟩
  entryKeys := noted.entryKeys
  entriesMapped entry inside :=
    List.mem_filter.mpr ⟨noted.entriesMapped entry inside, bne_iff_ne.mpr (noTransient entry inside)⟩
  apart := noted.apart
  known := noted.known

/-- A window that was not mapped becomes a transient window. -/
theorem Noted.own (noted : Noted windows entries mapped) (unmapped : xid ∉ mapped) :
    Noted (changeAt windows owner fun keys => keys.own xid) (assign entries xid owner) (xid :: mapped) := by
  have sameXid (keys : WindowKeys) : (keys.own xid).xid = keys.xid := by rw [own_fields]
  have sameAddress (keys : WindowKeys) : (keys.own xid).address = keys.address := by rw [own_fields]
  have old {entry : XWindow × ℕ} (inside : entry ∈ entries) : entry.1 ≠ xid := by
    rintro rfl
    exact unmapped (noted.entriesMapped entry inside)
  have whole : assign entries xid owner = (xid, owner) :: entries := by
    refine congrArg _ (List.filter_eq_self.mpr ?_)
    exact fun entry inside => bne_iff_ne.mpr (old inside)
  rw [whole]
  refine ⟨?_, ?_, ?_, ?_, ?_, ?_⟩
  · rw [changeAt_xids sameXid]
    exact noted.xids
  · intro keys inside
    obtain ⟨original, member, same⟩ := xid_of_changeAt sameXid inside
    exact List.mem_cons_of_mem _ (same ▸ noted.xidsMapped original member)
  · refine List.nodup_cons.mpr ⟨fun used => ?_, noted.entryKeys⟩
    obtain ⟨entry, inside, same⟩ := List.mem_map.mp used
    exact old inside same
  · intro entry inside
    rcases List.mem_cons.mp inside with rfl | inside
    · exact List.mem_cons_self
    · exact List.mem_cons_of_mem _ (noted.entriesMapped entry inside)
  · intro entry inside keys member
    obtain ⟨original, originalMember, same⟩ := xid_of_changeAt sameXid member
    rw [← same]
    rcases List.mem_cons.mp inside with rfl | inside
    · rintro (taken : original.xid = xid)
      exact unmapped (taken ▸ noted.xidsMapped original originalMember)
    · exact noted.apart entry inside original originalMember
  · intro keys inside other owns
    obtain ⟨original, member, rfl⟩ := List.mem_map.mp inside
    rw [List.mem_cons]
    split at owns
    · next same =>
      rw [if_pos same, sameAddress]
      rcases mem_own.mp owns with rfl | owns
      · exact .inl (Prod.ext rfl same)
      · exact .inr (noted.known original member other owns)
    · next different =>
      rw [if_neg different]
      exact .inr (noted.known original member other owns)

/-- A transient window goes. -/
theorem Noted.disown (noted : Noted windows entries mapped) (owned : entries.lookup xid = some owner) :
    Noted (changeAt windows owner fun keys => keys.disown xid) (erase entries xid) mapped := by
  have sameXid (keys : WindowKeys) : (keys.disown xid).xid = keys.xid := rfl
  refine ⟨?_, ?_, ?_, ?_, ?_, ?_⟩
  · rw [changeAt_xids sameXid]
    exact noted.xids
  · intro keys inside
    obtain ⟨original, member, same⟩ := xid_of_changeAt sameXid inside
    exact same ▸ noted.xidsMapped original member
  · exact noted.entryKeys.sublist (List.filter_sublist.map _)
  · intro entry inside
    exact noted.entriesMapped entry (List.mem_filter.mp inside).1
  · intro entry inside keys member
    obtain ⟨original, member, same⟩ := xid_of_changeAt sameXid member
    exact same ▸ noted.apart entry (List.mem_filter.mp inside).1 original member
  · intro keys inside other owns
    obtain ⟨original, member, rfl⟩ := List.mem_map.mp inside
    rw [erase, List.mem_filter, bne_iff_ne]
    split at owns
    · next same =>
      obtain ⟨owns, different⟩ := List.mem_filter.mp owns
      rw [if_pos same]
      exact ⟨noted.known original member other owns, bne_iff_ne.mp different⟩
    · next elsewhere =>
      rw [if_neg elsewhere]
      refine ⟨noted.known original member other owns, ?_⟩
      rintro rfl
      have entry := noted.known original member other owns
      have same := List.inj_on_of_nodup_map noted.entryKeys entry (mem_of_lookup owned) rfl
      exact elsewhere (congrArg Prod.snd same)

/-- The invariant of every reachable state. -/
structure Tracked (manager : LayoutManager) : Prop extends Arranged manager where
  noted : Noted manager.windows manager.transient_to_toplevel_ manager.mapped

section Configuration

variable (configuration : LayoutConfiguration)

theorem HandleMapNotify_tracked (tracked : manager.Tracked) {win : Window} {input_xid : XWindow}
    (taken : manager.HandleMapNotify configuration win input_xid = some next) : next.Tracked := by
  refine ⟨HandleMapNotify_arranged configuration tracked.toArranged taken, ?_⟩
  rw [HandleMapNotify] at taken
  split at taken
  · cases taken
    exact tracked.noted
  · next unmapped =>
    have arranged := tracked.toArranged.with_mapped (win.xid :: manager.mapped)
    rcases HandleWindowMap_cases configuration arranged.toAddressed taken with kept | ⟨owner, -, changed⟩ | changed
    · rw [kept.windows, kept.transients, kept.mapped]
      exact tracked.noted.more win.xid
    · rw [changed.transients, changed.mapped]
      exact (tracked.noted.own unmapped).perm changed.windows
    · rw [changed.transients, changed.mapped]
      exact (tracked.noted.insert unmapped _ _).perm changed.windows

omit configuration in
theorem unmapTransient_noted (arranged : manager.Arranged)
    (noted : Noted manager.windows manager.transient_to_toplevel_ mapped)
    (taken : manager.unmapTransient xid = some next) :
    next.Arranged ∧ next.mapped = manager.mapped ∧ Noted next.windows next.transient_to_toplevel_ mapped ∧
      ∀ entry ∈ next.transient_to_toplevel_, entry.1 ≠ xid := by
  cases found : manager.GetToplevelWindowOwningTransientWindow xid with
  | none =>
    rw [unmapTransient, found] at taken
    cases taken
    refine ⟨arranged, rfl, noted, ?_⟩
    intro entry inside same
    rw [GetToplevelWindowOwningTransientWindow, List.lookup_eq_none_iff] at found
    simpa [same] using found entry inside
  | some owner =>
    have changed := unmapTransient_changed arranged.toAddressed found taken
    refine ⟨changed.arranged arranged, changed.mapped, ?_, ?_⟩
    · rw [changed.transients]
      exact (noted.disown found).perm changed.windows
    · intro entry inside
      rw [changed.transients] at inside
      exact bne_iff_ne.mp (List.mem_filter.mp inside).2

theorem HandleUnmapNotify_tracked (tracked : manager.Tracked)
    (taken : manager.HandleUnmapNotify configuration xid = some next) : next.Tracked := by
  refine ⟨HandleUnmapNotify_arranged configuration tracked.toArranged taken, ?_⟩
  have arranged := tracked.toArranged.with_mapped (manager.mapped.filter fun other => other != xid)
  obtain ⟨middle, kept, rest⟩ := HandleWindowUnmap_eq configuration arranged.toAddressed xid
  rw [HandleUnmapNotify, rest, Option.bind_eq_some_iff] at taken
  obtain ⟨last, unmapped, taken⟩ := taken
  have noted : Noted middle.windows middle.transient_to_toplevel_ manager.mapped := by
    rw [kept.windows, kept.transients]
    exact tracked.noted
  obtain ⟨lastArranged, sameMapped, noted, noTransient⟩ :=
    unmapTransient_noted (kept.arranged arranged) noted unmapped
  have mapped : last.mapped = manager.mapped.filter fun other => other != xid := sameMapped.trans kept.mapped
  cases found : last.GetToplevelWindowByWindow xid with
  | none =>
    rw [unmapToplevel, found] at taken
    cases taken
    rw [mapped]
    exact noted.unmap (GetToplevelWindowByWindow_eq_none.mp found) noTransient
  | some address =>
    obtain ⟨_, toplevel, others, again, inside, -, named, order, changed⟩ :=
      unmapToplevel_changed configuration lastArranged.toAddressed found
    obtain rfl := Option.some.inj (again.symm.trans taken)
    have noToplevel : ∀ keys ∈ others, keys.xid ≠ xid := by
      intro keys member same
      have nodup := (List.nodup_cons.mp ((order.map _).nodup_iff.mp noted.xids)).1
      exact nodup (List.mem_map.mpr ⟨keys, member, same.trans named.symm⟩)
    rw [changed.transients, changed.mapped, mapped]
    exact ((noted.drop order).unmap noToplevel noTransient).perm changed.windows

theorem step_tracked (tracked : manager.Tracked) {event : LayoutEvent}
    (taken : manager.step configuration event = some next) : next.Tracked := by
  by_cases mapping : ∃ win input_xid, event = .HandleMapNotify win input_xid
  · obtain ⟨win, input_xid, rfl⟩ := mapping
    exact HandleMapNotify_tracked configuration tracked taken
  · by_cases unmapping : ∃ xid, event = .HandleUnmapNotify xid
    · obtain ⟨xid, rfl⟩ := unmapping
      exact HandleUnmapNotify_tracked configuration tracked taken
    · obtain ⟨arranged, _, _, _, kept⟩ := step_kept configuration tracked.toArranged
        (fun win input_xid same => mapping ⟨win, input_xid, same⟩)
        (fun xid same => unmapping ⟨xid, same⟩) taken
      refine ⟨arranged, ?_⟩
      rw [kept.windows, kept.transients, kept.mapped]
      exact tracked.noted

omit configuration in
theorem new_tracked (width height : ℤ) : (new width height).Tracked := by
  refine ⟨new_arranged width height, List.nodup_nil, ?_, List.nodup_nil, ?_, ?_, ?_⟩ <;>
    · intro _ inside
      cases inside

end Configuration

section Requests

variable {toplevel : ToplevelWindow}

/-- A window of a toplevel window: itself or one of its transient windows. -/
def Belongs (xid : XWindow) (toplevel : ToplevelWindow) : Prop :=
  xid = toplevel.win_.xid ∨ (toplevel.GetTransientWindow xid).isSome = true

theorem belongs_iff : Belongs xid toplevel ↔ xid = toplevel.keys.xid ∨ xid ∈ toplevel.keys.transients := by
  rw [Belongs, ToplevelWindow.GetTransientWindow, List.find?_isSome]
  simp [ToplevelWindow.keys]

theorem lookup_of_entry (nodup : (entries.map Prod.fst).Nodup) (entry : (xid, address) ∈ entries) :
    entries.lookup xid = some address := by
  cases found : entries.lookup xid with
  | none =>
    rw [List.lookup_eq_none_iff] at found
    simpa using found _ entry
  | some other =>
    have same := List.inj_on_of_nodup_map nodup (mem_of_lookup found) entry rfl
    exact congrArg some (congrArg Prod.snd same)

theorem Noted.lookup (noted : Noted manager.windows manager.transient_to_toplevel_ mapped)
    (inside : toplevel ∈ manager.toplevels_) (owns : (toplevel.GetTransientWindow xid).isSome = true) :
    manager.GetToplevelWindowOwningTransientWindow xid = some toplevel.address := by
  apply lookup_of_entry noted.entryKeys
  have member : toplevel.keys ∈ manager.windows := List.mem_map_of_mem inside
  apply noted.known toplevel.keys member
  rw [ToplevelWindow.GetTransientWindow, List.find?_isSome] at owns
  obtain ⟨transient, known, same⟩ := owns
  rw [← eq_of_beq same]
  exact List.mem_map_of_mem known

theorem Noted.unowned (noted : Noted manager.windows manager.transient_to_toplevel_ mapped)
    (inside : toplevel ∈ manager.toplevels_) :
    manager.GetToplevelWindowOwningTransientWindow toplevel.win_.xid = none := by
  rw [GetToplevelWindowOwningTransientWindow, List.lookup_eq_none_iff]
  intro entry used
  exact bne_iff_ne.mpr (noted.apart entry used toplevel.keys (List.mem_map_of_mem inside))

theorem Noted.byWindow (noted : Noted manager.windows manager.transient_to_toplevel_ mapped)
    (inside : toplevel ∈ manager.toplevels_) :
    manager.GetToplevelWindowByWindow toplevel.win_.xid = some toplevel.address := by
  cases found : manager.GetToplevelWindowByWindow toplevel.win_.xid with
  | none => exact absurd rfl (GetToplevelWindowByWindow_eq_none.mp found toplevel.keys (List.mem_map_of_mem inside))
  | some address =>
    obtain ⟨other, search, rfl⟩ := Option.map_eq_some_iff.mp found
    have named : other.win_.xid = toplevel.win_.xid := by simpa using List.find?_some search
    have same : other.keys = toplevel.keys :=
      List.inj_on_of_nodup_map noted.xids (List.mem_map_of_mem (List.mem_of_find?_eq_some search))
        (List.mem_map_of_mem inside) named
    rw [show other.address = toplevel.address from congrArg WindowKeys.address same]

/-- A request comes to the toplevel window that its window belongs to. -/
theorem Noted.toplevelOf (noted : Noted manager.windows manager.transient_to_toplevel_ mapped)
    (inside : toplevel ∈ manager.toplevels_) (belongs : Belongs xid toplevel) :
    manager.toplevelOf xid = some toplevel.address := by
  rw [LayoutManager.toplevelOf]
  rcases belongs with rfl | owns
  · rw [noted.unowned inside, noted.byWindow inside]
    rfl
  · rw [noted.lookup inside owns]
    rfl

theorem isRegistered_of_belongs (inside : toplevel ∈ manager.toplevels_) (belongs : Belongs xid toplevel) :
    manager.isRegistered xid = true := by
  rw [isRegistered, List.any_eq_true]
  refine ⟨toplevel, inside, ?_⟩
  rcases belongs with rfl | owns
  · simp
  · simp [owns]

/-- A transient window may be preferred, which changes no reference. -/
theorem Tracked.preferTransient (tracked : manager.Tracked) (inside : toplevel ∈ manager.toplevels_)
    (belongs : Belongs xid toplevel) :
    ∃ preferred, manager.preferTransient xid = some preferred ∧ preferred.Addressed ∧
      SameWindows manager preferred ∧ preferred.mode_ = manager.mode_ ∧
      preferred.active_toplevel_ = manager.active_toplevel_ ∧
      preferred.magnified_toplevel_ = manager.magnified_toplevel_ := by
  have present : toplevel.address ∈ manager.addresses := mem_addresses.mpr ⟨toplevel, inside, rfl⟩
  rw [LayoutManager.preferTransient]
  cases found : manager.GetToplevelWindowOwningTransientWindow xid with
  | none => exact ⟨manager, rfl, tracked.toAddressed, .refl manager, rfl, rfl, rfl⟩
  | some owner =>
    have owned : owner = toplevel.address := by
      rcases belongs with rfl | owns
      · rw [tracked.noted.unowned inside] at found
        cases found
      · rw [tracked.noted.lookup inside owns] at found
        exact (Option.some.inj found).symm
    subst owned
    have gentle := SetPreferredTransientWindowToFocus_gentle (some xid)
    obtain ⟨preferred, called, same, mode, active, magnified, -⟩ := call_same gentle.keys present
    exact ⟨preferred, called, (call_kept gentle tracked.toAddressed called).addressed, same, mode, active, magnified⟩

theorem layoutActive_active {manager : LayoutManager} (active : manager.active_toplevel_ = some address)
    (update_focus : Bool) :
    (manager.LayoutToplevelWindowsForActiveMode update_focus).mode_ = manager.mode_ ∧
      (manager.LayoutToplevelWindowsForActiveMode update_focus).active_toplevel_ = some address := by
  rw [LayoutToplevelWindowsForActiveMode]
  split
  · exact ⟨rfl, active⟩
  · refine ⟨rfl, ?_⟩
    dsimp only
    rw [active]
    rfl

theorem call_mode {method : ToplevelWindow → ToplevelWindow} (called : manager.call address method = some next) :
    next.mode_ = manager.mode_ := by
  obtain ⟨-, rfl⟩ := call_eq_some.mp called
  rfl

theorem setStateForOldWin_mode {state : ToplevelState} (taken : manager.setStateForOldWin state = some next) :
    next.mode_ = manager.mode_ := by
  rw [setStateForOldWin] at taken
  split at taken
  · exact call_mode taken
  · rw [Option.some.inj taken]

theorem SetActiveToplevelWindow_active (addressed : manager.Addressed) (present : address ∈ manager.addresses)
    (mode : manager.mode_ = .MODE_ACTIVE) (state_for_new_win state_for_old_win : ToplevelState) :
    ∃ next, manager.SetActiveToplevelWindow address state_for_new_win state_for_old_win = some next ∧
      next.mode_ = .MODE_ACTIVE ∧ next.active_toplevel_ = some address := by
  obtain ⟨next, taken, -⟩ := SetActiveToplevelWindow_spec addressed present state_for_new_win state_for_old_win
  refine ⟨next, taken, ?_⟩
  rw [SetActiveToplevelWindow] at taken
  split at taken
  · next idle =>
    obtain rfl := Option.some.inj taken
    rcases idle with inactive | active
    · exact absurd mode inactive
    · exact ⟨mode, active⟩
  · obtain ⟨middle, left, taken⟩ := Option.bind_eq_some_iff.mp taken
    obtain ⟨last, entered, taken⟩ := Option.bind_eq_some_iff.mp taken
    obtain rfl := Option.some.inj taken
    have lastMode : last.mode_ = .MODE_ACTIVE := (call_mode entered).trans ((setStateForOldWin_mode left).trans mode)
    obtain ⟨sameMode, active⟩ :=
      @layoutActive_active address { last with active_toplevel_ := some address } rfl true
    exact ⟨sameMode.trans lastMode, active⟩

variable (configuration : LayoutConfiguration)

/-- Leaving overview mode with a window to activate. -/
theorem setActiveMode_active (addressed : manager.Addressed) (active : manager.active_toplevel_ = some address) :
    ∃ next, manager.setActiveMode configuration = some next ∧ next.mode_ = .MODE_ACTIVE ∧
      next.active_toplevel_ =
        if configuration.lm_new_overview_mode && manager.magnified_toplevel_.isSome then manager.magnified_toplevel_
        else some address := by
  obtain ⟨chosen, chosenEq⟩ : ∃ chosen, (if configuration.lm_new_overview_mode && manager.magnified_toplevel_.isSome
      then manager.magnified_toplevel_ else some address) = some chosen := by
    split
    · next magnified =>
      rw [Bool.and_eq_true] at magnified
      exact Option.isSome_iff_exists.mp magnified.2
    · exact ⟨address, rfl⟩
  obtain ⟨reference, -, left⟩ := leaveOverviewMode_eq configuration
    (show Refers { manager with mode_ := .MODE_ACTIVE, active_toplevel_ := some chosen }
      manager.magnified_toplevel_ from addressed.magnified)
  have whole : manager.setActiveMode configuration =
      some (LayoutToplevelWindowsForActiveMode
        { manager with mode_ := .MODE_ACTIVE, active_toplevel_ := some chosen, magnified_toplevel_ := reference } true) := by
    rw [setActiveMode, active, Option.isNone_some, Bool.or_false, chosenEq, Option.some_or]
    simp only [left, Option.bind_eq_bind, Option.bind_some]
  rw [chosenEq]
  exact ⟨_, whole, layoutActive_active rfl true⟩

/-- In every reachable state, a request for a window or for one of its transient windows makes that window the active
one in active mode, unless the new overview mode has another window magnified. -/
theorem activation_honoured_iff (width height : ℤ) (events : List LayoutEvent)
    (reached : PartialRun.run (step configuration) (new width height) events = some manager)
    (inside : toplevel ∈ manager.toplevels_) (belongs : Belongs xid toplevel) :
    (∃ next, manager.HandleClientMessage configuration xid = some next ∧ next.mode_ = .MODE_ACTIVE ∧
        next.active_toplevel_ = some toplevel.address) ↔
      ¬ (manager.mode_ = .MODE_OVERVIEW ∧ configuration.lm_new_overview_mode = true ∧
        manager.magnified_toplevel_.isSome = true ∧ manager.magnified_toplevel_ ≠ some toplevel.address) := by
  have tracked : manager.Tracked :=
    @PartialRun.always_of_preserved _ _ (step configuration) Tracked _ (new_tracked width height)
      (fun _ _ _ known taken => step_tracked configuration known taken) events events (List.prefix_refl _) manager reached
  obtain ⟨preferred, first, addressed, same, mode, active, magnified⟩ := tracked.preferTransient inside belongs
  have present : toplevel.address ∈ preferred.addresses := by
    rw [same.addresses]
    exact mem_addresses.mpr ⟨toplevel, inside, rfl⟩
  have target : preferred.toplevelOf xid = some toplevel.address := by
    have noted : Noted preferred.windows preferred.transient_to_toplevel_ manager.mapped := by
      rw [same.windows, same.transients]
      exact tracked.noted
    have member : toplevel.keys ∈ preferred.windows := by
      rw [same.windows]
      exact List.mem_map_of_mem inside
    obtain ⟨other, otherInside, sameKeys⟩ := List.mem_map.mp member
    rw [← show other.address = toplevel.address from congrArg WindowKeys.address sameKeys]
    apply noted.toplevelOf otherInside
    rw [belongs_iff, sameKeys]
    exact belongs_iff.mp belongs
  rw [HandleClientMessage, isRegistered_of_belongs inside belongs, Bool.not_true, if_neg Bool.false_ne_true, first,
    Option.bind_eq_bind, Option.bind_some]
  simp only [target, mode, active]
  by_cases activeMode : manager.mode_ = .MODE_ACTIVE
  · rw [if_pos activeMode]
    have free : ¬ (manager.mode_ = .MODE_OVERVIEW ∧ configuration.lm_new_overview_mode = true ∧
        manager.magnified_toplevel_.isSome = true ∧ manager.magnified_toplevel_ ≠ some toplevel.address) := by
      rintro ⟨overview, -⟩
      rw [activeMode] at overview
      cases overview
    apply iff_of_true _ free
    by_cases other : some toplevel.address ≠ manager.active_toplevel_
    · rw [if_pos other]
      exact SetActiveToplevelWindow_active addressed present (mode.trans activeMode) _ _
    · rw [if_neg other]
      obtain ⟨next, called, -, sameMode, sameActive, -⟩ := call_same TakeFocus_gentle.keys present
      refine ⟨next, called, sameMode.trans (mode.trans activeMode), ?_⟩
      rw [sameActive, active]
      exact (Classical.not_not.mp other).symm
  · rw [if_neg activeMode]
    have overview := mode_overview activeMode
    have changed : Addressed { preferred with active_toplevel_ := some toplevel.address } :=
      (same_of_references preferred.mode_ (some toplevel.address) preferred.magnified_toplevel_
        preferred.toplevel_under_floating_tab_).addressed addressed (.some present) addressed.magnified addressed.under
    obtain ⟨next, taken, sameMode, chosen⟩ := @setActiveMode_active _ toplevel.address configuration changed rfl
    have switched : (SetMode configuration { preferred with active_toplevel_ := some toplevel.address } .MODE_ACTIVE) =
        some next := taken
    have magnifiedSame : ({ preferred with active_toplevel_ := some toplevel.address } : LayoutManager).magnified_toplevel_ =
        manager.magnified_toplevel_ := magnified
    rw [magnifiedSame] at chosen
    have result : (∃ last, some next = some last ∧ last.mode_ = .MODE_ACTIVE ∧
        last.active_toplevel_ = some toplevel.address) ↔ next.active_toplevel_ = some toplevel.address := by
      constructor
      · rintro ⟨last, only, -, activated⟩
        rw [Option.some.inj only]
        exact activated
      · intro activated
        exact ⟨next, rfl, sameMode, activated⟩
    rw [mode] at switched
    rw [switched, result, chosen]
    cases magnifiedEq : manager.magnified_toplevel_ with
    | none => simp
    | some other => cases configuration.lm_new_overview_mode <;> simp [overview]

/-- A request for the only window, in overview mode. -/
theorem activation_honoured_browser :
    ∃ manager toplevel, PartialRun.run (step plainLayout) (new 1024 768)
        [.HandleMapNotify browserWindow 10, .SwitchToOverviewMode] = some manager ∧ toplevel ∈ manager.toplevels_ ∧
      ((∃ next, manager.HandleClientMessage plainLayout 1 = some next ∧ next.mode_ = .MODE_ACTIVE ∧
          next.active_toplevel_ = some toplevel.address) ↔
        ¬ (manager.mode_ = .MODE_OVERVIEW ∧ plainLayout.lm_new_overview_mode = true ∧
          manager.magnified_toplevel_.isSome = true ∧ manager.magnified_toplevel_ ≠ some toplevel.address)) :=
  ⟨_, _, rfl, List.mem_cons_self, activation_honoured_iff plainLayout 1024 768
    [.HandleMapNotify browserWindow 10, .SwitchToOverviewMode] rfl List.mem_cons_self (.inl rfl)⟩

def newLayout : LayoutConfiguration := { plainLayout with lm_new_overview_mode := true }

/-- In the new overview mode, a request for the first of two windows activates the second, which is magnified. -/
theorem magnified_window_activated :
    ∃ manager toplevel next, PartialRun.run (step newLayout) (new 1024 768)
        [.HandleMapNotify browserWindow 10, .HandleMapNotify { browserWindow with xid := 2 } 11,
          .SwitchToOverviewMode] = some manager ∧
      toplevel ∈ manager.toplevels_ ∧ Belongs 1 toplevel ∧ manager.HandleClientMessage newLayout 1 = some next ∧
      next.active_toplevel_ ≠ some toplevel.address :=
  ⟨_, _, _, rfl, List.mem_cons_self, .inl rfl, rfl, by decide⟩

end Requests

end ChromiumOS.WindowManager.LayoutManager
