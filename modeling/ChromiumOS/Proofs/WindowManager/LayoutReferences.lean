import ChromiumOS.Proofs.WindowManager.ActiveLayout

/-! # The references of the layout manager

The map of transient windows is kept up with the transient windows of each toplevel window, except when a
toplevel window goes: then its transient windows are forgotten by it, but their entries of the map stay and
refer to a window that there is no more.
-/

namespace ChromiumOS.WindowManager.LayoutManager

variable {manager middle next : LayoutManager} {address owner : ℕ} {xid : XWindow}
  {windows rest : List WindowKeys} {entries : List (XWindow × ℕ)} {mapped : List XWindow}

/-- Every reference is to a toplevel window, each of those has one input window, and the owner of a
transient window knows it. -/
structure ReferencesLive (manager : LayoutManager) : Prop where
  active : manager.Refers manager.active_toplevel_
  magnified : manager.Refers manager.magnified_toplevel_
  under : manager.Refers manager.toplevel_under_floating_tab_
  inputs : manager.input_to_toplevel_.Perm
    (manager.toplevels_.map fun toplevel => (toplevel.input_xid_, toplevel.address))
  transients : ∀ entry ∈ manager.transient_to_toplevel_, ∃ toplevel ∈ manager.toplevels_,
    toplevel.address = entry.2 ∧ (toplevel.GetTransientWindow entry.1).isSome = true

/-- A toplevel window is unmapped only when it has no transient windows. -/
def Unowning (manager : LayoutManager) : LayoutEvent → Prop
  | .HandleUnmapNotify xid =>
    ∀ toplevel ∈ manager.toplevels_, toplevel.win_.xid = xid → toplevel.transients_ = []
  | _ => True

/-- The owners of transient windows agree with the map of them, and no window is in two places. -/
structure Registered (windows : List WindowKeys) (entries : List (XWindow × ℕ))
    (mapped : List XWindow) : Prop where
  xids : (windows.map fun keys => keys.xid).Nodup
  xidsMapped : ∀ keys ∈ windows, keys.xid ∈ mapped
  entryKeys : (entries.map Prod.fst).Nodup
  entriesMapped : ∀ entry ∈ entries, entry.1 ∈ mapped
  apart : ∀ entry ∈ entries, ∀ keys ∈ windows, keys.xid ≠ entry.1
  agree : ∀ xid address, (xid, address) ∈ entries ↔
    ∃ keys ∈ windows, keys.address = address ∧ xid ∈ keys.transients

theorem Registered.perm (registered : Registered windows entries mapped) (order : rest.Perm windows) :
    Registered rest entries mapped where
  xids := (order.map _).nodup_iff.mpr registered.xids
  xidsMapped keys inside := registered.xidsMapped keys (order.mem_iff.mp inside)
  entryKeys := registered.entryKeys
  entriesMapped := registered.entriesMapped
  apart entry inside keys member := registered.apart entry inside keys (order.mem_iff.mp member)
  agree xid address := by
    rw [registered.agree]
    constructor
    · rintro ⟨keys, inside, owns⟩
      exact ⟨keys, order.mem_iff.mpr inside, owns⟩
    · rintro ⟨keys, inside, owns⟩
      exact ⟨keys, order.mem_iff.mp inside, owns⟩

/-- A window that was not mapped becomes a toplevel window. -/
theorem Registered.insert (registered : Registered windows entries mapped) (unmapped : xid ∉ mapped)
    (address : ℕ) (input_xid : XWindow) :
    Registered (⟨address, xid, input_xid, []⟩ :: windows) entries (xid :: mapped) where
  xids := by
    refine List.nodup_cons.mpr ⟨fun old => ?_, registered.xids⟩
    obtain ⟨keys, inside, same⟩ := List.mem_map.mp old
    obtain rfl : keys.xid = xid := same
    exact unmapped (registered.xidsMapped keys inside)
  xidsMapped := by
    intro keys inside
    rcases List.mem_cons.mp inside with rfl | old
    · exact List.mem_cons_self
    · exact List.mem_cons_of_mem _ (registered.xidsMapped keys old)
  entryKeys := registered.entryKeys
  entriesMapped entry inside := List.mem_cons_of_mem _ (registered.entriesMapped entry inside)
  apart := by
    intro entry inside keys member
    rcases List.mem_cons.mp member with rfl | old
    · rintro rfl
      exact unmapped (registered.entriesMapped entry inside)
    · exact registered.apart entry inside keys old
  agree := by
    intro other owner
    rw [registered.agree]
    constructor
    · rintro ⟨keys, inside, owns⟩
      exact ⟨keys, List.mem_cons_of_mem _ inside, owns⟩
    · rintro ⟨keys, inside, same, owns⟩
      rcases List.mem_cons.mp inside with rfl | old
      · cases owns
      · exact ⟨keys, old, same, owns⟩

/-- A toplevel window without transient windows goes. -/
theorem Registered.drop (registered : Registered windows entries mapped) {keys : WindowKeys}
    (order : windows.Perm (keys :: rest)) (unowning : keys.transients = []) :
    Registered rest entries mapped := by
  have whole := registered.perm order.symm
  refine ⟨(List.nodup_cons.mp whole.xids).2, ?_, whole.entryKeys, whole.entriesMapped, ?_, ?_⟩
  · intro other inside
    exact whole.xidsMapped other (List.mem_cons_of_mem _ inside)
  · intro entry inside other member
    exact whole.apart entry inside other (List.mem_cons_of_mem _ member)
  · intro xid address
    rw [whole.agree]
    constructor
    · rintro ⟨other, inside, same, owns⟩
      rcases List.mem_cons.mp inside with rfl | old
      · rw [unowning] at owns
        cases owns
      · exact ⟨other, old, same, owns⟩
    · rintro ⟨other, inside, owns⟩
      exact ⟨other, List.mem_cons_of_mem _ inside, owns⟩

/-- Other windows may be mapped. -/
theorem Registered.more (registered : Registered windows entries mapped) (xid : XWindow) :
    Registered windows entries (xid :: mapped) :=
  ⟨registered.xids, fun keys inside => List.mem_cons_of_mem _ (registered.xidsMapped keys inside),
    registered.entryKeys, fun entry inside => List.mem_cons_of_mem _ (registered.entriesMapped entry inside),
    registered.apart, registered.agree⟩

/-- A window that is neither a toplevel window nor a transient window is unmapped. -/
theorem Registered.unmap (registered : Registered windows entries mapped)
    (noToplevel : ∀ keys ∈ windows, keys.xid ≠ xid) (noTransient : ∀ entry ∈ entries, entry.1 ≠ xid) :
    Registered windows entries (mapped.filter fun other => other != xid) where
  xids := registered.xids
  xidsMapped keys inside :=
    List.mem_filter.mpr ⟨registered.xidsMapped keys inside, bne_iff_ne.mpr (noToplevel keys inside)⟩
  entryKeys := registered.entryKeys
  entriesMapped entry inside :=
    List.mem_filter.mpr ⟨registered.entriesMapped entry inside, bne_iff_ne.mpr (noTransient entry inside)⟩
  apart := registered.apart
  agree := registered.agree

theorem mem_own {keys : WindowKeys} {other : XWindow} :
    other ∈ (keys.own xid).transients ↔ other = xid ∨ other ∈ keys.transients := by
  rw [WindowKeys.own]
  split
  · next known =>
    constructor
    · exact .inr
    · rintro (rfl | inside)
      · exact known
      · exact inside
  · exact List.mem_cons

theorem changeAt_xids {change : WindowKeys → WindowKeys} (same : ∀ keys, (change keys).xid = keys.xid)
    (windows : List WindowKeys) (owner : ℕ) :
    ((changeAt windows owner change).map fun keys => keys.xid) = windows.map fun keys => keys.xid := by
  rw [changeAt, List.map_map]
  apply List.map_congr_left
  intro keys _
  simp only [Function.comp_apply]
  split
  · exact same keys
  · rfl

/-- A change of one window that leaves the ids of the toplevel windows. -/
theorem xid_of_changeAt {change : WindowKeys → WindowKeys} (same : ∀ keys, (change keys).xid = keys.xid)
    {keys : WindowKeys} (inside : keys ∈ changeAt windows owner change) :
    ∃ original ∈ windows, original.xid = keys.xid := by
  obtain ⟨original, member, rfl⟩ := List.mem_map.mp inside
  refine ⟨original, member, ?_⟩
  split
  · exact (same original).symm
  · rfl

/-- A window that was not mapped becomes a transient window. -/
theorem Registered.own (registered : Registered windows entries mapped) (unmapped : xid ∉ mapped)
    (present : owner ∈ windows.map fun keys => keys.address) :
    Registered (changeAt windows owner fun keys => keys.own xid) (assign entries xid owner)
      (xid :: mapped) := by
  have sameXid (keys : WindowKeys) : (keys.own xid).xid = keys.xid := by rw [own_fields]
  have sameAddress (keys : WindowKeys) : (keys.own xid).address = keys.address := by rw [own_fields]
  have old {entry : XWindow × ℕ} (inside : entry ∈ entries) : entry.1 ≠ xid := by
    rintro rfl
    exact unmapped (registered.entriesMapped entry inside)
  have whole : assign entries xid owner = (xid, owner) :: entries := by
    refine congrArg _ (List.filter_eq_self.mpr ?_)
    exact fun entry inside => bne_iff_ne.mpr (old inside)
  rw [whole]
  refine ⟨?_, ?_, ?_, ?_, ?_, ?_⟩
  · rw [changeAt_xids sameXid]
    exact registered.xids
  · intro keys inside
    obtain ⟨original, member, same⟩ := xid_of_changeAt sameXid inside
    exact List.mem_cons_of_mem _ (same ▸ registered.xidsMapped original member)
  · refine List.nodup_cons.mpr ⟨fun used => ?_, registered.entryKeys⟩
    obtain ⟨entry, inside, same⟩ := List.mem_map.mp used
    exact old inside same
  · intro entry inside
    rcases List.mem_cons.mp inside with rfl | inside
    · exact List.mem_cons_self
    · exact List.mem_cons_of_mem _ (registered.entriesMapped entry inside)
  · intro entry inside keys member
    obtain ⟨original, originalMember, same⟩ := xid_of_changeAt sameXid member
    rw [← same]
    rcases List.mem_cons.mp inside with rfl | inside
    · rintro (taken : original.xid = xid)
      exact unmapped (taken ▸ registered.xidsMapped original originalMember)
    · exact registered.apart entry inside original originalMember
  · intro other address
    rw [List.mem_cons, registered.agree]
    constructor
    · rintro (same | ⟨keys, inside, rfl, owns⟩)
      · obtain ⟨rfl, rfl⟩ := Prod.ext_iff.mp same
        obtain ⟨keys, inside, rfl⟩ := List.mem_map.mp present
        refine ⟨_, List.mem_map_of_mem inside, ?_⟩
        rw [if_pos rfl]
        exact ⟨sameAddress keys, mem_own.mpr (.inl rfl)⟩
      · refine ⟨_, List.mem_map_of_mem inside, ?_⟩
        split
        · exact ⟨sameAddress keys, mem_own.mpr (.inr owns)⟩
        · exact ⟨rfl, owns⟩
    · rintro ⟨_, inside, rfl, owns⟩
      obtain ⟨keys, member, rfl⟩ := List.mem_map.mp inside
      split at owns
      · next same =>
        rw [if_pos same, sameAddress]
        rcases mem_own.mp owns with rfl | owns
        · exact .inl (Prod.ext rfl same)
        · exact .inr ⟨keys, member, rfl, owns⟩
      · next different =>
        rw [if_neg different]
        exact .inr ⟨keys, member, rfl, owns⟩

/-- A transient window goes. -/
theorem Registered.disown (registered : Registered windows entries mapped)
    (owned : entries.lookup xid = some owner) :
    Registered (changeAt windows owner fun keys => keys.disown xid) (erase entries xid) mapped := by
  have sameXid (keys : WindowKeys) : (keys.disown xid).xid = keys.xid := rfl
  refine ⟨?_, ?_, ?_, ?_, ?_, ?_⟩
  · rw [changeAt_xids sameXid]
    exact registered.xids
  · intro keys inside
    obtain ⟨original, member, same⟩ := xid_of_changeAt sameXid inside
    exact same ▸ registered.xidsMapped original member
  · exact registered.entryKeys.sublist (List.filter_sublist.map _)
  · intro entry inside
    exact registered.entriesMapped entry (List.mem_filter.mp inside).1
  · intro entry inside keys member
    obtain ⟨original, member, same⟩ := xid_of_changeAt sameXid member
    exact same ▸ registered.apart entry (List.mem_filter.mp inside).1 original member
  · intro other address
    rw [erase, List.mem_filter, bne_iff_ne, registered.agree]
    constructor
    · rintro ⟨⟨keys, inside, rfl, owns⟩, different⟩
      refine ⟨_, List.mem_map_of_mem inside, ?_⟩
      split
      · exact ⟨rfl, List.mem_filter.mpr ⟨owns, bne_iff_ne.mpr different⟩⟩
      · exact ⟨rfl, owns⟩
    · rintro ⟨_, inside, rfl, owns⟩
      obtain ⟨keys, member, rfl⟩ := List.mem_map.mp inside
      split at owns
      · next same =>
        obtain ⟨owns, different⟩ := List.mem_filter.mp owns
        rw [if_pos same]
        exact ⟨⟨keys, member, rfl, owns⟩, bne_iff_ne.mp different⟩
      · next elsewhere =>
        rw [if_neg elsewhere]
        refine ⟨⟨keys, member, rfl, owns⟩, ?_⟩
        rintro rfl
        have entry := (registered.agree other keys.address).mpr ⟨keys, member, rfl, owns⟩
        have same := List.inj_on_of_nodup_map registered.entryKeys entry (mem_of_lookup owned) rfl
        exact elsewhere (congrArg Prod.snd same)

/-- The invariant behind the references. -/
structure Owned (manager : LayoutManager) : Prop extends Arranged manager where
  registered : Registered manager.windows manager.transient_to_toplevel_ manager.mapped

theorem Owned.live (owned : manager.Owned) : manager.ReferencesLive := by
  refine ⟨owned.active, owned.magnified, owned.under, ?_, ?_⟩
  · have inputs := owned.inputs
    rwa [LayoutManager.windows, List.map_map] at inputs
  · intro entry inside
    obtain ⟨keys, member, same, owns⟩ := (owned.registered.agree entry.1 entry.2).mp inside
    obtain ⟨toplevel, present, rfl⟩ := List.mem_map.mp member
    refine ⟨toplevel, present, same, ?_⟩
    obtain ⟨transient, known, named⟩ := List.mem_map.mp owns
    rw [ToplevelWindow.GetTransientWindow, List.find?_isSome]
    exact ⟨transient, known, beq_iff_eq.mpr named⟩

/-- The window that is found is the one with the id. -/
theorem GetToplevelWindowByWindow_eq_none :
    manager.GetToplevelWindowByWindow xid = none ↔ ∀ keys ∈ manager.windows, keys.xid ≠ xid := by
  simp [GetToplevelWindowByWindow, LayoutManager.windows, ToplevelWindow.keys]

section Configuration

variable (configuration : LayoutConfiguration)

theorem HandleMapNotify_owned (owned : manager.Owned) {win : Window} {input_xid : XWindow}
    (taken : manager.HandleMapNotify configuration win input_xid = some next) : next.Owned := by
  refine ⟨HandleMapNotify_arranged configuration owned.toArranged taken, ?_⟩
  rw [HandleMapNotify] at taken
  split at taken
  · cases taken
    exact owned.registered
  · next unmapped =>
    have noted := owned.toArranged.with_mapped (win.xid :: manager.mapped)
    rcases HandleWindowMap_cases configuration noted.toAddressed taken with kept | ⟨owner, present, changed⟩ |
      changed
    · rw [kept.windows, kept.transients, kept.mapped]
      exact owned.registered.more win.xid
    · rw [changed.transients, changed.mapped]
      exact (owned.registered.own unmapped present).perm changed.windows
    · rw [changed.transients, changed.mapped]
      exact (owned.registered.insert unmapped _ _).perm changed.windows

omit configuration in
/-- A transient window that is unmapped is no longer in the map, and its owner does not know it. -/
theorem unmapTransient_registered (arranged : manager.Arranged)
    (registered : Registered manager.windows manager.transient_to_toplevel_ mapped)
    (taken : manager.unmapTransient xid = some next) :
    next.Arranged ∧ next.mapped = manager.mapped ∧
      Registered next.windows next.transient_to_toplevel_ mapped ∧
      (∀ entry ∈ next.transient_to_toplevel_, entry.1 ≠ xid) ∧
      ∀ keys ∈ next.windows, ∃ original ∈ manager.windows, original.xid = keys.xid ∧
        keys.transients ⊆ original.transients := by
  cases found : manager.GetToplevelWindowOwningTransientWindow xid with
  | none =>
    rw [unmapTransient, found] at taken
    cases taken
    refine ⟨arranged, rfl, registered, ?_, fun keys inside => ⟨keys, inside, rfl, List.Subset.refl _⟩⟩
    intro entry inside same
    rw [GetToplevelWindowOwningTransientWindow, List.lookup_eq_none_iff] at found
    simpa [same] using found entry inside
  | some owner =>
    have changed := unmapTransient_changed arranged.toAddressed found taken
    refine ⟨changed.arranged arranged, changed.mapped, ?_, ?_, ?_⟩
    · rw [changed.transients]
      exact (registered.disown found).perm changed.windows
    · intro entry inside
      rw [changed.transients] at inside
      exact bne_iff_ne.mp (List.mem_filter.mp inside).2
    · intro keys inside
      obtain ⟨original, member, rfl⟩ := List.mem_map.mp (changed.windows.mem_iff.mp inside)
      refine ⟨original, member, ?_⟩
      split
      · exact ⟨rfl, List.filter_subset_self _⟩
      · exact ⟨rfl, List.Subset.refl _⟩

theorem HandleUnmapNotify_owned (owned : manager.Owned)
    (unowning : manager.Unowning (.HandleUnmapNotify xid))
    (taken : manager.HandleUnmapNotify configuration xid = some next) : next.Owned := by
  refine ⟨HandleUnmapNotify_arranged configuration owned.toArranged taken, ?_⟩
  have noted := owned.toArranged.with_mapped (manager.mapped.filter fun other => other != xid)
  obtain ⟨middle, kept, rest⟩ := HandleWindowUnmap_eq configuration noted.toAddressed xid
  rw [HandleUnmapNotify, rest, Option.bind_eq_some_iff] at taken
  obtain ⟨last, unmapped, taken⟩ := taken
  have registered : Registered middle.windows middle.transient_to_toplevel_ manager.mapped := by
    rw [kept.windows, kept.transients]
    exact owned.registered
  obtain ⟨arranged, sameMapped, registered, noTransient, shrunk⟩ :=
    unmapTransient_registered (kept.arranged noted) registered unmapped
  have mapped : last.mapped = manager.mapped.filter fun other => other != xid :=
    sameMapped.trans kept.mapped
  cases found : last.GetToplevelWindowByWindow xid with
  | none =>
    rw [unmapToplevel, found] at taken
    cases taken
    rw [mapped]
    exact registered.unmap (GetToplevelWindowByWindow_eq_none.mp found) noTransient
  | some address =>
    obtain ⟨_, toplevel, others, again, inside, -, named, order, changed⟩ :=
      unmapToplevel_changed configuration arranged.toAddressed found
    obtain rfl := Option.some.inj (again.symm.trans taken)
    have unowned : toplevel.keys.transients = [] := by
      obtain ⟨keys, member, same, fewer⟩ := shrunk toplevel.keys (List.mem_map_of_mem inside)
      rw [kept.windows] at member
      obtain ⟨original, present, rfl⟩ := List.mem_map.mp member
      have none := unowning original present (same.trans named)
      have empty : original.keys.transients = [] := by rw [ToplevelWindow.keys, none]; rfl
      rw [empty] at fewer
      exact List.subset_nil.mp fewer
    have dropped := registered.drop order unowned
    have noToplevel : ∀ keys ∈ others, keys.xid ≠ xid := by
      intro keys member same
      have nodup := (List.nodup_cons.mp ((order.map _).nodup_iff.mp registered.xids)).1
      exact nodup (List.mem_map.mpr ⟨keys, member, same.trans named.symm⟩)
    rw [changed.transients, changed.mapped, mapped]
    exact (dropped.unmap noToplevel noTransient).perm changed.windows

/-- The entries of the transient windows stay when their owner goes. -/
theorem HandleUnmapNotify_dangling (owned : manager.Owned) {toplevel : ToplevelWindow}
    (inside : toplevel ∈ manager.toplevels_) (owning : toplevel.transients_ ≠ []) :
    ∃ next, manager.HandleUnmapNotify configuration toplevel.win_.xid = some next ∧ ¬ next.ReferencesLive := by
  have noted := owned.toArranged.with_mapped
    (manager.mapped.filter fun other => other != toplevel.win_.xid)
  obtain ⟨middle, kept, rest⟩ := HandleWindowUnmap_eq configuration noted.toAddressed toplevel.win_.xid
  have member : toplevel.keys ∈ manager.windows := List.mem_map_of_mem inside
  have untouched : middle.unmapTransient toplevel.win_.xid = some middle := by
    have unowned : middle.GetToplevelWindowOwningTransientWindow toplevel.win_.xid = none := by
      rw [GetToplevelWindowOwningTransientWindow, kept.transients, List.lookup_eq_none_iff]
      intro entry used
      exact bne_iff_ne.mpr (owned.registered.apart entry used toplevel.keys member)
    rw [unmapTransient, unowned]
  obtain ⟨address, found⟩ : ∃ address, middle.GetToplevelWindowByWindow toplevel.win_.xid = some address := by
    refine Option.ne_none_iff_exists'.mp fun absent => ?_
    refine GetToplevelWindowByWindow_eq_none.mp absent toplevel.keys ?_ rfl
    rw [kept.windows]
    exact member
  obtain ⟨next, gone, others, unmapped, present, -, named, order, changed⟩ :=
    unmapToplevel_changed configuration kept.addressed found
  refine ⟨next, ?_, fun live => ?_⟩
  · rw [HandleUnmapNotify, rest, untouched]
    exact unmapped
  · have same : gone.keys = toplevel.keys := by
      have goneMember : gone.keys ∈ middle.windows := List.mem_map_of_mem present
      rw [kept.windows] at goneMember
      exact List.inj_on_of_nodup_map owned.registered.xids goneMember member named
    obtain ⟨transient, owns⟩ := List.exists_mem_of_ne_nil _ owning
    have entry : (transient.xid, toplevel.address) ∈ next.transient_to_toplevel_ := by
      rw [changed.transients, kept.transients]
      exact (owned.registered.agree _ _).mpr ⟨toplevel.keys, member, rfl, List.mem_map_of_mem owns⟩
    obtain ⟨other, stays, sameAddress, -⟩ := live.transients _ entry
    have nodup := kept.addressed.nodup
    rw [addresses, (order.map _).nodup_iff, List.map_cons, List.nodup_cons, same] at nodup
    refine nodup.1 (List.mem_map.mpr ⟨other.keys, changed.windows.mem_iff.mp ?_, sameAddress⟩)
    exact List.mem_map_of_mem stays

theorem step_owned (owned : manager.Owned) {event : LayoutEvent} (unowning : manager.Unowning event)
    (taken : manager.step configuration event = some next) : next.Owned := by
  by_cases mapping : ∃ win input_xid, event = .HandleMapNotify win input_xid
  · obtain ⟨win, input_xid, rfl⟩ := mapping
    exact HandleMapNotify_owned configuration owned taken
  · by_cases unmapping : ∃ xid, event = .HandleUnmapNotify xid
    · obtain ⟨xid, rfl⟩ := unmapping
      exact HandleUnmapNotify_owned configuration owned unowning taken
    · obtain ⟨arranged, _, _, _, kept⟩ := step_kept configuration owned.toArranged
        (fun win input_xid same => mapping ⟨win, input_xid, same⟩)
        (fun xid same => unmapping ⟨xid, same⟩) taken
      refine ⟨arranged, ?_⟩
      rw [kept.windows, kept.transients, kept.mapped]
      exact owned.registered

omit configuration in
theorem new_owned (width height : ℤ) : (new width height).Owned := by
  refine ⟨new_arranged width height, List.nodup_nil, ?_, List.nodup_nil, ?_, ?_, ?_⟩
  · intro _ inside
    cases inside
  · intro _ inside
    cases inside
  · intro _ inside
    cases inside
  · intro xid address
    constructor
    · intro inside
      cases inside
    · rintro ⟨_, inside, -⟩
      cases inside

/-- The references stay live exactly as long as no toplevel window is unmapped that has transient windows. -/
theorem references_live_iff (width height : ℤ) (events : List LayoutEvent) :
    PartialRun.Always (step configuration) ReferencesLive (new width height) events ↔
      PartialRun.Throughout (step configuration) Unowning (new width height) events := by
  refine PartialRun.always_iff_throughout Owned (fun _ owned => owned.live)
    (fun _ _ _ owned unowning taken => step_owned configuration owned unowning taken) ?_
    (new_owned width height) events
  intro manager event owned owning
  cases event with
  | HandleUnmapNotify xid =>
    simp only [Unowning, not_forall] at owning
    obtain ⟨toplevel, inside, rfl, owns⟩ := owning
    exact HandleUnmapNotify_dangling configuration owned inside owns
  | _ => exact absurd trivial owning

end Configuration

/-- A browser window, a dialog of it, and a layout manager for them. -/
def browserWindow : Window where
  xid := 1
  type := .WINDOW_TYPE_CHROME_TOPLEVEL
  type_params := []
  override_redirect := false
  transient_for_xid := none
  wm_state_modal := false
  client_x := 0
  client_y := 0
  client_width := 640
  client_height := 480

def dialogWindow : Window := { browserWindow with
  xid := 2, type := .WINDOW_TYPE_UNKNOWN, transient_for_xid := some 1 }

def plainLayout : LayoutConfiguration where
  lm_new_overview_mode := false
  GetMaxSize _ width height := (width, height)
  tabIsAt _ _ _ := false
  toplevelAt _ _ _ := none
  atTabSummary _ _ _ := false
  inBottomArea _ _ _ := false

/-- The browser window goes before its dialog does. -/
theorem dialog_outlives_browser : ¬ PartialRun.Always (step plainLayout) ReferencesLive (new 1024 768)
    [.HandleMapNotify browserWindow 10, .HandleMapNotify dialogWindow 11, .HandleUnmapNotify 1] := by
  intro always
  obtain ⟨manager, reached, entries, empty⟩ : ∃ manager,
      PartialRun.run (step plainLayout) (new 1024 768)
        [.HandleMapNotify browserWindow 10, .HandleMapNotify dialogWindow 11, .HandleUnmapNotify 1] =
          some manager ∧ manager.transient_to_toplevel_ = [(2, 0)] ∧ manager.toplevels_ = [] :=
    ⟨_, rfl, rfl, rfl⟩
  have live := always _ (List.prefix_refl _) manager reached
  obtain ⟨toplevel, inside, -⟩ := live.transients (2, 0) (entries ▸ List.mem_cons_self)
  rw [empty] at inside
  cases inside

end ChromiumOS.WindowManager.LayoutManager
