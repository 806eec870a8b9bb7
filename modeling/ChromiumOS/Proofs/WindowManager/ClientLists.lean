import ChromiumOS.Proofs.WindowManager.StackingMirror

/-! # The lists of clients

The two properties of the root window list the windows that are mapped, tracked and not
`override_redirect`, one in the order of mapping and the other in the stacking order. Each handler
publishes a property when the list behind it changes, as long as a window that is destroyed is not mapped
any more.
-/

namespace ChromiumOS.WindowManager

variable {root next : RootWindow} {manager : Wm} {window xid : XWindow} {win : ClientWindow}
  {answers : WindowAnswers}

namespace Wm

theorem GetWindow_xid (found : manager.GetWindow xid = some win) : win.xid = xid := by
  simpa using List.find?_some found

theorem GetWindow_eraseClient : (manager.eraseClient window).GetWindow xid =
    if xid = window then none else manager.GetWindow xid := by
  rw [GetWindow, eraseClient, List.find?_filter]
  split
  · next same =>
    subst same
    simp
  · next different =>
    rw [GetWindow]
    congr 1
    funext win
    by_cases same : win.xid = xid
    · simp [same, different]
    · simp [same]

theorem GetWindow_set_mapped (mapped : Bool) : (manager.set_mapped window mapped).GetWindow xid =
    (manager.GetWindow xid).map fun win => if xid = window then { win with mapped } else win := by
  rw [GetWindow, set_mapped, List.find?_map]
  have sameXid (win : ClientWindow) : (if win.xid = window then { win with mapped } else win).xid = win.xid := by
    split <;> rfl
  simp only [Function.comp_def, sameXid]
  rw [GetWindow]
  cases found : manager.client_windows_.find? fun win => win.xid == xid with
  | none => rfl
  | some win =>
    have same : win.xid = xid := GetWindow_xid found
    rw [Option.map_some, Option.map_some, same]

theorem listed_of_unknown (unknown : manager.GetWindow xid = none) : manager.listed xid = false := by
  rw [listed, unknown]
  rfl

theorem listed_eraseClient : (manager.eraseClient window).listed =
    fun xid => xid != window && manager.listed xid := by
  funext xid
  rw [listed, GetWindow_eraseClient]
  split
  · next same => simp [same]
  · next different =>
    rw [bne_iff_ne.mpr different, Bool.true_and]
    rfl

theorem listed_unmapped : (manager.set_mapped window false).listed =
    fun xid => xid != window && manager.listed xid := by
  funext xid
  rw [listed, GetWindow_set_mapped, Option.any_map, listed]
  by_cases same : xid = window
  · simp [same]
  · simp [same]

theorem listed_mapped (found : manager.GetWindow window = some win) :
    (manager.set_mapped window true).listed =
      fun xid => if xid = window then !win.override_redirect else manager.listed xid := by
  funext xid
  rw [listed, GetWindow_set_mapped]
  split
  · next same =>
    subst same
    rw [found]
    rfl
  · next different => simp [listed]

theorem listed_TrackWindow (unknown : manager.GetWindow window = none) (override_redirect : Bool)
    (answers : WindowAnswers) :
    (manager.TrackWindow window override_redirect answers).2.listed = manager.listed := by
  rw [TrackWindow]
  split
  · rfl
  · split
    · rfl
    · rw [unknown]
      funext xid
      by_cases same : xid = window
      · subst same
        rw [listed_of_unknown unknown]
        simp [listed, GetWindow]
      · have other : (window == xid) = false := beq_eq_false_iff_ne.mpr (Ne.symm same)
        simp [listed, GetWindow, other]

end Wm

/-- The windows that are tracked and mapped are known as such. -/
structure Consistent (root : RootWindow) (manager : Wm) : Prop extends Mirrors root manager where
  mappedChildren : ∀ xid ∈ root.mapped, xid ∈ root.children
  mappedNodup : root.mapped.Nodup
  flags : ∀ xid win, manager.GetWindow xid = some win → win.mapped = decide (xid ∈ root.mapped)
  mappedXids : manager.mapped_xids_.items.reverse = root.mapped.filter manager.listed

/-- The lists of clients are published. -/
structure Published (root : RootWindow) (manager : Wm) : Prop extends Consistent root manager where
  clientList : manager._NET_CLIENT_LIST = Wm.publish (root.mapped.filter manager.listed)
  stackingList : manager._NET_CLIENT_LIST_STACKING =
    Wm.publish (root.children.reverse.filter manager.listed)

namespace Consistent

theorem mapped_of_listed (consistent : Consistent root manager) (listed : manager.listed xid = true) :
    xid ∈ root.mapped := by
  rw [Wm.listed, Option.any_eq_true] at listed
  obtain ⟨win, found, flagged⟩ := listed
  rw [consistent.flags xid win found, Bool.and_eq_true] at flagged
  exact of_decide_eq_true flagged.1

theorem unlisted (consistent : Consistent root manager) (unmapped : xid ∉ root.mapped) :
    manager.listed xid = false := by
  rw [← Bool.not_eq_true]
  exact fun listed => unmapped (consistent.mapped_of_listed listed)

theorem unknown (consistent : Consistent root manager) (absent : xid ∉ root.children) :
    manager.GetWindow xid = none :=
  Wm.GetWindow_eq_none.mpr fun inside => absent (consistent.clients xid inside)

/-- The stacking order is published when it is wanted. -/
theorem published_stacking (consistent : Consistent root manager)
    (clientList : manager._NET_CLIENT_LIST = Wm.publish (root.mapped.filter manager.listed)) :
    Published root manager.UpdateClientListStackingProperty := by
  refine ⟨⟨⟨consistent.stacked, consistent.clients⟩, consistent.mappedChildren, consistent.mappedNodup,
    consistent.flags, consistent.mappedXids⟩, clientList, ?_⟩
  rw [Wm.UpdateClientListStackingProperty, consistent.stacked]
  rfl

theorem clientList_updated (consistent : Consistent root manager) :
    manager.UpdateClientListProperty._NET_CLIENT_LIST =
      Wm.publish (root.mapped.filter manager.listed) := by
  rw [Wm.UpdateClientListProperty, consistent.mappedXids, List.filter_filter]
  simp only [Bool.and_self]

theorem published (consistent : Consistent root manager) :
    Published root manager.UpdateClientListProperty.UpdateClientListStackingProperty := by
  have updated : Consistent root manager.UpdateClientListProperty :=
    ⟨⟨consistent.stacked, consistent.clients⟩, consistent.mappedChildren, consistent.mappedNodup,
      consistent.flags, consistent.mappedXids⟩
  exact updated.published_stacking consistent.clientList_updated

end Consistent

namespace Wm

theorem enter_eq (entered : root.enter window = some next) :
    window ∉ root.children ∧ next = { root with children := window :: root.children } := by
  rw [RootWindow.enter] at entered
  split at entered
  · cases entered
  · next absent =>
    cases entered
    exact ⟨absent, rfl⟩

/-- A child that comes is not tracked, so it is in neither list. -/
theorem enter_published (published : Published root manager) (entered : root.enter window = some next) :
    Published next { manager with stacked_xids_ := manager.stacked_xids_.AddOnTop window } := by
  have mirrors := published.toMirrors.enter entered
  obtain ⟨absent, rfl⟩ := enter_eq entered
  have unlisted := listed_of_unknown (published.unknown absent)
  refine ⟨⟨mirrors, fun xid inside => List.mem_cons_of_mem _ (published.mappedChildren xid inside),
    published.mappedNodup, published.flags, published.mappedXids⟩, published.clientList, ?_⟩
  change manager._NET_CLIENT_LIST_STACKING =
    publish ((window :: root.children).reverse.filter manager.listed)
  rw [List.reverse_cons, List.filter_append, List.filter_cons_of_neg (by rw [unlisted]; exact Bool.false_ne_true),
    List.filter_nil, List.append_nil]
  exact published.stackingList

theorem TrackWindow_fields (override_redirect : Bool) (answers : WindowAnswers) :
    ∃ clients, (manager.TrackWindow window override_redirect answers).2 =
      { manager with client_windows_ := clients } := by
  rw [TrackWindow]
  split
  · exact ⟨_, rfl⟩
  · split
    · exact ⟨_, rfl⟩
    · split <;> exact ⟨_, rfl⟩

/-- A window is tracked as one that is not mapped. -/
theorem GetWindow_TrackWindow (unknown : manager.GetWindow window = none) {override_redirect : Bool}
    (found : (manager.TrackWindow window override_redirect answers).2.GetWindow xid = some win) :
    (xid = window ∧ win.mapped = false) ∨ manager.GetWindow xid = some win := by
  rw [TrackWindow] at found
  split at found
  · exact .inr found
  · split at found
    · exact .inr found
    · rw [unknown] at found
      by_cases same : window = xid
      · subst same
        simp only [GetWindow, List.find?_cons, beq_self_eq_true] at found
        cases found
        exact .inl ⟨rfl, rfl⟩
      · have other : (window == xid) = false := beq_eq_false_iff_ne.mpr same
        simp only [GetWindow, List.find?_cons, other] at found
        exact .inr found

theorem track_published (published : Published root manager) (unknown : manager.GetWindow window = none)
    (present : window ∈ root.children) (unmapped : window ∉ root.mapped) (override_redirect : Bool)
    (answers : WindowAnswers) :
    Published root (manager.TrackWindow window override_redirect answers).2 := by
  have mirrors := published.toMirrors.track present override_redirect answers
  have listed := listed_TrackWindow unknown override_redirect answers
  have flags : ∀ xid win, (manager.TrackWindow window override_redirect answers).2.GetWindow xid = some win →
      win.mapped = decide (xid ∈ root.mapped) := by
    intro xid win found
    rcases GetWindow_TrackWindow unknown found with ⟨rfl, flag⟩ | old
    · rw [flag]
      exact (decide_eq_false unmapped).symm
    · exact published.flags xid win old
  obtain ⟨clients, fields⟩ : ∃ clients, (manager.TrackWindow window override_redirect answers).2 =
    { manager with client_windows_ := clients } := TrackWindow_fields override_redirect answers
  rw [fields] at mirrors listed flags ⊢
  refine ⟨⟨mirrors, published.mappedChildren, published.mappedNodup, flags, ?_⟩, ?_, ?_⟩
  · rw [listed]
    exact published.mappedXids
  · rw [listed]
    exact published.clientList
  · rw [listed]
    exact published.stackingList

theorem HandleCreateNotify_published (published : Published root manager) (override_redirect : Bool)
    (answers : WindowAnswers) (entered : root.enter window = some next) :
    Published next (manager.HandleCreateNotify window true override_redirect answers) := by
  have stacked := enter_published published entered
  obtain ⟨absent, rfl⟩ := enter_eq entered
  have unknown := published.unknown absent
  rw [HandleCreateNotify, unknown]
  simp only [Option.isSome_none, Bool.false_eq_true, if_false, Bool.not_true]
  split
  · exact stacked
  · refine track_published stacked unknown List.mem_cons_self ?_ override_redirect answers
    exact fun mapped => absent (published.mappedChildren window mapped)

/-! ## Stacking -/

theorem restack_mapped {above : Option XWindow} (restacked : root.restack window above = some next) :
    next.mapped = root.mapped := by
  cases above with
  | none =>
    cases restacked
    rfl
  | some above =>
    rw [RootWindow.restack] at restacked
    split at restacked
    · cases restacked
      rfl
    · cases restacked

theorem restack_filter {keep : XWindow → Bool} (dropped : keep window = false) {above : Option XWindow}
    (restacked : root.restack window above = some next) :
    next.children.filter keep = root.children.filter keep := by
  cases above with
  | none =>
    cases restacked
    rw [List.filter_append, ListOrder.filter_erase dropped,
      List.filter_cons_of_neg (by rw [dropped]; exact Bool.false_ne_true), List.filter_nil, List.append_nil]
  | some above =>
    rw [RootWindow.restack] at restacked
    split at restacked
    · cases restacked
      rw [ListOrder.filter_insertBefore dropped, ListOrder.filter_erase dropped]
    · cases restacked

theorem restack_fields (manager : Wm) (window : XWindow) (above : Option XWindow) :
    (∃ stacked, (manager.restack window above).2 = { manager with stacked_xids_ := stacked }) ∧
      ((manager.restack window above).1 = false → (manager.restack window above).2 = manager) := by
  rw [restack]
  split
  · exact ⟨⟨_, rfl⟩, fun _ => rfl⟩
  · exact ⟨⟨_, rfl⟩, fun unmoved => by cases unmoved⟩

theorem listed_of_override (found : manager.GetWindow window = some win)
    (overriding : win.override_redirect = true) : manager.listed window = false := by
  rw [listed, found]
  simp [overriding]

/-- The stacking order of the clients changes only when one of them is restacked. -/
theorem HandleConfigureNotify_published (published : Published root manager)
    (present : window ∈ root.children) {above : Option XWindow}
    (restacked : root.restack window above = some next) :
    Published next (manager.HandleConfigureNotify window above) := by
  have stacked := restack_stacked published.toMirrors present restacked
  have same := RootWindow.restack_mem present restacked
  have mapped := restack_mapped restacked
  have contained : manager.stacked_xids_.Contains window = true := by
    rw [Stacker.Contains, published.stacked]
    exact decide_eq_true present
  obtain ⟨⟨order, fields⟩, unmoved⟩ := restack_fields manager window above
  rw [HandleConfigureNotify, contained, Bool.not_true, if_neg Bool.false_ne_true]
  dsimp only
  have consistent : Consistent next (manager.restack window above).2 := by
    rw [fields] at stacked ⊢
    refine ⟨⟨stacked, fun xid inside => (same xid).mpr (published.clients xid inside)⟩, ?_, ?_, ?_, ?_⟩
    · intro xid inside
      exact (same xid).mpr (published.mappedChildren xid (mapped ▸ inside))
    · rw [mapped]
      exact published.mappedNodup
    · rw [mapped]
      exact published.flags
    · rw [mapped]
      exact published.mappedXids
  have clientList : (manager.restack window above).2._NET_CLIENT_LIST =
      publish (next.mapped.filter (manager.restack window above).2.listed) := by
    rw [fields, mapped]
    exact published.clientList
  have untouched (unlisted : manager.listed window = false) :
      Published next (manager.restack window above).2 := by
    refine ⟨consistent, clientList, ?_⟩
    rw [fields]
    change manager._NET_CLIENT_LIST_STACKING = publish (next.children.reverse.filter manager.listed)
    rw [List.filter_reverse, restack_filter unlisted restacked, ← List.filter_reverse]
    exact published.stackingList
  split
  · next unknown =>
    rw [fields] at unknown
    exact untouched (listed_of_unknown unknown)
  · next win found =>
    split
    · exact consistent.published_stacking clientList
    · next idle =>
      cases overriding : win.override_redirect with
      | true =>
        rw [fields] at found
        exact untouched (listed_of_override found overriding)
      | false =>
        have still : (manager.restack window above).1 = false := by simpa [overriding] using idle
        refine ⟨consistent, clientList, ?_⟩
        rw [← stacked, unmoved still, published.stacked]
        exact published.stackingList

/-! ## Windows that go -/

theorem reverse_erase {list : List XWindow} (nodup : list.Nodup) (xid : XWindow) :
    (list.erase xid).reverse = list.reverse.erase xid := by
  rw [nodup.erase_eq_filter, (List.nodup_reverse.mpr nodup).erase_eq_filter, List.filter_reverse]

/-- What has to be done for a window that leaves the root window. -/
theorem leave_published (published : Published root manager) {other : Wm}
    (mirrors : Mirrors (root.leave window) other)
    (clients : other.client_windows_ = (manager.eraseClient window).client_windows_)
    (mappedXids : other.mapped_xids_.items = manager.mapped_xids_.items.erase window)
    (clientList : other._NET_CLIENT_LIST = publish ((root.mapped.filter manager.listed).erase window))
    (stackingList : other._NET_CLIENT_LIST_STACKING =
      publish ((root.children.erase window).reverse.filter manager.listed)) :
    Published (root.leave window) other := by
  have found (xid : XWindow) : other.GetWindow xid = (manager.eraseClient window).GetWindow xid := by
    rw [GetWindow, clients]
    rfl
  have listed : other.listed = fun xid => xid != window && manager.listed xid := by
    rw [← listed_eraseClient]
    funext xid
    rw [Wm.listed, found]
    rfl
  have nodup := published.mappedNodup
  have children : root.children.Nodup := published.stacked ▸ manager.stacked_xids_.nodup
  have left : (root.mapped.erase window).filter other.listed =
      (root.mapped.filter manager.listed).erase window := by
    rw [listed, nodup.erase_eq_filter, (nodup.filter _).erase_eq_filter, List.filter_filter, List.filter_filter]
    apply List.filter_congr
    intro xid _
    cases xid != window <;> simp
  refine ⟨⟨mirrors, ?_, nodup.erase window, ?_, ?_⟩, ?_, ?_⟩
  · intro xid inside
    obtain ⟨different, inside⟩ := nodup.mem_erase_iff.mp inside
    exact children.mem_erase_iff.mpr ⟨different, published.mappedChildren xid inside⟩
  · intro xid win known
    rw [found, GetWindow_eraseClient] at known
    split at known
    · cases known
    · next different =>
      rw [published.flags xid win known]
      exact decide_eq_decide.mpr (List.mem_erase_of_ne different).symm
  · rw [mappedXids, reverse_erase manager.mapped_xids_.nodup, published.mappedXids]
    exact left.symm
  · rw [clientList]
    exact congrArg publish left.symm
  · rw [stackingList, listed]
    apply congrArg publish
    apply List.filter_congr
    intro xid inside
    have different := (children.mem_erase_iff.mp (List.mem_reverse.mp inside)).1
    rw [bne_iff_ne.mpr different, Bool.true_and]

theorem eraseClient_of_unknown (unknown : manager.GetWindow window = none) :
    (manager.eraseClient window).client_windows_ = manager.client_windows_ := by
  rw [eraseClient, List.filter_eq_self]
  intro win inside
  refine bne_iff_ne.mpr fun same => GetWindow_eq_none.mp unknown ?_
  exact same ▸ List.mem_map_of_mem inside

/-- The stacking order of the clients without a window that is not one. -/
theorem stackingList_of_unlisted (published : Published root manager)
    (unlisted : manager.listed window = false) : manager._NET_CLIENT_LIST_STACKING =
      publish ((root.children.erase window).reverse.filter manager.listed) := by
  rw [published.stackingList, List.filter_reverse, List.filter_reverse, ListOrder.filter_erase unlisted]

theorem HandleDestroyNotify_published (published : Published root manager)
    (unmapped : window ∉ root.mapped) :
    Published (root.leave window) (manager.HandleDestroyNotify window) := by
  have mirrors := HandleDestroyNotify_mirrors published.toMirrors window
  have unlisted := published.unlisted unmapped
  have unmappedXid : window ∉ root.mapped.filter manager.listed :=
    fun inside => unmapped (List.mem_filter.mp inside).1
  have mappedXids : manager.mapped_xids_.items = manager.mapped_xids_.items.erase window := by
    rw [List.erase_of_not_mem]
    rwa [← List.mem_reverse, published.mappedXids]
  have clientList : manager._NET_CLIENT_LIST = publish ((root.mapped.filter manager.listed).erase window) := by
    rw [List.erase_of_not_mem unmappedXid]
    exact published.clientList
  have stackingList := stackingList_of_unlisted published unlisted
  rw [HandleDestroyNotify] at mirrors ⊢
  split
  · next unknown =>
    rw [unknown] at mirrors
    exact leave_published published mirrors (eraseClient_of_unknown unknown).symm mappedXids clientList
      stackingList
  · next win found =>
    rw [found] at mirrors
    dsimp only at mirrors
    split
    · next overriding =>
      rw [if_pos overriding] at mirrors
      exact leave_published published mirrors rfl mappedXids clientList stackingList
    · next tracked =>
      rw [if_neg tracked] at mirrors
      refine leave_published published mirrors rfl mappedXids clientList ?_
      rw [← published.stacked]
      rfl

/-- What is left of the list of mapped windows is published. -/
theorem removeMapped_spec (manager : Wm) (nodup : root.mapped.Nodup)
    (mappedXids : manager.mapped_xids_.items.reverse = root.mapped.filter manager.listed)
    (clientList : manager._NET_CLIENT_LIST = publish (root.mapped.filter manager.listed))
    (window : XWindow) :
    (manager.removeMapped window).mapped_xids_.items = manager.mapped_xids_.items.erase window ∧
      (manager.removeMapped window)._NET_CLIENT_LIST =
        publish ((root.mapped.filter manager.listed).erase window) ∧
      (manager.removeMapped window)._NET_CLIENT_LIST_STACKING = manager._NET_CLIENT_LIST_STACKING := by
  rw [removeMapped]
  split
  · refine ⟨rfl, ?_, rfl⟩
    change publish ((manager.mapped_xids_.items.erase window).reverse.filter manager.listed) = _
    rw [reverse_erase manager.mapped_xids_.nodup, mappedXids, (nodup.filter _).erase_eq_filter,
      List.filter_filter, List.filter_filter]
    apply congrArg publish
    rw [List.filter_filter]
    apply List.filter_congr
    intro xid _
    cases xid != window <;> simp
  · next absent =>
    have absent : window ∉ manager.mapped_xids_.items := by simpa [Stacker.Contains] using absent
    refine ⟨(List.erase_of_not_mem absent).symm, ?_, rfl⟩
    rw [List.erase_of_not_mem]
    · exact clientList
    · rwa [← mappedXids, List.mem_reverse]

theorem HandleReparentNotify_published (published : Published root manager) (window : XWindow) :
    Published (root.leave window) (manager.HandleReparentNotify window false) := by
  have mirrors := HandleReparentNotify_mirrors published.toMirrors window
  rw [HandleReparentNotify, if_neg Bool.false_ne_true] at mirrors ⊢
  split
  · next absent =>
    have unknown : window ∉ root.children := by
      simpa [Stacker.Contains, published.stacked] using absent
    have unmapped : window ∉ root.mapped := fun inside => unknown (published.mappedChildren window inside)
    rw [RootWindow.leave, List.erase_of_not_mem unknown, List.erase_of_not_mem unmapped]
    exact published
  · next present =>
    rw [if_neg present] at mirrors
    dsimp only at mirrors ⊢
    obtain ⟨stacked, clients⟩ :=
      removeMapped_same { manager with stacked_xids_ := manager.stacked_xids_.Remove window } window
    obtain ⟨mappedXids, clientList, stackingList⟩ :=
      removeMapped_spec { manager with stacked_xids_ := manager.stacked_xids_.Remove window }
        published.mappedNodup published.mappedXids published.clientList window
    generalize Wm.removeMapped _ _ = removed at *
    replace stackingList : removed._NET_CLIENT_LIST_STACKING = manager._NET_CLIENT_LIST_STACKING :=
      stackingList
    have erased : (removed.eraseClient window).client_windows_ =
        (manager.eraseClient window).client_windows_ := by
      rw [eraseClient, clients]
      rfl
    have sameListed : removed.listed = manager.listed := by
      funext xid
      rw [listed, GetWindow, clients]
      rfl
    split
    · next unknown =>
      rw [unknown] at mirrors
      have unknown' : manager.GetWindow window = none := by rwa [GetWindow, clients] at unknown
      refine leave_published published mirrors ?_ mappedXids clientList ?_
      · rw [clients]
        exact (eraseClient_of_unknown unknown').symm
      · rw [stackingList]
        exact stackingList_of_unlisted published (listed_of_unknown unknown')
    · next win found =>
      rw [found] at mirrors
      dsimp only at mirrors
      have found' : manager.GetWindow window = some win := by rwa [GetWindow, clients] at found
      split
      · next overriding =>
        rw [if_pos overriding] at mirrors
        refine leave_published published mirrors erased mappedXids clientList ?_
        refine stackingList.trans (stackingList_of_unlisted published ?_)
        exact listed_of_override found' overriding
      · next tracked =>
        rw [if_neg tracked] at mirrors
        refine leave_published published mirrors erased mappedXids clientList ?_
        change publish (removed.stacked_xids_.items.reverse.filter removed.listed) = _
        rw [sameListed, stacked, ← published.stacked]
        rfl

/-! ## Mapping -/

theorem decide_mem_concat {list : List XWindow} (different : xid ≠ window) :
    decide (xid ∈ list ++ [window]) = decide (xid ∈ list) := by
  simp [different]

/-- A window that is mapped has its flag set. -/
theorem flags_mapped (consistent : Consistent root manager) (window : XWindow) :
    ∀ xid win, (manager.set_mapped window true).GetWindow xid = some win →
      win.mapped = decide (xid ∈ root.mapped ++ [window]) := by
  intro xid win found
  rw [GetWindow_set_mapped] at found
  obtain ⟨before, known, rfl⟩ := Option.map_eq_some_iff.mp found
  split
  · next same => simp [same]
  · next different =>
    rw [decide_mem_concat different]
    exact consistent.flags xid before known

theorem mappedChildren_concat (consistent : Consistent root manager) (present : window ∈ root.children) :
    ∀ xid ∈ root.mapped ++ [window], xid ∈ root.children := by
  intro xid inside
  rcases List.mem_append.mp inside with old | new
  · exact consistent.mappedChildren xid old
  · exact List.mem_singleton.mp new ▸ present

theorem nodup_concat {list : List XWindow} (nodup : list.Nodup) (absent : window ∉ list) :
    (list ++ [window]).Nodup :=
  (List.perm_append_singleton window list).nodup_iff.mpr (List.nodup_cons.mpr ⟨absent, nodup⟩)

theorem filter_concat_of_unlisted {keep : XWindow → Bool} (dropped : keep window = false)
    (list : List XWindow) : (list ++ [window]).filter keep = list.filter keep := by
  rw [List.filter_append, List.filter_cons_of_neg (by rw [dropped]; exact Bool.false_ne_true),
    List.filter_nil, List.append_nil]

/-- A window that is not tracked may be mapped. -/
theorem map_untracked (published : Published root manager) (unknown : manager.GetWindow window = none) :
    Published (root.map window) manager := by
  rw [RootWindow.map]
  split
  · next new =>
    have unlisted := listed_of_unknown unknown
    have same := filter_concat_of_unlisted unlisted root.mapped
    refine ⟨⟨⟨published.stacked, published.clients⟩,
      mappedChildren_concat published.toConsistent new.1, nodup_concat published.mappedNodup new.2, ?_, ?_⟩,
      ?_, published.stackingList⟩
    · intro xid win found
      have different : xid ≠ window := by
        rintro rfl
        rw [unknown] at found
        cases found
      rw [decide_mem_concat different]
      exact published.flags xid win found
    · rw [same]
      exact published.mappedXids
    · rw [same]
      exact published.clientList
  · exact published

/-- A window that is mapped goes to the end of the list, if it is listed at all. -/
theorem map_tracked (published : Published root manager) (found : manager.GetWindow window = some win)
    (new : window ∈ root.children ∧ window ∉ root.mapped) :
    Published { root with mapped := root.mapped ++ [window] }
      ((manager.set_mapped window true).HandleMappedWindow win) := by
  have listed := listed_mapped found
  have unlisted := published.unlisted new.2
  have flags := flags_mapped published.toConsistent window
  have clients : ∀ xid ∈ (manager.set_mapped window true).clientXids, xid ∈ root.children := by
    rw [set_mapped_xids]
    exact published.clients
  have children := mappedChildren_concat published.toConsistent new.1
  have nodup := nodup_concat published.mappedNodup new.2
  rw [HandleMappedWindow]
  cases overriding : win.override_redirect with
  | true =>
    have same : (manager.set_mapped window true).listed = manager.listed := by
      rw [listed]
      funext xid
      split
      · next same => rw [same, unlisted, overriding, Bool.not_true]
      · rfl
    have filtered := filter_concat_of_unlisted unlisted root.mapped
    rw [if_pos rfl]
    refine ⟨⟨⟨published.stacked, clients⟩, children, nodup, flags, ?_⟩, ?_, ?_⟩
    · rw [same, filtered]
      exact published.mappedXids
    · rw [same, filtered]
      exact published.clientList
    · rw [same]
      exact published.stackingList
  | false =>
    have absent : window ∉ manager.mapped_xids_.items := by
      rw [← List.mem_reverse, published.mappedXids]
      exact fun inside => new.2 (List.mem_filter.mp inside).1
    have uncontained : (manager.set_mapped window true).mapped_xids_.Contains win.xid = false := by
      rw [GetWindow_xid found]
      exact decide_eq_false absent
    rw [if_neg Bool.false_ne_true, uncontained, if_neg Bool.false_ne_true]
    refine Consistent.published ⟨⟨published.stacked, clients⟩, children, nodup, flags, ?_⟩
    change (manager.mapped_xids_.AddOnTop win.xid).items.reverse =
      (root.mapped ++ [window]).filter (manager.set_mapped window true).listed
    rw [GetWindow_xid found, Stacker.items_AddOnTop absent, List.reverse_cons, published.mappedXids, listed,
      List.filter_append, List.filter_cons_of_pos (by simp [overriding]), List.filter_nil]
    congr 1
    apply List.filter_congr
    intro xid inside
    rw [if_neg]
    rintro rfl
    exact new.2 inside

theorem HandleMapNotify_published (published : Published root manager) (window : XWindow) :
    Published (root.map window) (manager.HandleMapNotify window) := by
  rw [HandleMapNotify]
  split
  · next unknown => exact map_untracked published unknown
  · next win found =>
    have flag := published.flags window win found
    have present : window ∈ root.children := by
      refine published.clients window ?_
      by_contra absent
      rw [GetWindow_eq_none.mpr absent] at found
      cases found
    split
    · next mapped =>
      have old : window ∈ root.mapped := by simpa [mapped] using flag
      rw [RootWindow.map, if_neg fun new => new.2 old]
      exact published
    · next unmapped =>
      have new : window ∉ root.mapped := by simpa [unmapped] using flag
      rw [RootWindow.map, if_pos ⟨present, new⟩]
      exact map_tracked published found ⟨present, new⟩

/-- A window that is not tracked may be unmapped. -/
theorem unmap_untracked (published : Published root manager) (unknown : manager.GetWindow window = none) :
    Published { root with mapped := root.mapped.erase window } manager := by
  have same := ListOrder.filter_erase (listed_of_unknown unknown) root.mapped
  refine ⟨⟨⟨published.stacked, published.clients⟩, ?_, published.mappedNodup.erase window, ?_, ?_⟩, ?_,
    published.stackingList⟩
  · intro xid inside
    exact published.mappedChildren xid (List.mem_of_mem_erase inside)
  · intro xid win found
    have different : xid ≠ window := by
      rintro rfl
      rw [unknown] at found
      cases found
    rw [published.flags xid win found]
    exact decide_eq_decide.mpr (List.mem_erase_of_ne different).symm
  · rw [same]
    exact published.mappedXids
  · rw [same]
    exact published.clientList

theorem flags_unmapped (consistent : Consistent root manager) (window : XWindow) :
    ∀ xid win, (manager.set_mapped window false).GetWindow xid = some win →
      win.mapped = decide (xid ∈ root.mapped.erase window) := by
  intro xid win found
  rw [GetWindow_set_mapped] at found
  obtain ⟨before, known, rfl⟩ := Option.map_eq_some_iff.mp found
  split
  · next same =>
    subst same
    exact (decide_eq_false consistent.mappedNodup.not_mem_erase).symm
  · next different =>
    rw [consistent.flags xid before known]
    exact decide_eq_decide.mpr (List.mem_erase_of_ne different).symm

/-- A window that is unmapped is listed no longer. -/
theorem HandleUnmapNotify_published (published : Published root manager) (window : XWindow) :
    Published { root with mapped := root.mapped.erase window } (manager.HandleUnmapNotify window) := by
  have nodup := published.mappedNodup
  have children : ∀ xid ∈ root.mapped.erase window, xid ∈ root.children :=
    fun xid inside => published.mappedChildren xid (List.mem_of_mem_erase inside)
  have clients : ∀ xid ∈ (manager.set_mapped window false).clientXids, xid ∈ root.children := by
    rw [set_mapped_xids]
    exact published.clients
  have flags := flags_unmapped published.toConsistent window
  have left : (root.mapped.erase window).filter (manager.set_mapped window false).listed =
      (root.mapped.filter manager.listed).erase window := by
    rw [listed_unmapped, nodup.erase_eq_filter, (nodup.filter _).erase_eq_filter, List.filter_filter,
      List.filter_filter]
    apply List.filter_congr
    intro xid _
    cases xid != window <;> simp
  rw [HandleUnmapNotify]
  split
  · next unknown => exact unmap_untracked published unknown
  · dsimp only
    split
    · refine Consistent.published
        ⟨⟨published.stacked, clients⟩, children, nodup.erase window, flags, ?_⟩
      change (manager.mapped_xids_.items.erase window).reverse =
        (root.mapped.erase window).filter (manager.set_mapped window false).listed
      rw [left, reverse_erase manager.mapped_xids_.nodup, published.mappedXids]
    · next uncontained =>
      have absent : window ∉ root.mapped.filter manager.listed := by
        rw [← published.mappedXids, List.mem_reverse]
        exact fun inside => uncontained (decide_eq_true inside)
      have unlisted : manager.listed window = false := by
        rw [← Bool.not_eq_true]
        intro listed
        exact absent (List.mem_filter.mpr ⟨published.mapped_of_listed listed, listed⟩)
      have same : (manager.set_mapped window false).listed = manager.listed := by
        rw [listed_unmapped]
        funext xid
        by_cases equal : xid = window
        · rw [equal, unlisted, Bool.and_false]
        · rw [bne_iff_ne.mpr equal, Bool.true_and]
      refine ⟨⟨⟨published.stacked, clients⟩, children, nodup.erase window, flags, ?_⟩, ?_, ?_⟩
      · rw [left, List.erase_of_not_mem absent]
        exact published.mappedXids
      · rw [left, List.erase_of_not_mem absent]
        exact published.clientList
      · rw [same]
        exact published.stackingList

/-- A handler publishes what it changes, unless a mapped window is destroyed. -/
theorem HandleEvent_published (published : Published root manager) {event : XEvent}
    (unmapped : ∀ window, event = .DestroyNotify window → window ∉ root.mapped)
    (changed : root.change event = some next) : Published next (manager.HandleEvent event) := by
  cases event with
  | CreateNotify window inRoot override_redirect answers =>
    cases inRoot with
    | true => exact HandleCreateNotify_published published override_redirect answers changed
    | false =>
      cases changed
      rw [HandleEvent, HandleCreateNotify]
      split
      · exact published
      · exact published
  | ConfigureNotify window above =>
    rw [RootWindow.change] at changed
    split at changed
    · next present => exact HandleConfigureNotify_published published present changed
    · next absent =>
      cases changed
      have unknown : manager.stacked_xids_.Contains window = false := by
        rw [Stacker.Contains, published.stacked]
        exact decide_eq_false absent
      rw [HandleEvent, HandleConfigureNotify, unknown]
      exact published
  | DestroyNotify window =>
    cases changed
    exact HandleDestroyNotify_published published (unmapped window rfl)
  | ReparentNotify window toRoot =>
    cases toRoot with
    | true => exact enter_published published changed
    | false =>
      cases changed
      exact HandleReparentNotify_published published window
  | MapNotify window =>
    cases changed
    exact HandleMapNotify_published published window
  | UnmapNotify window =>
    cases changed
    exact HandleUnmapNotify_published published window

end Wm

namespace Desktop

/-- A window that is destroyed is not mapped any more. -/
def UnmapsFirst (desktop : Desktop) (event : XEvent) : Prop :=
  ∀ window, event = .DestroyNotify window → window ∉ desktop.root.mapped

/-- The windows that are mapped, tracked and not `override_redirect`, in the order they were mapped. -/
def clients (desktop : Desktop) : List XWindow :=
  desktop.root.mapped.filter fun xid =>
    (desktop.wm.GetWindow xid).any fun win => !win.override_redirect

/-- The properties hold the clients in the order of mapping and in the stacking order, and they are absent
when there are none. -/
structure ListsClients (desktop : Desktop) : Prop where
  nodup : desktop.clients.Nodup
  clientList : desktop.wm._NET_CLIENT_LIST = if desktop.clients = [] then none else some desktop.clients
  stackingList : ∃ stacking, stacking.Perm desktop.clients ∧
    stacking = desktop.wm.stacked_xids_.items.reverse.filter (fun xid => xid ∈ desktop.clients) ∧
    desktop.wm._NET_CLIENT_LIST_STACKING = if desktop.clients = [] then none else some stacking

theorem listed_of_mapped (published : Published root manager) (mapped : xid ∈ root.mapped) :
    manager.listed xid = (manager.GetWindow xid).any fun win => !win.override_redirect := by
  rw [Wm.listed]
  cases found : manager.GetWindow xid with
  | none => rfl
  | some win => simp [published.flags xid win found, mapped]

theorem listsClients_of_published (desktop : Desktop) (published : Published desktop.root desktop.wm) :
    desktop.ListsClients := by
  have clients : desktop.clients = desktop.root.mapped.filter desktop.wm.listed :=
    List.filter_congr fun xid mapped => (listed_of_mapped published mapped).symm
  have nodup : desktop.clients.Nodup := published.mappedNodup.filter _
  have member (xid : XWindow) : xid ∈ desktop.clients ↔ desktop.wm.listed xid = true := by
    rw [clients, List.mem_filter]
    exact ⟨fun both => both.2, fun listed => ⟨published.mapped_of_listed listed, listed⟩⟩
  have stacking : (desktop.root.children.reverse.filter desktop.wm.listed).Perm desktop.clients := by
    have children : desktop.root.children.Nodup := published.stacked ▸ desktop.wm.stacked_xids_.nodup
    refine (List.perm_ext_iff_of_nodup ((List.nodup_reverse.mpr children).filter _) nodup).mpr fun xid => ?_
    rw [List.mem_filter, List.mem_reverse, member]
    refine ⟨fun both => both.2, fun listed => ⟨?_, listed⟩⟩
    exact published.mappedChildren xid (published.mapped_of_listed listed)
  refine ⟨nodup, ?_, _, stacking, ?_, ?_⟩
  · rw [published.clientList, ← clients, Wm.publish]
  · rw [published.stacked]
    exact List.filter_congr fun xid _ => Bool.eq_iff_iff.mpr (by rw [decide_eq_true_iff, member])
  · rw [published.stackingList, Wm.publish]
    have empty : desktop.root.children.reverse.filter desktop.wm.listed = [] ↔ desktop.clients = [] := by
      constructor
      · intro none
        exact (none ▸ stacking).nil_eq.symm
      · intro none
        exact (none ▸ stacking).eq_nil
    rw [if_congr empty rfl rfl]

theorem new_published : Published ⟨[], []⟩ .new := by
  refine ⟨⟨⟨rfl, ?_⟩, ?_, List.nodup_nil, ?_, rfl⟩, rfl, rfl⟩
  · intro _ inside
    cases inside
  · intro _ inside
    cases inside
  · intro _ _ found
    cases found

theorem start_published (existing : ExistingWindows) :
    Published (start existing).root (start existing).wm := by
  have managed := Wm.managed Published (fun _ _ published => published.toMirrors)
    (fun _ _ _ override_redirect answers _ published entered =>
      Wm.HandleCreateNotify_published published override_redirect answers entered)
    (fun _ _ window published => Wm.HandleMapNotify_published published window)
    new_published existing.nodup
  exact managed.toConsistent.published_stacking managed.clientList

/-- After each truthful event the properties list the clients, when mapped windows are unmapped before
they are destroyed. -/
theorem client_lists_published (existing : ExistingWindows) (events : List XEvent)
    (unmaps : PartialRun.Throughout step UnmapsFirst (start existing) events) :
    PartialRun.Always step ListsClients (start existing) events := by
  have always : PartialRun.Always step (fun desktop => Published desktop.root desktop.wm)
      (start existing) events := by
    refine PartialRun.always_of_throughout ?_ ?_ unmaps
    · exact start_published existing
    · intro desktop event next published unmapped taken
      obtain ⟨root, changed, rfl⟩ := Option.map_eq_some_iff.mp taken
      exact Wm.HandleEvent_published published unmapped changed
  intro past before desktop reached
  exact listsClients_of_published desktop (always past before desktop reached)

/-- Nothing on the screen, and a window that comes and goes. -/
def emptyScreen : ExistingWindows := ⟨[], List.nodup_nil⟩

def visit : List XEvent :=
  [.CreateNotify 1 true false ⟨some false, false, false, false⟩, .MapNotify 1, .UnmapNotify 1, .DestroyNotify 1]

theorem client_lists_visit : PartialRun.Throughout step UnmapsFirst (start emptyScreen) visit ∧
    PartialRun.Always step ListsClients (start emptyScreen) visit := by
  have unmaps : PartialRun.Throughout step UnmapsFirst (start emptyScreen) visit := by
    refine PartialRun.throughout_cons.mpr ⟨nofun, ?_⟩
    rintro _ ⟨⟩
    refine PartialRun.throughout_cons.mpr ⟨nofun, ?_⟩
    rintro _ ⟨⟩
    refine PartialRun.throughout_cons.mpr ⟨nofun, ?_⟩
    rintro _ ⟨⟩
    refine PartialRun.throughout_cons.mpr ⟨?_, fun _ _ => PartialRun.throughout_nil⟩
    rintro _ ⟨⟩
    decide
  exact ⟨unmaps, client_lists_published emptyScreen visit unmaps⟩

end Desktop

end ChromiumOS.WindowManager
