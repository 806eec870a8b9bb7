import ChromiumOS.ToMathlib.PartialRun
import ChromiumOS.Proofs.WindowManager.ClientProperties

/-! # The states of a window and their property

The window manager keeps the flags of `_NET_WM_STATE` in the window and in the property, which clients can write too.
Whatever the order of writes, messages and notifications, the two agree once every notification has been handled. A
window manager that is started later reads both this property and `_CHROME_STATE` back.
-/

namespace ChromiumOS.WindowManager

open PropertyServer

namespace PropertyWindow

/-- The flags of a window, by the names of their atoms. -/
def wmState (win : PropertyWindow) : WmAtom → Bool
  | .ATOM_NET_WM_STATE_FULLSCREEN => win.wm_state_fullscreen_
  | .ATOM_NET_WM_STATE_MAXIMIZED_HORZ => win.wm_state_maximized_horz_
  | .ATOM_NET_WM_STATE_MAXIMIZED_VERT => win.wm_state_maximized_vert_
  | .ATOM_NET_WM_STATE_MODAL => win.wm_state_modal_
  | _ => false

/-- The atoms that have a flag. -/
def wmStateAtoms : List WmAtom :=
  [.ATOM_NET_WM_STATE_FULLSCREEN, .ATOM_NET_WM_STATE_MAXIMIZED_HORZ, .ATOM_NET_WM_STATE_MAXIMIZED_VERT,
    .ATOM_NET_WM_STATE_MODAL]

/-- The flags are those in the property. -/
def ShowsWmState (win : PropertyWindow) (atoms : AtomCache) (server : PropertyServer) : Prop :=
  ∀ atom ∈ wmStateAtoms,
    win.wmState atom = true ↔ atoms.GetXAtom atom ∈ (server.ints win.xid (atoms.GetXAtom .ATOM_NET_WM_STATE)).getD []

variable (atoms : AtomCache)

@[simp] theorem GetXAtom_inj {first second : WmAtom} :
    atoms.GetXAtom first = atoms.GetXAtom second ↔ first = second :=
  atoms.injective.eq_iff

theorem applyWmState_wmState (win : PropertyWindow) (xatom : XAtom) {atom : WmAtom} (flag : atom ∈ wmStateAtoms) :
    (applyWmState atoms win xatom).wmState atom = (win.wmState atom || decide (atoms.GetXAtom atom = xatom)) := by
  by_cases named : ∃ other ∈ wmStateAtoms, xatom = atoms.GetXAtom other
  · obtain ⟨other, known, rfl⟩ := named
    simp only [wmStateAtoms, List.mem_cons, List.not_mem_nil, or_false] at flag known
    rcases flag with rfl | rfl | rfl | rfl <;> rcases known with rfl | rfl | rfl | rfl <;>
      simp [applyWmState, wmState]
  · have apart (known : WmAtom) (member : known ∈ wmStateAtoms) : xatom ≠ atoms.GetXAtom known :=
      fun same => named ⟨known, member, same⟩
    have unchanged : applyWmState atoms win xatom = win := by
      unfold applyWmState
      rw [if_neg (apart _ (by decide)), if_neg (apart _ (by decide)), if_neg (apart _ (by decide)),
        if_neg (apart _ (by decide))]
    rw [unchanged, decide_eq_false (apart atom flag).symm, Bool.or_false]

@[simp] theorem applyWmState_xid (win : PropertyWindow) (xatom : XAtom) : (applyWmState atoms win xatom).xid = win.xid := by
  unfold applyWmState
  dsimp only
  split_ifs <;> rfl

theorem foldl_applyWmState (values : List XAtom) (win : PropertyWindow) {atom : WmAtom} (flag : atom ∈ wmStateAtoms) :
    ((values.foldl (applyWmState atoms) win).wmState atom = true ↔
        win.wmState atom = true ∨ atoms.GetXAtom atom ∈ values) ∧
      (values.foldl (applyWmState atoms) win).xid = win.xid := by
  induction values generalizing win with
  | nil => simp
  | cons value rest ih =>
    obtain ⟨flags, xid⟩ := ih (applyWmState atoms win value)
    rw [applyWmState_wmState atoms win value flag, Bool.or_eq_true, decide_eq_true_eq] at flags
    refine ⟨?_, xid.trans (applyWmState_xid atoms win value)⟩
    rw [List.foldl_cons, flags, List.mem_cons, or_assoc]

/-- A fetch takes the flags from the property, whatever they were. -/
theorem FetchAndApplyWmState_shows (win : PropertyWindow) (server : PropertyServer) :
    ∃ next, win.FetchAndApplyWmState atoms server = .ok next ∧ next.xid = win.xid ∧ next.ShowsWmState atoms server := by
  unfold FetchAndApplyWmState
  rw [GetIntArrayProperty_eq]
  refine ⟨_, rfl, ?_, ?_⟩
  · exact (@foldl_applyWmState atoms _ win.resetWmState .ATOM_NET_WM_STATE_MODAL (by decide)).2
  · intro atom flag
    obtain ⟨flags, xid⟩ := foldl_applyWmState atoms
      ((server.ints win.xid (atoms.GetXAtom .ATOM_NET_WM_STATE)).getD []) win.resetWmState flag
    have reset : win.resetWmState.wmState atom = false := by
      simp only [wmStateAtoms, List.mem_cons, List.not_mem_nil, or_false] at flag
      rcases flag with rfl | rfl | rfl | rfl <;> rfl
    rw [flags, reset, xid]
    exact or_iff_right Bool.false_ne_true

/-- The property that is written has the atoms of the flags that are set. -/
theorem UpdateWmStateProperty_shows (win : PropertyWindow) (server : PropertyServer)
    (present : server.exists_ win.xid = true) :
    win.ShowsWmState atoms (win.UpdateWmStateProperty atoms server) := by
  have written (values : List XAtom) (small : values.length ≤ 4)
      (listed : ∀ atom ∈ wmStateAtoms, win.wmState atom = true ↔ atoms.GetXAtom atom ∈ values) :
      win.ShowsWmState atoms
        (if values ≠ [] then
          server.SetIntArrayProperty win.xid (atoms.GetXAtom .ATOM_NET_WM_STATE) (atoms.GetXAtom .ATOM_ATOM) values
        else server.delete_property win.xid (atoms.GetXAtom .ATOM_NET_WM_STATE)) := by
    intro atom flag
    rw [listed atom flag]
    split
    · have whole : values.take kMaxPropertySize = values := List.take_of_length_le (small.trans (by decide))
      rw [ints_SetIntArrayProperty server win.xid _ present, whole]
      rfl
    · next none_ =>
      rw [ints_delete_property, Classical.not_not.mp none_]
      rfl
  apply written
  · simp only [List.length_append]
    split_ifs <;> simp
  · intro atom flag
    simp only [wmStateAtoms, List.mem_cons, List.not_mem_nil, or_false] at flag
    rcases flag with rfl | rfl | rfl | rfl <;> simp [wmState]

/-- A flag depends on the window and on the integers of its property only. -/
theorem ShowsWmState.of_ints {atoms : AtomCache} {win : PropertyWindow} {server other : PropertyServer} (shows : win.ShowsWmState atoms server)
    (same : other.ints win.xid (atoms.GetXAtom .ATOM_NET_WM_STATE) =
      server.ints win.xid (atoms.GetXAtom .ATOM_NET_WM_STATE)) : win.ShowsWmState atoms other := by
  intro atom flag
  rw [same]
  exact shows atom flag

@[simp] theorem UpdateWmStateProperty_exists (win : PropertyWindow) (server : PropertyServer) (xid : XWindow) :
    (win.UpdateWmStateProperty atoms server).exists_ xid = server.exists_ xid := by
  unfold UpdateWmStateProperty SetIntArrayProperty change_property delete_property
  dsimp only
  split_ifs <;> rfl

theorem HandleWmStateMessage_update (win : PropertyWindow) (server : PropertyServer) (action first second : BitVec 32) :
    (win.HandleWmStateMessage atoms server action first second).1.xid = win.xid ∧
      (win.HandleWmStateMessage atoms server action first second).2 =
        (win.HandleWmStateMessage atoms server action first second).1.UpdateWmStateProperty atoms server := by
  refine ⟨?_, rfl⟩
  unfold HandleWmStateMessage
  dsimp only
  split_ifs <;> rfl

theorem changeWmState_xid (win : PropertyWindow) (state : XAtom × Bool) :
    (changeWmState atoms win state).xid = win.xid := by
  unfold changeWmState
  dsimp only
  split_ifs <;> rfl

theorem ChangeWmState_update (win : PropertyWindow) (server : PropertyServer) (states : List (XAtom × Bool)) :
    (win.ChangeWmState atoms server states).1.xid = win.xid ∧
      (win.ChangeWmState atoms server states).2 =
        (win.ChangeWmState atoms server states).1.UpdateWmStateProperty atoms server := by
  refine ⟨?_, rfl⟩
  change (states.foldl (changeWmState atoms) win).xid = win.xid
  induction states generalizing win with
  | nil => rfl
  | cons state rest ih => exact (ih (changeWmState atoms win state)).trans (changeWmState_xid atoms win state)

end PropertyWindow

namespace PropertyServer

variable {server : PropertyServer} {xid other : XWindow} {xatom another : XAtom}

theorem ints_of_stored {next : PropertyServer} (exists_ : next.exists_ xid = server.exists_ xid)
    (stored : next.stored xid xatom = server.stored xid xatom) : next.ints xid xatom = server.ints xid xatom := by
  unfold ints
  rw [exists_, stored]

theorem stored_change_property_of_ne (property : XProperty) (apart : ¬ (other = xid ∧ another = xatom)) :
    (server.change_property other another property).stored xid xatom = server.stored xid xatom := by
  unfold change_property
  split
  · by_cases same : other = xid
    · subst same
      have differs : xatom ≠ another := fun equal => apart ⟨rfl, equal.symm⟩
      simp [Function.update_of_ne differs]
    · simp [Function.update_of_ne (Ne.symm same)]
  · rfl

theorem stored_delete_property_of_ne (apart : ¬ (other = xid ∧ another = xatom)) :
    (server.delete_property other another).stored xid xatom = server.stored xid xatom := by
  unfold delete_property
  by_cases same : other = xid
  · subst same
    have differs : xatom ≠ another := fun equal => apart ⟨rfl, equal.symm⟩
    simp [Function.update_of_ne differs]
  · simp [Function.update_of_ne (Ne.symm same)]

@[simp] theorem change_property_exists (property : XProperty) :
    (server.change_property other another property).exists_ xid = server.exists_ xid := by
  unfold change_property
  split <;> rfl

@[simp] theorem delete_property_exists : (server.delete_property other another).exists_ xid = server.exists_ xid := rfl

end PropertyServer

namespace WmStateRun

variable (atoms : AtomCache)

/-- Between events the window exists, and its flags are those in the property if no notification is under way. -/
structure Settled (state : WmStateRun) : Prop where
  present : state.server.exists_ state.win.xid = true
  shows : state.pending = 0 → state.win.ShowsWmState atoms state.server

variable {atoms}

/-- What the window manager writes is what it keeps. -/
theorem Settled.request {state : WmStateRun} (settled : state.Settled atoms) {win : PropertyWindow}
    (xid : win.xid = state.win.xid) :
    (state.request atoms win (win.UpdateWmStateProperty atoms state.server)).Settled atoms := by
  have present : state.server.exists_ win.xid = true := xid ▸ settled.present
  exact
    { present := (win.UpdateWmStateProperty_exists atoms state.server win.xid).trans present
      shows := fun _ => win.UpdateWmStateProperty_shows atoms state.server present }

theorem Settled.ClientWrite {state : WmStateRun} (settled : state.Settled atoms) (xid : XWindow) (xatom : XAtom)
    (property : Option XProperty) : (state.ClientWrite atoms xid xatom property).Settled atoms := by
  unfold WmStateRun.ClientWrite
  by_cases same : xid = state.win.xid ∧ xatom = atoms.GetXAtom .ATOM_NET_WM_STATE
  · dsimp only
    rw [if_pos same]
    obtain ⟨rfl, rfl⟩ := same
    cases property with
    | some property =>
      refine ⟨by simpa [WmStateRun.request] using settled.present, fun none_ => ?_⟩
      simp [WmStateRun.request, change_property, settled.present] at none_
    | none =>
      refine ⟨settled.present, fun none_ => ?_⟩
      by_cases before : state.server.stored state.win.xid (atoms.GetXAtom .ATOM_NET_WM_STATE) = none
      · have shows : state.win.ShowsWmState atoms state.server := by
          apply settled.shows
          simpa [WmStateRun.request, before, delete_property] using none_
        exact shows.of_ints (ints_of_stored rfl (by simp [WmStateRun.request, before, delete_property]))
      · simp [WmStateRun.request, before] at none_
  · dsimp only
    rw [if_neg same]
    cases property with
    | some property =>
      exact ⟨by simpa using settled.present, fun none_ => (settled.shows none_).of_ints
        (ints_of_stored (by simp) (stored_change_property_of_ne property same))⟩
    | none =>
      exact ⟨settled.present, fun none_ => (settled.shows none_).of_ints
        (ints_of_stored rfl (stored_delete_property_of_ne same))⟩

/-- One event keeps the agreement. -/
theorem Settled.step {state next : WmStateRun} (settled : state.Settled atoms) {event : WmStateEvent}
    (taken : state.step atoms event = some next) : next.Settled atoms := by
  cases event with
  | ClientWrite xid xatom property =>
    obtain rfl := Option.some.inj taken
    exact settled.ClientWrite xid xatom property
  | HandlePropertyNotify =>
    change state.HandlePropertyNotify atoms = some next at taken
    unfold WmStateRun.HandlePropertyNotify at taken
    obtain ⟨win, fetched, xid, shows⟩ := state.win.FetchAndApplyWmState_shows atoms state.server
    rw [fetched] at taken
    split at taken
    · cases taken
    · obtain rfl := Option.some.inj taken
      exact ⟨xid ▸ settled.present, fun _ => shows⟩
  | HandleWmStateMessage action first second =>
    obtain rfl := Option.some.inj taken
    obtain ⟨xid, server⟩ := state.win.HandleWmStateMessage_update atoms state.server action first second
    rw [server]
    exact settled.request xid
  | ChangeWmState states =>
    obtain rfl := Option.some.inj taken
    obtain ⟨xid, server⟩ := state.win.ChangeWmState_update atoms state.server states
    rw [server]
    exact settled.request xid

/-- The notifications that are under way can all be handled, and then the flags are those in the property. -/
theorem Settled.settles {state : WmStateRun} (settled : state.Settled atoms) :
    ∃ next, PartialRun.run (WmStateRun.step atoms) state (List.replicate state.pending .HandlePropertyNotify) = some next ∧
      next.pending = 0 ∧ next.server = state.server ∧ next.win.ShowsWmState atoms next.server := by
  rcases state with ⟨win, server, pending⟩
  induction pending generalizing win with
  | zero => exact ⟨_, rfl, rfl, rfl, settled.shows rfl⟩
  | succ pending ih =>
    obtain ⟨fetchedWin, fetched, xid, shows⟩ := win.FetchAndApplyWmState_shows atoms server
    have taken : WmStateRun.step atoms ⟨win, server, pending + 1⟩ .HandlePropertyNotify = some ⟨fetchedWin, server, pending⟩ := by
      change WmStateRun.HandlePropertyNotify atoms _ = _
      unfold WmStateRun.HandlePropertyNotify
      dsimp only
      rw [fetched, if_neg (Nat.succ_ne_zero pending)]
      rfl
    obtain ⟨next, reached, handled⟩ := ih fetchedWin (settled.step taken)
    refine ⟨next, ?_, handled⟩
    rw [List.replicate_succ, PartialRun.run_cons, taken]
    exact reached

end WmStateRun

namespace PropertyWindow

variable (atoms : AtomCache)

theorem foldl_insert (values : List XAtom) (set : Finset XAtom) :
    values.foldl (fun set xatom => insert xatom set) set = set ∪ values.toFinset := by
  induction values generalizing set with
  | nil => simp
  | cons value rest ih =>
    rw [List.foldl_cons, ih, List.toFinset_cons, Finset.insert_union, Finset.union_insert]

/-- Whether an atom is in the set that a list of changes leaves: the last change to it decides. -/
theorem mem_foldl_changeChromeState (states : List (XAtom × Bool)) (set : Finset XAtom) (xatom : XAtom) :
    xatom ∈ states.foldl changeChromeState set ↔
      (((states.reverse.find? fun state => state.1 = xatom).map Prod.snd).getD (decide (xatom ∈ set)) = true) := by
  induction states using List.reverseRecOn with
  | nil => simp
  | append_singleton rest state ih =>
    rw [List.foldl_append, List.foldl_cons, List.foldl_nil, List.reverse_append, List.reverse_singleton,
      List.singleton_append, List.find?_cons]
    rcases state with ⟨changed, added⟩
    by_cases same : changed = xatom
    · subst same
      cases added <;> simp [changeChromeState]
    · have differs : xatom ≠ changed := Ne.symm same
      rw [decide_eq_false same]
      cases added with
      | false => simpa [changeChromeState, differs] using ih
      | true => simpa [changeChromeState, differs] using ih

/-- What is read back from the property for the chrome states of a window. -/
theorem FetchAndApplyChromeState_update (win fresh : PropertyWindow) (server : PropertyServer)
    (present : server.exists_ win.xid = true) (xid : fresh.xid = win.xid) :
    ∃ next, fresh.FetchAndApplyChromeState atoms (win.UpdateChromeStateProperty atoms server) = .ok next ∧
      next.chrome_state_xatoms_ = ((win.chrome_state_xatoms_.sort AtomLe).take kMaxPropertySize).toFinset := by
  unfold FetchAndApplyChromeState
  rw [GetIntArrayProperty_eq, xid]
  refine ⟨_, rfl, ?_⟩
  dsimp only
  rw [foldl_insert, Finset.empty_union]
  unfold UpdateChromeStateProperty
  dsimp only
  split
  · rw [ints_SetIntArrayProperty server win.xid _ present]
    rfl
  · next none_ =>
    rw [ints_delete_property, Classical.not_not.mp none_]
    rfl

/-- A window manager that is started after a list of changes reads back the chrome states that they left, of which the
last change of each atom decides; if there are more of them than a reply holds, it reads some. -/
theorem chrome_state_survives_restart (atoms : AtomCache) (win fresh : PropertyWindow) (server : PropertyServer)
    (present : server.exists_ win.xid = true) (xid : fresh.xid = win.xid) (states : List (XAtom × Bool)) :
    ∃ next, fresh.FetchAndApplyChromeState atoms (win.ChangeChromeState atoms server states).2 = .ok next ∧
      (∀ xatom ∈ next.chrome_state_xatoms_,
        ((states.reverse.find? fun state => state.1 = xatom).map Prod.snd).getD
          (decide (xatom ∈ win.chrome_state_xatoms_)) = true) ∧
      ((win.ChangeChromeState atoms server states).1.chrome_state_xatoms_.card ≤ kMaxPropertySize →
        ∀ xatom, ((states.reverse.find? fun state => state.1 = xatom).map Prod.snd).getD
          (decide (xatom ∈ win.chrome_state_xatoms_)) = true → xatom ∈ next.chrome_state_xatoms_) := by
  let changed : PropertyWindow := (win.ChangeChromeState atoms server states).1
  have kept (xatom : XAtom) : xatom ∈ changed.chrome_state_xatoms_ ↔
      ((states.reverse.find? fun state => state.1 = xatom).map Prod.snd).getD
        (decide (xatom ∈ win.chrome_state_xatoms_)) = true :=
    mem_foldl_changeChromeState states win.chrome_state_xatoms_ xatom
  obtain ⟨next, fetched, set⟩ := FetchAndApplyChromeState_update atoms changed fresh server present xid
  refine ⟨next, fetched, ?_, ?_⟩
  · intro xatom member
    rw [set, List.mem_toFinset] at member
    apply (kept xatom).mp
    exact (Finset.mem_sort AtomLe).mp (List.mem_of_mem_take member)
  · intro small xatom last
    have whole : (changed.chrome_state_xatoms_.sort AtomLe).take kMaxPropertySize =
        changed.chrome_state_xatoms_.sort AtomLe := by
      apply List.take_of_length_le
      rw [Finset.length_sort]
      exact small
    rw [set, whole, List.mem_toFinset, Finset.mem_sort]
    exact (kept xatom).mpr last

/-- A collapsed panel is expanded. -/
theorem chrome_state_survives_restart_on_one :
    ∃ next, FetchAndApplyChromeState { xid := 1 } numberedAtoms
        (ChangeChromeState { xid := 1, chrome_state_xatoms_ := {7, 8} } numberedAtoms (oneWindow (.format8 []))
          [(7, false)]).2 = .ok next ∧
      (∀ xatom ∈ next.chrome_state_xatoms_,
        (([((7 : XAtom), false)].reverse.find? fun state => state.1 = xatom).map Prod.snd).getD
          (decide (xatom ∈ ({7, 8} : Finset XAtom))) = true) ∧
      ((ChangeChromeState { xid := 1, chrome_state_xatoms_ := {7, 8} } numberedAtoms (oneWindow (.format8 []))
          [(7, false)]).1.chrome_state_xatoms_.card ≤ kMaxPropertySize →
        ∀ xatom, (([((7 : XAtom), false)].reverse.find? fun state => state.1 = xatom).map Prod.snd).getD
          (decide (xatom ∈ ({7, 8} : Finset XAtom))) = true → xatom ∈ next.chrome_state_xatoms_) :=
  chrome_state_survives_restart numberedAtoms { xid := 1, chrome_state_xatoms_ := {7, 8} } { xid := 1 }
    (oneWindow (.format8 [])) rfl rfl [(7, false)]

end PropertyWindow

namespace WmIpc

end WmIpc

end ChromiumOS.WindowManager
