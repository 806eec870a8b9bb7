import ChromiumOS.Proofs.WindowManager.MissedRedraw

/-! # Pixmaps and their windows

A window is monitored for the actor that shows its pixmap. Registration goes by window, but every clone of the
actor has the window too, without a registration of its own, and the first of them that lets go of the window
ends the monitoring for all. So the windows that are monitored are those that actors have exactly as long as
whatever lets go of a window is the last to have it.
-/

namespace ChromiumOS.WindowManager

/-- Which windows are monitored, for which actors, and the windows that actors have. -/
@[ext] structure WindowMonitor where
  texture_pixmaps_ : XWindow → Option ActorAddress
  tracked : XWindow → Bool
  redirected : XWindow → Bool
  started : XWindow → ℕ
  stopped : XWindow → ℕ
  window : ActorAddress → XWindow

/-- What a call does to the windows of actors. -/
inductive WindowChange where
  | none
  | copy (clone orig : ActorAddress)
  | release (actor : ActorAddress)
  | assign (actor : ActorAddress) (xid : XWindow)

namespace WindowMonitor

variable (monitor : WindowMonitor)

def setWindow (actor : ActorAddress) (xid : XWindow) : WindowMonitor :=
  { monitor with window := Function.update monitor.window actor xid }

def start (xid : XWindow) (actor : ActorAddress) : WindowMonitor :=
  { monitor with
    texture_pixmaps_ := Function.update monitor.texture_pixmaps_ xid (some actor)
    tracked := Function.update monitor.tracked xid true
    redirected := Function.update monitor.redirected xid true
    started := Function.update monitor.started xid (monitor.started xid + 1) }

def stop (xid : XWindow) : WindowMonitor :=
  { monitor with
    texture_pixmaps_ := Function.update monitor.texture_pixmaps_ xid none
    tracked := Function.update monitor.tracked xid false
    redirected := Function.update monitor.redirected xid false
    stopped := Function.update monitor.stopped xid (monitor.stopped xid + 1) }

def release (actor : ActorAddress) : WindowMonitor :=
  if monitor.window actor ≠ 0 then (monitor.stop (monitor.window actor)).setWindow actor 0 else monitor

def apply : WindowChange → WindowMonitor
  | .none => monitor
  | .copy clone orig => monitor.setWindow clone (monitor.window orig)
  | .release actor => monitor.release actor
  | .assign actor xid => ((monitor.release actor).setWindow actor xid).start xid actor

theorem setWindow_self (actor : ActorAddress) : monitor.setWindow actor (monitor.window actor) = monitor := by
  rw [setWindow, Function.update_eq_self]

theorem release_window (actor : ActorAddress) :
    (monitor.release actor).window = Function.update monitor.window actor 0 := by
  rw [release]
  split
  · rfl
  · next none => rw [← not_ne_iff.mp none, Function.update_eq_self]

end WindowMonitor

/-- The window that an actor has; only the actors of pixmaps can have one. -/
def SceneActor.pixmapWindow (actor : SceneActor) : XWindow :=
  if actor.kind = .TexturePixmapActor then actor.window_ else 0

namespace TidyScene

variable {scene next : TidyScene} {address : ActorAddress} {actor this : SceneActor}

def pixmapWindow (scene : TidyScene) (address : ActorAddress) : XWindow :=
  (scene.actors_ address).elim 0 SceneActor.pixmapWindow

def monitor (scene : TidyScene) : WindowMonitor where
  texture_pixmaps_ := scene.texture_pixmaps_
  tracked := scene.xids_tracked_by_compositor_
  redirected := scene.redirected
  started := scene.started
  stopped := scene.stopped
  window := scene.pixmapWindow

/-- The change that a call makes. -/
def windowChange (scene : TidyScene) : SceneCall → WindowChange
  | .CloneActor orig => .copy scene.created orig
  | .SetTexturePixmapWindow actor xid => .assign actor xid
  | .Reset actor => .release actor
  | .destroy actor => .release actor
  | .HandleWindowDestroyed xid => (scene.texture_pixmaps_ xid).elim .none .release
  | _ => .none

/-- Only new actors are clones. -/
theorem clone_of_windowChange {call : SceneCall} {clone orig : ActorAddress}
    (change : scene.windowChange call = .copy clone orig) : clone = scene.created := by
  cases call with
  | CloneActor other =>
    cases change
    rfl
  | HandleWindowDestroyed xid =>
    rw [windowChange] at change
    cases known : scene.texture_pixmaps_ xid with
    | none =>
      rw [known] at change
      exact nomatch change
    | some actor =>
      rw [known] at change
      exact nomatch change
  | _ => cases change

theorem pixmapWindow_of_live (live : scene.actors_ address = some this) :
    scene.pixmapWindow address = this.pixmapWindow := by
  rw [pixmapWindow, live]
  rfl

theorem set_pixmapWindow : (scene.set address actor).pixmapWindow =
    Function.update scene.pixmapWindow address actor.pixmapWindow := by
  funext other
  simp only [pixmapWindow, TidyScene.set, Function.update_apply]
  split <;> rfl

theorem set_monitor : (scene.set address actor).monitor = scene.monitor.setWindow address actor.pixmapWindow := by
  rw [monitor, set_pixmapWindow]
  rfl

/-- A change of an actor that keeps its window. -/
theorem set_monitor_same (live : scene.actors_ address = some this)
    (same : actor.pixmapWindow = this.pixmapWindow) : (scene.set address actor).monitor = scene.monitor := by
  rw [set_monitor, same, ← pixmapWindow_of_live live]
  exact scene.monitor.setWindow_self address

theorem set_dirty_monitor : scene.set_dirty.monitor = scene.monitor := rfl

theorem Numbered.fresh (numbered : scene.Numbered) : scene.actors_ scene.created = none := by
  by_contra known
  obtain ⟨actor, live⟩ := Option.ne_none_iff_exists'.mp known
  exact (numbered.live _ actor live).false

theorem Numbered.pixmapWindow (numbered : scene.Numbered) : scene.pixmapWindow scene.created = 0 := by
  rw [TidyScene.pixmapWindow, numbered.fresh]
  rfl

theorem create_monitor : (scene.create actor).monitor = scene.monitor.setWindow scene.created actor.pixmapWindow := by
  have listed := @set_monitor scene scene.created actor
  exact listed

theorem create_monitor_same (numbered : scene.Numbered) (without : actor.pixmapWindow = 0) :
    (scene.create actor).monitor = scene.monitor := by
  rw [create_monitor, without, ← numbered.pixmapWindow]
  exact scene.monitor.setWindow_self scene.created

theorem modify_monitor {change : SceneActor → SceneActor} (taken : scene.modify address change = some next)
    (same : ∀ actor, (change actor).pixmapWindow = actor.pixmapWindow) : next.monitor = scene.monitor := by
  obtain ⟨actor, live, rfl⟩ := Option.map_eq_some_iff.mp taken
  exact set_monitor_same live (same actor)

theorem modify_dirty_monitor {change : SceneActor → SceneActor}
    (taken : (scene.modify address change).map set_dirty = some next)
    (same : ∀ actor, (change actor).pixmapWindow = actor.pixmapWindow) : next.monitor = scene.monitor := by
  obtain ⟨middle, modified, rfl⟩ := Option.map_eq_some_iff.mp taken
  have kept := modify_monitor modified same
  exact kept

theorem CloneActor_monitor {orig : ActorAddress} (numbered : scene.Numbered)
    (taken : scene.CloneActor orig = some next) :
    next.monitor = scene.monitor.setWindow scene.created (scene.pixmapWindow orig) := by
  obtain ⟨actor, live, taken⟩ := Option.bind_eq_some_iff.mp taken
  rw [pixmapWindow_of_live live]
  split at taken
  · next container =>
    cases taken
    have without : actor.pixmapWindow = 0 := by
      refine if_neg fun pixmap => ?_
      rw [pixmap] at container
      exact absurd container (by decide)
    rw [without, ← numbered.pixmapWindow]
    exact (scene.monitor.setWindow_self scene.created).symm
  · cases taken
    exact create_monitor

theorem AddActor_monitor {container child : ActorAddress} (taken : scene.AddActor container child = some next) :
    next.monitor = scene.monitor := by
  obtain ⟨middle, modified, taken⟩ := Option.bind_eq_some_iff.mp taken
  obtain ⟨this, live, taken⟩ := Option.bind_eq_some_iff.mp taken
  obtain ⟨-, -, taken⟩ := Option.bind_eq_some_iff.mp taken
  cases taken
  rw [set_dirty_monitor, ← modify_monitor modified fun _ => rfl]
  exact set_monitor_same live rfl

theorem RemoveActor_monitor {container child : ActorAddress}
    (taken : scene.RemoveActor container child = some next) : next.monitor = scene.monitor := by
  obtain ⟨this, live, taken⟩ := Option.bind_eq_some_iff.mp taken
  obtain ⟨-, -, taken⟩ := Option.bind_eq_some_iff.mp taken
  split at taken
  · cases taken
    exact @set_monitor_same _ _ _ this live rfl
  · cases taken
    rfl

theorem restack_monitor {method : List ActorAddress → List ActorAddress}
    (taken : scene.restack address method = some next) : next.monitor = scene.monitor := by
  obtain ⟨this, -, taken⟩ := Option.bind_eq_some_iff.mp taken
  obtain ⟨parent, -, taken⟩ := Option.bind_eq_some_iff.mp taken
  obtain ⟨container, live, taken⟩ := Option.bind_eq_some_iff.mp taken
  obtain ⟨-, -, taken⟩ := Option.bind_eq_some_iff.mp taken
  cases taken
  exact @set_monitor_same _ _ _ container live rfl

theorem animate_monitor {duration_ms : ℤ} {request : AnimatedActor → AnimatedActor}
    (taken : scene.animate address duration_ms request = some next) : next.monitor = scene.monitor := by
  obtain ⟨middle, modified, rfl⟩ := Option.map_eq_some_iff.mp taken
  have same := modify_monitor modified fun _ => rfl
  split <;> exact same

theorem SetColor_monitor {color : Color} (taken : scene.SetColor address color = some next) :
    next.monitor = scene.monitor := by
  obtain ⟨this, live, taken⟩ := Option.bind_eq_some_iff.mp taken
  obtain ⟨-, -, taken⟩ := Option.bind_eq_some_iff.mp taken
  cases taken
  exact @set_monitor_same _ _ _ this live rfl

/-- `Reset` takes the actor of a pixmap and lets go of its window. -/
theorem Reset_spec (taken : scene.Reset address = some next) :
    ∃ this, scene.actors_ address = some this ∧ this.kind = .TexturePixmapActor ∧
      next = ((if this.window_ ≠ 0 then scene.StopMonitoringWindowForChanges this.window_ else scene).set address
        { this with window_ := 0, pixmap_data := none }).set_dirty := by
  obtain ⟨this, live, taken⟩ := Option.bind_eq_some_iff.mp taken
  obtain ⟨done, pixmap, taken⟩ := Option.bind_eq_some_iff.mp taken
  change (if this.kind = .TexturePixmapActor then some () else none) = some done at pixmap
  have kind : this.kind = .TexturePixmapActor := by
    by_contra other
    rw [if_neg other] at pixmap
    exact nomatch pixmap
  cases taken
  exact ⟨this, live, kind, rfl⟩

theorem Reset_monitor (taken : scene.Reset address = some next) :
    next.monitor = scene.monitor.release address := by
  obtain ⟨this, live, kind, rfl⟩ := Reset_spec taken
  have window : scene.monitor.window address = this.window_ := (pixmapWindow_of_live live).trans (if_pos kind)
  have none : SceneActor.pixmapWindow { this with window_ := 0, pixmap_data := none } = 0 := ite_self 0
  rw [set_dirty_monitor, set_monitor, none, WindowMonitor.release, window]
  split
  · rfl
  · next without =>
    rw [not_ne_iff.mp without] at window
    rw [← window, WindowMonitor.setWindow_self]

theorem SetTexturePixmapWindow_monitor {xid : XWindow}
    (taken : scene.SetTexturePixmapWindow address xid = some next) :
    next.monitor = ((scene.monitor.release address).setWindow address xid).start xid address := by
  obtain ⟨reset, first, taken⟩ := Option.bind_eq_some_iff.mp taken
  obtain ⟨modified, second, taken⟩ := Option.bind_eq_some_iff.mp taken
  have released := Reset_monitor first
  obtain ⟨this, -, kind, rfl⟩ := Reset_spec first
  obtain ⟨actor, live, rfl⟩ := Option.map_eq_some_iff.mp second
  cases (Function.update_self _ _ _).symm.trans live
  have window : SceneActor.pixmapWindow { this with window_ := xid, pixmap_data := none } = xid := if_pos kind
  cases taken
  rw [← released, ← window, ← set_monitor]
  rw [window]
  rfl

/-- An actor that is gone has no window. -/
theorem erase_monitor :
    monitor { scene with actors_ := Function.update scene.actors_ address none } =
      scene.monitor.setWindow address 0 := by
  have window : pixmapWindow { scene with actors_ := Function.update scene.actors_ address none } =
      Function.update scene.pixmapWindow address 0 := by
    funext other
    simp only [pixmapWindow, Function.update_apply]
    split <;> rfl
  rw [monitor, window]
  rfl

theorem destroy_monitor (taken : scene.destroy address = some next) :
    next.monitor = scene.monitor.release address := by
  obtain ⟨this, live, taken⟩ := Option.bind_eq_some_iff.mp taken
  obtain ⟨-, -, taken⟩ := Option.bind_eq_some_iff.mp taken
  obtain ⟨reset, first, taken⟩ := Option.bind_eq_some_iff.mp taken
  obtain ⟨removed, second, taken⟩ := Option.bind_eq_some_iff.mp taken
  cases taken
  have former : reset.monitor = scene.monitor.release address := by
    rw [destroyClass] at first
    split at first
    · exact Reset_monitor first
    · next other =>
      cases first
      have none : scene.monitor.window address = 0 := (pixmapWindow_of_live live).trans (if_neg other)
      rw [WindowMonitor.release, if_neg (not_ne_iff.mpr none)]
  have latter : removed.monitor = reset.monitor := by
    cases owner : this.parent_ with
    | none =>
      rw [owner] at second
      cases second
      rfl
    | some parent_ =>
      rw [owner] at second
      exact RemoveActor_monitor second
  have gone : (scene.monitor.release address).window address = 0 := by
    rw [WindowMonitor.release_window, Function.update_self]
  rw [erase_monitor, latter, former, ← gone, WindowMonitor.setWindow_self]

theorem HandleWindowConfigured_monitor {xid : XWindow} (taken : scene.HandleWindowConfigured xid = some next) :
    next.monitor = scene.monitor := by
  rw [HandleWindowConfigured] at taken
  split at taken
  · cases taken
    rfl
  · exact modify_dirty_monitor taken fun _ => rfl

theorem HandleWindowDestroyed_monitor {xid : XWindow} (taken : scene.HandleWindowDestroyed xid = some next) :
    next.monitor = scene.monitor.apply ((scene.texture_pixmaps_ xid).elim .none .release) := by
  rw [HandleWindowDestroyed] at taken
  split at taken
  · next absent =>
    cases taken
    rw [absent]
    rfl
  · next actor known =>
    rw [known]
    exact Reset_monitor taken

theorem HandleWindowDamaged_monitor {xid : XWindow} {content : ℕ}
    (taken : scene.HandleWindowDamaged xid content = some next) : next.monitor = scene.monitor := by
  rw [HandleWindowDamaged] at taken
  split at taken
  · cases taken
    rfl
  · obtain ⟨this, -, taken⟩ := Option.bind_eq_some_iff.mp taken
    cases taken
    rfl

section Updates

variable {interpolate : Interpolation}

theorem evaluateActor_monitor (taken : scene.evaluateActor interpolate address = some next) :
    next.monitor = scene.monitor := by
  obtain ⟨this, live, taken⟩ := Option.bind_eq_some_iff.mp taken
  cases taken
  split
  · exact @set_monitor_same _ _ _ this live rfl
  · exact @set_monitor_same scene.set_dirty _ _ this live rfl

theorem Update_monitor {depth : ℕ} (taken : Update interpolate depth scene address = some next) :
    next.monitor = scene.monitor := by
  induction depth generalizing scene address next with
  | zero => cases taken
  | succ depth ih =>
    obtain ⟨this, -, taken⟩ := Option.bind_eq_some_iff.mp taken
    obtain ⟨middle, below, taken⟩ := Option.bind_eq_some_iff.mp taken
    have steps := @PartialRun.run_relates _ _ _ (fun state next => next.monitor = state.monitor)
      (fun _ => rfl) (fun _ _ _ first second => by exact second.trans first) (fun _ _ _ taken => ih taken) _ _ _ below
    exact (evaluateActor_monitor taken).trans steps.1

theorem Draw_monitor {depth : ℕ} {now : AnimationTime} {bound : ActorAddress → Option ℕ}
    {result : TidyScene × Bool} (drawn : scene.Draw interpolate depth now bound = some result) :
    result.1.monitor = scene.monitor := by
  obtain ⟨updated, update, drawn⟩ := Option.bind_eq_some_iff.mp drawn
  have kept := Update_monitor update
  have same : updated.monitor = scene.monitor := kept
  split at drawn
  · cases drawn
    rw [← same]
    refine WindowMonitor.ext rfl rfl rfl rfl rfl (funext fun address => ?_)
    change ((updated.actors_ address).map (bindPixmap bound address)).elim 0 SceneActor.pixmapWindow =
      (updated.actors_ address).elim 0 SceneActor.pixmapWindow
    cases updated.actors_ address with
    | none => rfl
    | some actor =>
      change (bindPixmap bound address actor).pixmapWindow = actor.pixmapWindow
      rw [bindPixmap]
      split <;> rfl
  · cases drawn
    exact same

end Updates

section Calls

variable {interpolate : Interpolation} {result : TidyScene × Bool}

theorem monitor_of_map {operation : Option TidyScene} {monitor : WindowMonitor}
    (performed : operation.map (·, false) = some result)
    (same : ∀ next, operation = some next → next.monitor = monitor) : result.1.monitor = monitor := by
  obtain ⟨next, taken, rfl⟩ := Option.map_eq_some_iff.mp performed
  exact same next taken

theorem monitor_of_eq {monitor : WindowMonitor} (performed : some (next, false) = some result)
    (same : next.monitor = monitor) : result.1.monitor = monitor := by
  cases performed
  exact same

/-- The windows of actors and what is kept of them change by the change of the call. -/
theorem perform_monitor {call : SceneCall} (numbered : scene.Numbered)
    (performed : scene.perform interpolate call = some result) :
    result.1.monitor = scene.monitor.apply (scene.windowChange call) := by
  cases call with
  | CreateGroup => exact monitor_of_eq performed (create_monitor_same numbered rfl)
  | CreateRectangle color => exact monitor_of_eq performed (create_monitor_same numbered rfl)
  | CreateImage image =>
    cases image with
    | none => exact monitor_of_eq performed (create_monitor_same numbered rfl)
    | some image => exact monitor_of_eq performed (create_monitor_same numbered rfl)
  | CreateTexturePixmap => exact monitor_of_eq performed (create_monitor_same numbered rfl)
  | CreateText color => exact monitor_of_eq performed (create_monitor_same numbered rfl)
  | CloneActor orig => exact monitor_of_map performed fun _ => CloneActor_monitor numbered
  | AddActor container actor => exact monitor_of_map performed fun _ => AddActor_monitor
  | RemoveActor container actor => exact monitor_of_map performed fun _ => RemoveActor_monitor
  | Raise actor other => exact monitor_of_map performed fun _ => restack_monitor
  | Lower actor other => exact monitor_of_map performed fun _ => restack_monitor
  | RaiseToTop actor => exact monitor_of_map performed fun _ => restack_monitor
  | LowerToBottom actor => exact monitor_of_map performed fun _ => restack_monitor
  | SetVisibility actor visible =>
    exact monitor_of_map performed fun _ taken => modify_dirty_monitor taken fun _ => rfl
  | SetSize actor width height =>
    exact monitor_of_map performed fun _ taken => modify_dirty_monitor taken fun _ => rfl
  | MoveX actor x duration_ms => exact monitor_of_map performed fun _ => animate_monitor
  | MoveY actor y duration_ms => exact monitor_of_map performed fun _ => animate_monitor
  | Move actor x y duration_ms => exact monitor_of_map performed fun _ => animate_monitor
  | Scale actor scale_x scale_y duration_ms => exact monitor_of_map performed fun _ => animate_monitor
  | SetOpacity actor opacity duration_ms => exact monitor_of_map performed fun _ => animate_monitor
  | SetColor actor color => exact monitor_of_map performed fun _ => SetColor_monitor
  | SetTexturePixmapWindow actor xid => exact monitor_of_map performed fun _ => SetTexturePixmapWindow_monitor
  | Reset actor => exact monitor_of_map performed fun _ => Reset_monitor
  | destroy actor => exact monitor_of_map performed fun _ => destroy_monitor
  | HandleWindowConfigured xid => exact monitor_of_map performed fun _ => HandleWindowConfigured_monitor
  | HandleWindowDestroyed xid => exact monitor_of_map performed fun _ => HandleWindowDestroyed_monitor
  | HandleWindowDamaged xid content => exact monitor_of_map performed fun _ => HandleWindowDamaged_monitor
  | Draw depth now bound => exact Draw_monitor performed

end Calls

end TidyScene

/-- The scene, and the windows that actors were given by `SetTexturePixmapWindow` and still have. -/
structure MonitorRun where
  scene : TidyScene
  explicit : ActorAddress → XWindow := fun _ => 0

namespace WindowMonitor

/-- The windows that actors have been asked to have. -/
def asked (explicit : ActorAddress → XWindow) : WindowChange → ActorAddress → XWindow
  | .assign actor xid => Function.update explicit actor xid
  | _ => explicit

/-- The windows that actors were given, without those that they no longer have. -/
def explicitAfter (explicit : ActorAddress → XWindow) (change : WindowChange) (next : WindowMonitor)
    (address : ActorAddress) : XWindow :=
  if asked explicit change address = next.window address then next.window address else 0

/-- Exactly the windows that actors have are monitored, each for an actor that has it. -/
structure Monitored (monitor : WindowMonitor) : Prop where
  known : ∀ xid ≠ 0, monitor.texture_pixmaps_ xid ≠ none ↔ ∃ actor, monitor.window actor = xid
  tracked : ∀ xid ≠ 0, monitor.tracked xid = true ↔ ∃ actor, monitor.window actor = xid
  redirected : ∀ xid ≠ 0, monitor.redirected xid = true ↔ ∃ actor, monitor.window actor = xid
  stored : ∀ xid ≠ 0, ∀ actor, monitor.texture_pixmaps_ xid = some actor → monitor.window actor = xid
  stopped : ∀ xid ≠ 0, monitor.stopped xid ≤ monitor.started xid

/-- A change that takes its window from an actor takes it from the last one that has it. -/
def LastHolder (monitor : WindowMonitor) (change : WindowChange) : Prop :=
  ∀ actor, (change = .release actor ∨ ∃ xid, change = .assign actor xid ∧ xid ≠ monitor.window actor) →
    monitor.window actor ≠ 0 → ∀ other, monitor.window other = monitor.window actor → other = actor

/-- A window is given to an actor while no other one has been given it. -/
def OneOwner (explicit : ActorAddress → XWindow) (change : WindowChange) : Prop :=
  ∀ actor xid, change = .assign actor xid → xid ≠ 0 → ∀ other, explicit other = xid → other = actor

/-- Windows are monitored for the actors that were given them. -/
structure Inv (monitor : WindowMonitor) (explicit : ActorAddress → XWindow) : Prop where
  stored : ∀ xid ≠ 0, ∀ actor, monitor.texture_pixmaps_ xid = some actor →
    monitor.window actor = xid ∧ explicit actor = xid
  held : ∀ actor, monitor.window actor ≠ 0 → monitor.texture_pixmaps_ (monitor.window actor) ≠ none
  tracked : ∀ xid ≠ 0, monitor.tracked xid = (monitor.texture_pixmaps_ xid).isSome
  redirected : ∀ xid ≠ 0, monitor.redirected xid = (monitor.texture_pixmaps_ xid).isSome
  balanced : ∀ xid ≠ 0, monitor.started xid = monitor.stopped xid + (monitor.texture_pixmaps_ xid).isSome.toNat

variable {monitor : WindowMonitor} {explicit : ActorAddress → XWindow}

theorem Inv.known (inv : Inv monitor explicit) {xid : XWindow} (window : xid ≠ 0) :
    monitor.texture_pixmaps_ xid ≠ none ↔ ∃ actor, monitor.window actor = xid := by
  constructor
  · intro some
    obtain ⟨actor, stored⟩ := Option.ne_none_iff_exists'.mp some
    exact ⟨actor, (inv.stored xid window actor stored).1⟩
  · rintro ⟨actor, rfl⟩
    exact inv.held actor window

theorem Inv.monitored (inv : Inv monitor explicit) : monitor.Monitored where
  known _ window := inv.known window
  tracked xid window := by rw [inv.tracked xid window, Option.isSome_iff_ne_none, inv.known window]
  redirected xid window := by rw [inv.redirected xid window, Option.isSome_iff_ne_none, inv.known window]
  stored xid window actor stored := (inv.stored xid window actor stored).1
  stopped xid window := by
    rw [inv.balanced xid window]
    exact Nat.le_add_right _ _

theorem explicitAfter_of_has {change : WindowChange} {address : ActorAddress} {xid : XWindow}
    (has : monitor.window address = xid) (given : asked explicit change address = xid) :
    explicitAfter explicit change monitor address = xid := by
  rw [explicitAfter, if_pos (given.trans has.symm), has]

theorem explicitAfter_of_unasked {change : WindowChange} {address : ActorAddress}
    (unasked : asked explicit change address = 0) : explicitAfter explicit change monitor address = 0 := by
  rw [explicitAfter, unasked]
  split
  · next none => exact none.symm
  · rfl

/-- A clone has the window of an actor that is monitored already. -/
theorem Inv.copy (inv : Inv monitor explicit) {clone orig : ActorAddress} (fresh : monitor.window clone = 0) :
    Inv (monitor.apply (.copy clone orig))
      (explicitAfter explicit (.copy clone orig) (monitor.apply (.copy clone orig))) where
  stored xid window actor stored := by
    obtain ⟨has, given⟩ := inv.stored xid window actor stored
    have other : actor ≠ clone := by
      rintro rfl
      exact window (has.symm.trans fresh)
    have same : (monitor.apply (.copy clone orig)).window actor = xid := (Function.update_of_ne other _ _).trans has
    exact ⟨same, explicitAfter_of_has same given⟩
  held actor := by
    simp only [apply, setWindow, Function.update_apply]
    split
    · exact inv.held orig
    · exact inv.held actor
  tracked := inv.tracked
  redirected := inv.redirected
  balanced := inv.balanced

section Release

variable (monitor) (actor : ActorAddress) {xid : XWindow}

theorem release_pixmaps (window : xid ≠ 0) : (monitor.release actor).texture_pixmaps_ xid =
    if xid = monitor.window actor then none else monitor.texture_pixmaps_ xid := by
  rw [release]
  split
  · simp only [setWindow, stop, Function.update_apply]
  · next none => rw [if_neg (not_ne_iff.mp none ▸ window)]

theorem release_tracked (window : xid ≠ 0) : (monitor.release actor).tracked xid =
    if xid = monitor.window actor then false else monitor.tracked xid := by
  rw [release]
  split
  · simp only [setWindow, stop, Function.update_apply]
  · next none => rw [if_neg (not_ne_iff.mp none ▸ window)]

theorem release_redirected (window : xid ≠ 0) : (monitor.release actor).redirected xid =
    if xid = monitor.window actor then false else monitor.redirected xid := by
  rw [release]
  split
  · simp only [setWindow, stop, Function.update_apply]
  · next none => rw [if_neg (not_ne_iff.mp none ▸ window)]

theorem release_started : (monitor.release actor).started = monitor.started := by
  rw [release]
  split <;> rfl

theorem release_stopped (window : xid ≠ 0) : (monitor.release actor).stopped xid =
    if xid = monitor.window actor then monitor.stopped xid + 1 else monitor.stopped xid := by
  rw [release]
  split
  · simp only [setWindow, stop, Function.update_apply]
    split
    · next same => rw [same]
    · rfl
  · next none => rw [if_neg (not_ne_iff.mp none ▸ window)]

end Release

/-- The last actor that has a window lets go of it. -/
theorem Inv.release (inv : Inv monitor explicit) {actor : ActorAddress}
    (last : monitor.LastHolder (.release actor)) :
    Inv (monitor.apply (.release actor))
      (explicitAfter explicit (.release actor) (monitor.apply (.release actor))) where
  stored xid window other stored := by
    rw [apply, monitor.release_pixmaps actor window] at stored
    split at stored
    · cases stored
    · next differs =>
      obtain ⟨has, given⟩ := inv.stored xid window other stored
      have apart : other ≠ actor := by
        rintro rfl
        exact differs has.symm
      have same : (monitor.apply (.release actor)).window other = xid := by
        rw [apply, release_window, Function.update_of_ne apart, has]
      exact ⟨same, explicitAfter_of_has same given⟩
  held other window := by
    rw [apply, release_window, Function.update_apply] at window ⊢
    split at window
    · exact absurd rfl window
    · next apart =>
      rw [if_neg apart, monitor.release_pixmaps actor window, if_neg]
      · exact inv.held other window
      · intro same
        exact apart (last actor (.inl rfl) (same ▸ window) other same)
  tracked xid window := by
    rw [apply, monitor.release_tracked actor window, monitor.release_pixmaps actor window]
    split
    · rfl
    · exact inv.tracked xid window
  redirected xid window := by
    rw [apply, monitor.release_redirected actor window, monitor.release_pixmaps actor window]
    split
    · rfl
    · exact inv.redirected xid window
  balanced xid window := by
    rw [apply, release_started, monitor.release_stopped actor window, monitor.release_pixmaps actor window]
    have count := inv.balanced xid window
    split
    · next same =>
      have some := Option.isSome_iff_ne_none.mpr (inv.held actor (same ▸ window))
      rw [← same] at some
      rw [count, some]
      rfl
    · exact count

/-- A window is monitored for the actor that is given it. -/
theorem Inv.assign (inv : Inv monitor explicit) {actor : ActorAddress} {given : XWindow}
    (owner : OneOwner explicit (.assign actor given)) (last : monitor.LastHolder (.assign actor given)) :
    Inv (monitor.apply (.assign actor given))
      (explicitAfter explicit (.assign actor given) (monitor.apply (.assign actor given))) where
  stored xid window other stored := by
    simp only [apply, start, setWindow, Function.update_apply] at stored
    split at stored
    · next same =>
      cases stored
      have has : (monitor.apply (.assign actor given)).window actor = xid := (Function.update_self _ _ _).trans same.symm
      refine ⟨has, explicitAfter_of_has has ?_⟩
      exact (Function.update_self _ _ _).trans same.symm
    · next differs =>
      rw [monitor.release_pixmaps actor window] at stored
      split at stored
      · cases stored
      · next left =>
        obtain ⟨has, known⟩ := inv.stored xid window other stored
        have apart : other ≠ actor := by
          rintro rfl
          exact left has.symm
        have same : (monitor.apply (.assign actor given)).window other = xid := by
          simp only [apply, start, setWindow, release_window, Function.update_of_ne apart, has]
        refine ⟨same, explicitAfter_of_has same ?_⟩
        exact (Function.update_of_ne apart _ _).trans known
  held other window := by
    simp only [apply, start, setWindow, release_window, Function.update_apply] at window ⊢
    split at window
    · next same => exact ne_of_eq_of_ne (if_pos (if_pos same)) nofun
    · next apart =>
      rw [if_neg apart, if_neg apart]
      split
      · exact nofun
      · next differs =>
        rw [monitor.release_pixmaps actor window, if_neg]
        · exact inv.held other window
        · intro same
          exact apart (last actor (.inr ⟨given, rfl, fun equal => differs (same.trans equal.symm)⟩)
            (same ▸ window) other same)
  tracked xid window := by
    simp only [apply, start, setWindow, Function.update_apply]
    split
    · rfl
    · rw [monitor.release_tracked actor window, monitor.release_pixmaps actor window]
      split
      · rfl
      · exact inv.tracked xid window
  redirected xid window := by
    simp only [apply, start, setWindow, Function.update_apply]
    split
    · rfl
    · rw [monitor.release_redirected actor window, monitor.release_pixmaps actor window]
      split
      · rfl
      · exact inv.redirected xid window
  balanced xid window := by
    have count := inv.balanced xid window
    simp only [apply, start, setWindow, Function.update_apply, release_started,
      monitor.release_stopped actor window]
    by_cases had : xid = monitor.window actor
    · have some := Option.isSome_iff_ne_none.mpr (inv.held actor (had ▸ window))
      rw [← had] at some
      rw [some] at count
      rw [if_pos had]
      split
      · next same =>
        rw [← same, count]
        rfl
      · rw [monitor.release_pixmaps actor window, if_pos had, count]
        rfl
    · rw [if_neg had]
      split
      · next same =>
        have none : monitor.texture_pixmaps_ xid = none := by
          by_contra some
          obtain ⟨other, stored⟩ := Option.ne_none_iff_exists'.mp some
          obtain ⟨has, known⟩ := inv.stored xid window other stored
          have equal := owner actor given rfl (same ▸ window) other (known.trans same)
          exact had (equal ▸ has.symm)
        rw [none] at count
        rw [← same, count]
        rfl
      · rw [monitor.release_pixmaps actor window, if_neg had]
        exact count

/-- A change that takes a window from an actor while another one has it, ends the monitoring of a window that an
actor has. -/
theorem unmonitored {change : WindowChange} (left : ¬ monitor.LastHolder change) :
    ¬ (monitor.apply change).Monitored := by
  simp only [LastHolder, not_forall] at left
  obtain ⟨actor, takes, window, other, same, apart⟩ := left
  intro monitored
  rcases takes with rfl | ⟨xid, rfl, differs⟩
  · refine (monitored.known _ window).mpr ⟨other, ?_⟩ ?_
    · rw [apply, release_window, Function.update_of_ne apart, same]
    · rw [apply, monitor.release_pixmaps actor window, if_pos rfl]
  · refine (monitored.known _ window).mpr ⟨other, ?_⟩ ?_
    · simp only [apply, start, setWindow, release_window, Function.update_of_ne apart, same]
    · simp only [apply, start, setWindow, Function.update_of_ne differs.symm]
      rw [monitor.release_pixmaps actor window, if_pos rfl]

end WindowMonitor

namespace MonitorRun

open WindowMonitor

def step (interpolate : Interpolation) (run : MonitorRun) (call : SceneCall) : Option MonitorRun :=
  (run.scene.perform interpolate call).map fun result =>
    { scene := result.1
      explicit := explicitAfter run.explicit (run.scene.windowChange call) result.1.monitor }

/-- Exactly the windows of actors are monitored. -/
def Monitored (run : MonitorRun) : Prop := run.scene.monitor.Monitored

/-- `SetTexturePixmapWindow` is called with a window that no other actor has from such a call. -/
def OneOwner (run : MonitorRun) (call : SceneCall) : Prop :=
  WindowMonitor.OneOwner run.explicit (run.scene.windowChange call)

/-- A call that completes takes its window only from the last actor that has it. -/
def LastHolder (interpolate : Interpolation) (run : MonitorRun) (call : SceneCall) : Prop :=
  run.step interpolate call ≠ none → run.scene.monitor.LastHolder (run.scene.windowChange call)

structure Inv (run : MonitorRun) : Prop where
  numbered : run.scene.Numbered
  windows : WindowMonitor.Inv run.scene.monitor run.explicit

variable {run next : MonitorRun} {interpolate : Interpolation}

theorem start (width height : ℤ) (now : AnimationTime) : Inv { scene := .new width height now } where
  numbered := FrameRun.new_numbered width height now
  windows := by
    have none : ∀ actor, (TidyScene.new width height now).monitor.window actor = 0 := by
      intro actor
      simp only [TidyScene.monitor, TidyScene.pixmapWindow, TidyScene.new, Function.update_apply]
      split <;> rfl
    exact
      { stored := fun _ _ actor stored => absurd stored.symm (Option.some_ne_none actor)
        held := fun actor window => absurd (none actor) window
        tracked := fun _ _ => rfl
        redirected := fun _ _ => rfl
        balanced := fun _ _ => rfl }

theorem step_inv {call : SceneCall} (inv : Inv run) (owner : run.OneOwner call)
    (last : run.LastHolder interpolate call) (taken : run.step interpolate call = some next) : Inv next := by
  have lets := last (Option.ne_none_iff_exists'.mpr ⟨next, taken⟩)
  obtain ⟨result, performed, rfl⟩ := Option.map_eq_some_iff.mp taken
  refine ⟨TidyScene.perform_numbered inv.numbered performed, ?_⟩
  change WindowMonitor.Inv result.1.monitor (explicitAfter run.explicit (run.scene.windowChange call) result.1.monitor)
  rw [TidyScene.perform_monitor inv.numbered performed]
  rw [OneOwner] at owner
  generalize change : run.scene.windowChange call = effect at owner lets ⊢
  cases effect with
  | none =>
    refine ⟨fun xid window actor stored => ?_, inv.windows.held, inv.windows.tracked, inv.windows.redirected,
      inv.windows.balanced⟩
    obtain ⟨has, given⟩ := inv.windows.stored xid window actor stored
    exact ⟨has, explicitAfter_of_has has given⟩
  | copy clone orig =>
    have fresh : run.scene.monitor.window clone = 0 := by
      rw [TidyScene.clone_of_windowChange change]
      exact inv.numbered.pixmapWindow
    exact inv.windows.copy fresh
  | release actor => exact inv.windows.release lets
  | assign actor xid => exact inv.windows.assign owner lets

theorem step_broken {call : SceneCall} (inv : Inv run) (left : ¬ run.LastHolder interpolate call) :
    ∃ next, run.step interpolate call = some next ∧ ¬ next.Monitored := by
  obtain ⟨completes, left⟩ := Classical.not_imp.mp left
  obtain ⟨next, taken⟩ := Option.ne_none_iff_exists'.mp completes
  refine ⟨next, taken, ?_⟩
  obtain ⟨result, performed, rfl⟩ := Option.map_eq_some_iff.mp taken
  rw [Monitored, TidyScene.perform_monitor inv.numbered performed]
  exact unmonitored left

end MonitorRun

/-- While windows are given to one actor at a time, exactly the windows of actors are monitored in all of a run if
and only if whatever takes a window from an actor takes it from the last one that has it. -/
theorem monitoring_follows_actors (interpolate : Interpolation) (width height : ℤ) (now : AnimationTime)
    (calls : List SceneCall)
    (owners : PartialRun.Throughout (MonitorRun.step interpolate) MonitorRun.OneOwner
      { scene := .new width height now } calls) :
    PartialRun.Always (MonitorRun.step interpolate) MonitorRun.Monitored { scene := .new width height now } calls ↔
      PartialRun.Throughout (MonitorRun.step interpolate) (MonitorRun.LastHolder interpolate)
        { scene := .new width height now } calls :=
  PartialRun.always_iff_throughout_of MonitorRun.Inv (fun _ inv => inv.windows.monitored)
    (fun _ _ _ inv owner last taken => MonitorRun.step_inv inv owner last taken)
    (fun _ _ inv left => MonitorRun.step_broken inv left) (MonitorRun.start width height now) owners

section Clone

/-- A window is given to an actor and the actor is destroyed. -/
theorem monitoring_follows_actors_single :
    PartialRun.Always (MonitorRun.step holdStart) MonitorRun.Monitored { scene := .new 800 600 0 }
      [.CreateTexturePixmap, .SetTexturePixmapWindow 1 7, .destroy 1] := by
  refine (monitoring_follows_actors holdStart 800 600 0 _ ?_).mpr ?_
  · refine PartialRun.throughout_cons.mpr ⟨(fun _ _ same => nomatch same), fun next taken => ?_⟩
    cases taken
    refine PartialRun.throughout_cons.mpr ⟨fun actor xid same window other given => ?_, fun next taken => ?_⟩
    · cases same
      exact absurd ((WindowMonitor.explicitAfter_of_unasked rfl).symm.trans given) (by decide)
    cases taken
    exact PartialRun.throughout_cons.mpr
      ⟨(fun _ _ same => nomatch same), fun _ _ => PartialRun.throughout_nil⟩
  · refine PartialRun.throughout_cons.mpr ⟨fun _ actor takes => ?_, fun next taken => ?_⟩
    · rcases takes with same | ⟨_, same, _⟩ <;> exact nomatch same
    cases taken
    refine PartialRun.throughout_cons.mpr ⟨fun _ actor takes window => ?_, fun next taken => ?_⟩
    · rcases takes with same | ⟨_, same, _⟩
      · exact nomatch same
      · cases same
        exact absurd rfl window
    cases taken
    refine PartialRun.throughout_cons.mpr ⟨fun _ actor takes window other same => ?_, fun _ _ =>
      PartialRun.throughout_nil⟩
    have only : actor = 1 := by
      rcases takes with released | ⟨_, assigned, _⟩
      · cases released
        rfl
      · exact nomatch assigned
    subst only
    match other with
    | 0 => exact nomatch same
    | 1 => rfl
    | other + 2 => exact nomatch same

/-- A window is given to an actor, the actor is cloned and the clone is destroyed: the actor still has the window,
and it is not monitored any more. -/
theorem clone_ends_monitoring :
    PartialRun.Throughout (MonitorRun.step holdStart) MonitorRun.OneOwner { scene := .new 800 600 0 }
        [.CreateTexturePixmap, .SetTexturePixmapWindow 1 7, .CloneActor 1, .destroy 2] ∧
      ∃ run, PartialRun.run (MonitorRun.step holdStart) { scene := .new 800 600 0 }
          [.CreateTexturePixmap, .SetTexturePixmapWindow 1 7, .CloneActor 1, .destroy 2] = some run ∧
        run.scene.pixmapWindow 1 = 7 ∧ run.scene.texture_pixmaps_ 7 = none ∧ ¬ run.Monitored := by
  refine ⟨?_, _, rfl, rfl, rfl, fun monitored => ?_⟩
  · refine PartialRun.throughout_cons.mpr ⟨(fun _ _ same => nomatch same), fun next taken => ?_⟩
    cases taken
    refine PartialRun.throughout_cons.mpr ⟨fun actor xid same window other given => ?_, fun next taken => ?_⟩
    · cases same
      exact absurd ((WindowMonitor.explicitAfter_of_unasked rfl).symm.trans given) (by decide)
    cases taken
    refine PartialRun.throughout_cons.mpr ⟨(fun _ _ same => nomatch same), fun next taken => ?_⟩
    cases taken
    exact PartialRun.throughout_cons.mpr
      ⟨(fun _ _ same => nomatch same), fun _ _ => PartialRun.throughout_nil⟩
  · exact (monitored.known 7 (by decide)).mpr ⟨1, rfl⟩ rfl

end Clone

end ChromiumOS.WindowManager
