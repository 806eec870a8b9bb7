import ChromiumOS.Model.WindowManager.TidyInterface
import ChromiumOS.Model.WindowManager.Animation
import ChromiumOS.Model.WindowManager.ToplevelWindow

/-! # The scene

The interface of `tidy_interface.cc` with its actors and everything that is drawn of them, the flag that asks
for a new frame, and the windows whose pixmaps are shown. The identity of an actor is not used again. A failed
`CHECK` and a call through a pointer to an actor that is gone are `none`; `DCHECK` is not compiled in.
-/

namespace ChromiumOS.WindowManager

inductive ActorKind where
  | Actor
  | ContainerActor
  | QuadActor
  | TexturePixmapActor
  | StageActor
deriving DecidableEq

/-- The red, green and blue of a colour. -/
abbrev Color := ℚ × ℚ × ℚ

/-- An actor. Drawing data is given by where it is; the window of a texture pixmap actor is 0 for `None`. -/
structure SceneActor where
  kind : ActorKind
  parent_ : Option ActorAddress := none
  animated : AnimatedActor
  width_ : ℤ := 1
  height_ : ℤ := 1
  has_children_ : Bool := false
  visible_ : Bool := true
  children_ : List ActorAddress := []
  color_ : Color := (1, 1, 1)
  texture_data : Option ℕ := none
  pixmap_data : Option ℕ := none
  window_ : XWindow := 0

/-- The fields of a new actor. -/
def initialFields : ActorFields
  | .x_ => (0 : ℤ)
  | .y_ => (0 : ℤ)
  | .scale_x_ => (1 : ℚ)
  | .scale_y_ => (1 : ℚ)
  | .opacity_ => (1 : ℚ)

namespace ActorKind

def isContainer (kind : ActorKind) : Bool := kind = .ContainerActor || kind = .StageActor

def isQuad (kind : ActorKind) : Bool := kind = .QuadActor || kind = .TexturePixmapActor

/-- What `SetSizeImpl` makes of a size. -/
def SetSizeImpl (kind : ActorKind) (width height : ℤ) : ℤ × ℤ :=
  if kind = .ContainerActor then (1, 1) else (width, height)

end ActorKind

/-- The interface. The stage is the first actor; the calls that start and stop the events for a window are
counted, and the contents of pixmaps have versions. -/
structure TidyScene where
  actors_ : ActorAddress → Option SceneActor
  created : ℕ
  dirty_ : Bool
  now_ : AnimationTime
  texture_pixmaps_ : XWindow → Option ActorAddress := fun _ => none
  xids_tracked_by_compositor_ : XWindow → Bool := fun _ => false
  redirected : XWindow → Bool := fun _ => false
  started : XWindow → ℕ := fun _ => 0
  stopped : XWindow → ℕ := fun _ => 0
  contents : ℕ → ℕ := fun _ => 0

namespace TidyScene

def default_stage_ : ActorAddress := 0

/-- The interface with a stage of a size, at a time. -/
def new (width height : ℤ) (now : AnimationTime) : TidyScene where
  actors_ := Function.update (fun _ => none) default_stage_
    (some { kind := .StageActor, animated := ⟨initialFields, []⟩, width_ := width, height_ := height })
  created := 1
  dirty_ := true
  now_ := now

variable (scene : TidyScene) (interpolate : Interpolation)

def set (address : ActorAddress) (actor : SceneActor) : TidyScene :=
  { scene with actors_ := Function.update scene.actors_ address (some actor) }

def set_dirty : TidyScene := { scene with dirty_ := true }

/-- A change of an actor that is alive. -/
def modify (address : ActorAddress) (change : SceneActor → SceneActor) : Option TidyScene :=
  (scene.actors_ address).map fun actor => scene.set address (change actor)

def create (actor : SceneActor) : TidyScene :=
  { scene.set scene.created actor with created := scene.created + 1 }

def CreateGroup : TidyScene := scene.create { kind := .ContainerActor, animated := ⟨initialFields, []⟩ }

def CreateRectangle (color : Color) : TidyScene :=
  scene.create { kind := .QuadActor, animated := ⟨initialFields, []⟩, color_ := color }

/-- An image of a size with a texture, or none if it cannot be loaded. -/
def CreateImage (image : Option (ℤ × ℤ × ℕ)) : TidyScene :=
  match image with
  | some (width, height, texture) =>
    (scene.create
      { kind := .QuadActor
        animated := ⟨initialFields, []⟩
        width_ := width
        height_ := height
        texture_data := some texture }).set_dirty
  | none => scene.create { kind := .QuadActor, animated := ⟨initialFields, []⟩, color_ := (1, 0, 1) }

def CreateTexturePixmap : TidyScene :=
  scene.create { kind := .TexturePixmapActor, animated := ⟨initialFields, []⟩ }

def CreateText (color : Color) : TidyScene :=
  (scene.create
    { kind := .QuadActor
      animated := ⟨Function.update initialFields .opacity_ (1 / 2 : ℚ), []⟩
      color_ := color }).set_dirty

/-- The copy that `CloneImpl` makes of an actor: without its parent and its animations. -/
def cloneOf (actor : SceneActor) : SceneActor :=
  { actor with parent_ := none, animated := ⟨actor.animated.fields, []⟩, children_ := [] }

/-- A clone of an actor; containers have none. -/
def CloneActor (orig : ActorAddress) : Option TidyScene := do
  let actor ← scene.actors_ orig
  if actor.kind.isContainer then return scene
  return scene.create (cloneOf actor)

def AddActor (container actor : ActorAddress) : Option TidyScene := do
  let scene ← scene.modify actor fun actor => { actor with parent_ := some container }
  let this ← scene.actors_ container
  guard this.kind.isContainer
  return (scene.set container { this with children_ := actor :: this.children_, has_children_ := true }).set_dirty

def RemoveActor (container actor : ActorAddress) : Option TidyScene := do
  let this ← scene.actors_ container
  guard this.kind.isContainer
  if actor ∈ this.children_ then
    let children_ := this.children_.erase actor
    return (scene.set container { this with children_, has_children_ := !children_.isEmpty }).set_dirty
  return scene

/-- `RaiseChild` or `LowerChild` on the parent of an actor. -/
def restack (actor : ActorAddress) (method : List ActorAddress → List ActorAddress) : Option TidyScene := do
  let this ← scene.actors_ actor
  let parent_ ← this.parent_
  let container ← scene.actors_ parent_
  guard container.kind.isContainer
  return (scene.set parent_ { container with children_ := method container.children_ }).set_dirty

def Raise (actor other : ActorAddress) : Option TidyScene :=
  scene.restack actor fun children_ => RaiseChild children_ actor (some other)

def Lower (actor other : ActorAddress) : Option TidyScene :=
  scene.restack actor fun children_ => LowerChild children_ actor (some other)

def RaiseToTop (actor : ActorAddress) : Option TidyScene :=
  scene.restack actor fun children_ => RaiseChild children_ actor none

def LowerToBottom (actor : ActorAddress) : Option TidyScene :=
  scene.restack actor fun children_ => LowerChild children_ actor none

def SetVisibility (actor : ActorAddress) (visible : Bool) : Option TidyScene :=
  (scene.modify actor fun this => { this with visible_ := visible }).map set_dirty

def SetSize (actor : ActorAddress) (width height : ℤ) : Option TidyScene :=
  (scene.modify actor fun this =>
    { this with
      width_ := (this.kind.SetSizeImpl width height).1
      height_ := (this.kind.SetSizeImpl width height).2 }).map set_dirty

/-- A request for fields of an actor, which asks for a frame if it takes effect at once. -/
def animate (actor : ActorAddress) (duration_ms : ℤ) (request : AnimatedActor → AnimatedActor) :
    Option TidyScene :=
  (scene.modify actor fun this => { this with animated := request this.animated }).map fun scene =>
    if duration_ms > 0 then scene else scene.set_dirty

def MoveX (actor : ActorAddress) (x duration_ms : ℤ) : Option TidyScene :=
  scene.animate actor duration_ms fun this => this.MoveX scene.now_ x duration_ms

def MoveY (actor : ActorAddress) (y duration_ms : ℤ) : Option TidyScene :=
  scene.animate actor duration_ms fun this => this.MoveY scene.now_ y duration_ms

def Move (actor : ActorAddress) (x y duration_ms : ℤ) : Option TidyScene :=
  scene.animate actor duration_ms fun this => this.Move scene.now_ x y duration_ms

def Scale (actor : ActorAddress) (scale_x scale_y : ℚ) (duration_ms : ℤ) : Option TidyScene :=
  scene.animate actor duration_ms fun this => this.Scale scene.now_ scale_x scale_y duration_ms

def SetOpacity (actor : ActorAddress) (opacity : ℚ) (duration_ms : ℤ) : Option TidyScene :=
  scene.animate actor duration_ms fun this => this.SetOpacity scene.now_ opacity duration_ms

def SetColor (actor : ActorAddress) (color : Color) : Option TidyScene := do
  let this ← scene.actors_ actor
  guard this.kind.isQuad
  return scene.set actor { this with color_ := color }

def StartMonitoringWindowForChanges (xid : XWindow) (actor : ActorAddress) : TidyScene :=
  { scene with
    xids_tracked_by_compositor_ := Function.update scene.xids_tracked_by_compositor_ xid true
    started := Function.update scene.started xid (scene.started xid + 1)
    texture_pixmaps_ := Function.update scene.texture_pixmaps_ xid (some actor)
    redirected := Function.update scene.redirected xid true }

def StopMonitoringWindowForChanges (xid : XWindow) : TidyScene :=
  { scene with
    redirected := Function.update scene.redirected xid false
    texture_pixmaps_ := Function.update scene.texture_pixmaps_ xid none
    xids_tracked_by_compositor_ := Function.update scene.xids_tracked_by_compositor_ xid false
    stopped := Function.update scene.stopped xid (scene.stopped xid + 1) }

/-- `Reset`, with the pixmap destroyed. -/
def Reset (actor : ActorAddress) : Option TidyScene := do
  let this ← scene.actors_ actor
  guard (this.kind = .TexturePixmapActor)
  let scene := if this.window_ ≠ 0 then scene.StopMonitoringWindowForChanges this.window_ else scene
  return (scene.set actor { this with window_ := 0, pixmap_data := none }).set_dirty

def SetTexturePixmapWindow (actor : ActorAddress) (xid : XWindow) : Option TidyScene := do
  let scene ← scene.Reset actor
  let scene ← scene.modify actor fun this => { this with window_ := xid }
  return (scene.StartMonitoringWindowForChanges xid actor).set_dirty

/-- The destructor of the class of an actor. -/
def destroyClass (actor : ActorAddress) (kind : ActorKind) : Option TidyScene :=
  if kind = .TexturePixmapActor then scene.Reset actor else some scene

/-- The destructor; the stage is never destroyed while the interface is there. A container that is its own parent
would call `RemoveActor` on children that are already gone. -/
def destroy (actor : ActorAddress) : Option TidyScene := do
  let this ← scene.actors_ actor
  guard (this.kind ≠ .StageActor ∧ this.parent_ ≠ some actor)
  let scene ← scene.destroyClass actor this.kind
  let scene ← this.parent_.elim (some scene) fun parent_ => scene.RemoveActor parent_ actor
  return { scene with actors_ := Function.update scene.actors_ actor none }

def HandleWindowConfigured (xid : XWindow) : Option TidyScene :=
  match scene.texture_pixmaps_ xid with
  | none => some scene
  | some actor => (scene.modify actor fun this => { this with pixmap_data := none }).map set_dirty

def HandleWindowDestroyed (xid : XWindow) : Option TidyScene :=
  match scene.texture_pixmaps_ xid with
  | none => some scene
  | some actor => scene.Reset actor

/-- Damage gives the pixmap of an actor, and of the clones that share it, new contents. -/
def HandleWindowDamaged (xid : XWindow) (content : ℕ) : Option TidyScene :=
  match scene.texture_pixmaps_ xid with
  | none => some scene
  | some actor => do
    let this ← scene.actors_ actor
    let contents := this.pixmap_data.elim scene.contents fun data =>
      Function.update scene.contents data content
    return { scene with contents, dirty_ := true }

/-- `Update` of an actor alone. -/
def evaluateActor (address : ActorAddress) : Option TidyScene := do
  let this ← scene.actors_ address
  let scene := if this.animated.animations_.isEmpty then scene else scene.set_dirty
  return scene.set address { this with animated := this.animated.Update scene.now_ interpolate }

/-- `Update` of an actor and, before, of its children, down to a depth of calls. -/
def Update (interpolate : Interpolation) : ℕ → TidyScene → ActorAddress → Option TidyScene
  | 0, _, _ => none
  | depth + 1, scene, address => do
    let this ← scene.actors_ address
    let scene ← this.children_.foldlM (fun scene child => Update interpolate depth scene child) scene
    scene.evaluateActor interpolate address

/-- What drawing does to an actor: one that has no pixmap yet may get one. -/
def bindPixmap (bound : ActorAddress → Option ℕ) (address : ActorAddress) (actor : SceneActor) : SceneActor :=
  if actor.kind = .TexturePixmapActor ∧ actor.window_ ≠ 0 ∧ actor.pixmap_data = none then
    { actor with pixmap_data := bound address }
  else actor

def setNow (now : AnimationTime) : TidyScene := { scene with now_ := now }

/-- `Draw` at a time, given the pixmaps that the visitor binds, and whether a frame was drawn. -/
def Draw (depth : ℕ) (now : AnimationTime) (bound : ActorAddress → Option ℕ) : Option (TidyScene × Bool) := do
  let scene ← Update interpolate depth (scene.setNow now) default_stage_
  if scene.dirty_ then
    return ({ scene with
      actors_ := fun address => (scene.actors_ address).map (bindPixmap bound address)
      dirty_ := false }, true)
  return (scene, false)

end TidyScene

/-- An operation on an actor, an event of a window or a timer tick. -/
inductive SceneCall where
  | CreateGroup
  | CreateRectangle (color : Color)
  | CreateImage (image : Option (ℤ × ℤ × ℕ))
  | CreateTexturePixmap
  | CreateText (color : Color)
  | CloneActor (orig : ActorAddress)
  | AddActor (container actor : ActorAddress)
  | RemoveActor (container actor : ActorAddress)
  | Raise (actor other : ActorAddress)
  | Lower (actor other : ActorAddress)
  | RaiseToTop (actor : ActorAddress)
  | LowerToBottom (actor : ActorAddress)
  | SetVisibility (actor : ActorAddress) (visible : Bool)
  | SetSize (actor : ActorAddress) (width height : ℤ)
  | MoveX (actor : ActorAddress) (x duration_ms : ℤ)
  | MoveY (actor : ActorAddress) (y duration_ms : ℤ)
  | Move (actor : ActorAddress) (x y duration_ms : ℤ)
  | Scale (actor : ActorAddress) (scale_x scale_y : ℚ) (duration_ms : ℤ)
  | SetOpacity (actor : ActorAddress) (opacity : ℚ) (duration_ms : ℤ)
  | SetColor (actor : ActorAddress) (color : Color)
  | SetTexturePixmapWindow (actor : ActorAddress) (xid : XWindow)
  | Reset (actor : ActorAddress)
  | destroy (actor : ActorAddress)
  | HandleWindowConfigured (xid : XWindow)
  | HandleWindowDestroyed (xid : XWindow)
  | HandleWindowDamaged (xid : XWindow) (content : ℕ)
  | Draw (depth : ℕ) (now : AnimationTime) (bound : ActorAddress → Option ℕ)

/-- A call, and whether it has drawn a frame. -/
def TidyScene.perform (interpolate : Interpolation) (scene : TidyScene) :
    SceneCall → Option (TidyScene × Bool)
  | .CreateGroup => some (scene.CreateGroup, false)
  | .CreateRectangle color => some (scene.CreateRectangle color, false)
  | .CreateImage image => some (scene.CreateImage image, false)
  | .CreateTexturePixmap => some (scene.CreateTexturePixmap, false)
  | .CreateText color => some (scene.CreateText color, false)
  | .CloneActor orig => (scene.CloneActor orig).map (·, false)
  | .AddActor container actor => (scene.AddActor container actor).map (·, false)
  | .RemoveActor container actor => (scene.RemoveActor container actor).map (·, false)
  | .Raise actor other => (scene.Raise actor other).map (·, false)
  | .Lower actor other => (scene.Lower actor other).map (·, false)
  | .RaiseToTop actor => (scene.RaiseToTop actor).map (·, false)
  | .LowerToBottom actor => (scene.LowerToBottom actor).map (·, false)
  | .SetVisibility actor visible => (scene.SetVisibility actor visible).map (·, false)
  | .SetSize actor width height => (scene.SetSize actor width height).map (·, false)
  | .MoveX actor x duration_ms => (scene.MoveX actor x duration_ms).map (·, false)
  | .MoveY actor y duration_ms => (scene.MoveY actor y duration_ms).map (·, false)
  | .Move actor x y duration_ms => (scene.Move actor x y duration_ms).map (·, false)
  | .Scale actor scale_x scale_y duration_ms => (scene.Scale actor scale_x scale_y duration_ms).map (·, false)
  | .SetOpacity actor opacity duration_ms => (scene.SetOpacity actor opacity duration_ms).map (·, false)
  | .SetColor actor color => (scene.SetColor actor color).map (·, false)
  | .SetTexturePixmapWindow actor xid => (scene.SetTexturePixmapWindow actor xid).map (·, false)
  | .Reset actor => (scene.Reset actor).map (·, false)
  | .destroy actor => (scene.destroy actor).map (·, false)
  | .HandleWindowConfigured xid => (scene.HandleWindowConfigured xid).map (·, false)
  | .HandleWindowDestroyed xid => (scene.HandleWindowDestroyed xid).map (·, false)
  | .HandleWindowDamaged xid content => (scene.HandleWindowDamaged xid content).map (·, false)
  | .Draw depth now bound => scene.Draw interpolate depth now bound

end ChromiumOS.WindowManager
