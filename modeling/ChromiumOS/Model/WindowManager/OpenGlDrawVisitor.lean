import ChromiumOS.Model.WindowManager.LayerVisitor

/-! # Drawing a frame

`OpenGlDrawVisitor` in `opengl_visitor.cc`: the layer visitor goes first, then the opaque pass and the
transparent pass. What is drawn is recorded with its depth and alpha; matrices, colours, textures and buffers
are left out. Whether a pixmap can be bound to an actor that has none is given.
-/

namespace ChromiumOS.WindowManager

/-- `0.999` -/
def transparentThreshold : ℚ := 8998192055486251 / 2 ^ 53

/-- A call of `DrawArrays` for a quad. -/
structure DrawnQuad where
  address : ActorAddress
  z : ℚ
  alpha : ℚ
deriving DecidableEq

/-- What the two passes draw. -/
structure Frame where
  opaquePass : List DrawnQuad := []
  transparentPass : List DrawnQuad := []
deriving DecidableEq

/-- The visitor. The opacity of the ancestors is the one that the last frame left. -/
structure OpenGlDrawVisitor where
  BindToPixmap : ActorAddress → Bool
  visit_opaque_ : Bool
  ancestor_opacity_ : ℚ

def ActorVector.isEmpty : ActorVector → Bool
  | .nil => true
  | .leaf .. => false
  | .container .. => false

namespace OpenGlDrawVisitor

variable (visitor : OpenGlDrawVisitor)

def VisitQuad (actor : VisitedActor) : List DrawnQuad :=
  if actor.IsVisible then [⟨actor.address, actor.z_, actor.opacity_ * visitor.ancestor_opacity_⟩] else []

def VisitTexturePixmap (actor : VisitedActor) : List DrawnQuad :=
  if !actor.IsVisible then []
  else if actor.pixmap_data.isNone && !visitor.BindToPixmap actor.address then []
  else visitor.VisitQuad actor

/-- `Accept` of an actor that has no children. -/
def VisitLeaf (actor : VisitedActor) : ActorClass → List DrawnQuad
  | .Actor => []
  | .QuadActor => visitor.VisitQuad actor
  | .TexturePixmapActor => visitor.VisitTexturePixmap actor

/-- The loop of `VisitContainer` over the children in the opaque pass, with the check at the start of
`VisitContainer` for a child that is a container. -/
def visitOpaque : ActorVector → List DrawnQuad
  | .nil => []
  | .leaf actorClass actor rest =>
    (if actor.IsVisible && actor.is_opaque_ then visitor.VisitLeaf actor actorClass else []) ++
      visitOpaque rest
  | .container actor children rest =>
    (if actor.IsVisible && actor.is_opaque_ then if !actor.IsVisible then [] else visitOpaque children
      else []) ++ visitOpaque rest

/-- The backward loop of `VisitContainer` over the children in the transparent pass. A child that is a
container multiplies the opacity of the ancestors with its own for its children. -/
def visitTransparent (visitor : OpenGlDrawVisitor) : ActorVector → List DrawnQuad
  | .nil => []
  | .leaf actorClass actor rest =>
    visitor.visitTransparent rest ++
      if actor.IsVisible && (decide (visitor.ancestor_opacity_ ≤ transparentThreshold) || !actor.is_opaque_)
      then visitor.VisitLeaf actor actorClass else []
  | .container actor children rest =>
    visitor.visitTransparent rest ++
      if actor.IsVisible && (decide (visitor.ancestor_opacity_ ≤ transparentThreshold) ||
          !children.isEmpty || !actor.is_opaque_) then
        if !actor.IsVisible then []
        else visitTransparent
          { visitor with ancestor_opacity_ := visitor.ancestor_opacity_ * actor.opacity_ } children
      else []

def VisitContainer (actor : VisitedActor) (children : ActorVector) : List DrawnQuad :=
  if !actor.IsVisible then []
  else if visitor.visit_opaque_ then visitor.visitOpaque children
  else visitTransparent
    { visitor with ancestor_opacity_ := visitor.ancestor_opacity_ * actor.opacity_ } children

/-- A frame of a stage, given the count of its actors. -/
def VisitStage (actor_count : Int32) (stage : StageActor) : Frame :=
  if !stage.actor.IsVisible then {}
  else
    let layered := (LayerVisitor.VisitStage { count_ := actor_count } stage).2
    { opaquePass :=
        VisitContainer { visitor with visit_opaque_ := true } layered.actor layered.children
      transparentPass :=
        VisitContainer { visitor with visit_opaque_ := false, ancestor_opacity_ := stage.actor.opacity_ }
          layered.actor layered.children }

end OpenGlDrawVisitor

end ChromiumOS.WindowManager
