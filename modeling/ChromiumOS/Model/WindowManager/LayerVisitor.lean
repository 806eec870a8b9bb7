import ChromiumOS.Model.WindowManager.TidyInterface

/-! # Layers

`LayerVisitor` in `tidy_interface.cc` and the count of actors that `Update` makes, on the tree under a stage.
Depths and opacities are exact; the constants have the value that the machine gives them.
-/

namespace ChromiumOS.WindowManager

/-- What a visitor reads of an actor and writes to it. The texture and the pixmap are given by whether they
have an alpha channel. -/
structure VisitedActor where
  address : ActorAddress
  opacity_ : ℚ := 1
  visible_ : Bool := true
  texture_data : Option Bool := none
  pixmap_data : Option Bool := none
  z_ : ℚ := 0
  is_opaque_ : Bool := true
deriving DecidableEq

/-- `0.999f` -/
def opaqueThreshold : ℚ := 16760439 / 2 ^ 24

/-- `0.001` -/
def visibleThreshold : ℚ := 1152921504606847 / 2 ^ 60

namespace VisitedActor

def IsVisible (actor : VisitedActor) : Bool := actor.visible_ && decide (actor.opacity_ > visibleThreshold)

end VisitedActor

/-- The classes of actors without children. -/
inductive ActorClass where
  | Actor
  | QuadActor
  | TexturePixmapActor
deriving DecidableEq

/-- The children of a container from top to bottom, each with its own children if it is a container. -/
inductive ActorVector where
  | nil
  | leaf (actorClass : ActorClass) (actor : VisitedActor) (rest : ActorVector)
  | container (actor : VisitedActor) (children rest : ActorVector)
deriving DecidableEq

structure StageActor where
  actor : VisitedActor
  children : ActorVector
deriving DecidableEq

/-- The count of actors after `Update` of some actors and their children. -/
def ActorVector.Update : ActorVector → Int32 → Int32
  | .nil, count => count
  | .leaf _ _ rest, count => rest.Update (count + 1)
  | .container _ children rest, count => rest.Update (children.Update count + 1)

def StageActor.Update (stage : StageActor) (count : Int32) : Int32 := stage.children.Update count + 1

def NextPowerOfTwo (x : UInt32) : UInt32 :=
  let x := x - 1
  let x := x ||| (x >>> 1)
  let x := x ||| (x >>> 2)
  let x := x ||| (x >>> 4)
  let x := x ||| (x >>> 8)
  let x := x ||| (x >>> 16)
  x + 1

/-- The visitor, with the actors it has visited so far, which the source does not keep. -/
structure LayerVisitor where
  depth_ : ℚ := 0
  layer_thickness_ : ℚ := 0
  count_ : Int32
  visited : List ActorAddress := []

namespace LayerVisitor

def kMinDepth : ℚ := -2048

def kMaxDepth : ℚ := 2048

variable (visitor : LayerVisitor) (actor : VisitedActor)

def VisitActor : LayerVisitor × VisitedActor :=
  ({ visitor with
      depth_ := visitor.depth_ + visitor.layer_thickness_
      visited := visitor.visited ++ [actor.address] },
    { actor with z_ := visitor.depth_, is_opaque_ := decide (actor.opacity_ > opaqueThreshold) })

/-- An actor with a texture or pixmap that has an alpha channel is not opaque. -/
def clearOpaque (data : Option Bool) (actor : VisitedActor) : VisitedActor :=
  match data with
  | some has_alpha => { actor with is_opaque_ := actor.is_opaque_ && !has_alpha }
  | none => actor

def VisitQuad : LayerVisitor × VisitedActor :=
  let (visitor, actor) := visitor.VisitActor actor
  (visitor, clearOpaque actor.texture_data actor)

def VisitTexturePixmap : LayerVisitor × VisitedActor :=
  let (visitor, actor) := visitor.VisitQuad actor
  (visitor, clearOpaque actor.pixmap_data actor)

/-- `Accept` of an actor that has no children. -/
def VisitLeaf : ActorClass → LayerVisitor × VisitedActor
  | .Actor => visitor.VisitActor actor
  | .QuadActor => visitor.VisitQuad actor
  | .TexturePixmapActor => visitor.VisitTexturePixmap actor

/-- The loop of `VisitContainer` over the children. -/
def VisitChildren (visitor : LayerVisitor) : ActorVector → LayerVisitor × ActorVector
  | .nil => (visitor, .nil)
  | .leaf actorClass actor rest =>
    let (visitor, actor) := visitor.VisitLeaf actor actorClass
    let (visitor, rest) := visitor.VisitChildren rest
    (visitor, .leaf actorClass actor rest)
  | .container actor children rest =>
    let (visitor, children) := visitor.VisitChildren children
    let (visitor, actor) := visitor.VisitActor actor
    let (visitor, rest) := visitor.VisitChildren rest
    (visitor, .container actor children rest)

/-- The visit of a stage. The sum wraps around like the machine's. -/
def VisitStage (visitor : LayerVisitor) (stage : StageActor) : LayerVisitor × StageActor :=
  let count := NextPowerOfTwo (visitor.count_ + 2).toUInt32
  let layer_thickness_ := -(kMaxDepth - kMinDepth) / count.toNat
  let visitor := { visitor with layer_thickness_, depth_ := kMaxDepth + layer_thickness_ }
  let (visitor, children) := visitor.VisitChildren stage.children
  let (visitor, actor) := visitor.VisitActor stage.actor
  (visitor, { actor, children })

end LayerVisitor

end ChromiumOS.WindowManager
