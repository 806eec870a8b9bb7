import ChromiumOS.Model.WindowManager.OpenGlDrawVisitor
import ChromiumOS.Proofs.WindowManager.LayerDepths

/-! # What the two passes draw

The opaque pass reaches a quad if every container around it is opaque by itself, the transparent pass if the
product of their opacities is low enough or the quad is not opaque. A quad is drawn exactly once if the two
agree on it; the transparent pass always goes from back to front with the right alpha.
-/

namespace ChromiumOS.WindowManager

/-- A quad to draw: its opacity, the product of the opacities of its ancestors, whether every container around
it is opaque by itself and whether it is itself. -/
structure PlacedQuad where
  address : ActorAddress
  opacity : ℚ
  ancestors : ℚ
  solid : Bool
  filled : Bool
deriving DecidableEq

/-- Whether an actor is opaque by itself. -/
def VisitedActor.filled (actor : VisitedActor) : ActorClass → Bool
  | .Actor => decide (actor.opacity_ > opaqueThreshold)
  | .QuadActor => decide (actor.opacity_ > opaqueThreshold) && actor.texture_data != some true
  | .TexturePixmapActor =>
    decide (actor.opacity_ > opaqueThreshold) && actor.texture_data != some true &&
      actor.pixmap_data != some true

/-- The quads that are visible together with all their ancestors, from top to bottom. -/
def ActorVector.quads : ActorVector → ℚ → Bool → List PlacedQuad
  | .nil, _, _ => []
  | .leaf actorClass actor rest, ancestors, solid =>
    (if actorClass ≠ .Actor ∧ actor.IsVisible then
      [⟨actor.address, actor.opacity_, ancestors, solid, actor.filled actorClass⟩] else []) ++
      rest.quads ancestors solid
  | .container actor children rest, ancestors, solid =>
    (if actor.IsVisible then
      children.quads (ancestors * actor.opacity_) (solid && decide (actor.opacity_ > opaqueThreshold))
      else []) ++ rest.quads ancestors solid

def StageActor.quads (stage : StageActor) : List PlacedQuad :=
  if stage.actor.IsVisible then stage.children.quads stage.actor.opacity_ true else []

namespace PlacedQuad

/-- Whether the opaque pass draws the quad. -/
def inOpaquePass (quad : PlacedQuad) : Bool := quad.solid && quad.filled

/-- Whether the transparent pass draws the quad. -/
def inTransparentPass (quad : PlacedQuad) : Bool :=
  decide (quad.ancestors ≤ transparentThreshold) || !quad.filled

def alpha (quad : PlacedQuad) : ℚ := quad.opacity * quad.ancestors

/-- The two passes agree on the quad: it is transparent, or the containers around it are all opaque exactly if
they are together. -/
def Agreed (quad : PlacedQuad) : Prop :=
  quad.filled = true → (quad.solid = true ↔ transparentThreshold < quad.ancestors)

theorem agreed_iff (quad : PlacedQuad) : quad.Agreed ↔ quad.inOpaquePass = !quad.inTransparentPass := by
  rw [Agreed, inOpaquePass, inTransparentPass]
  cases quad.filled <;> cases quad.solid <;> simp

end PlacedQuad

section Passes

variable {α κ : Type*} (first second : α → Bool) {key : α → κ}

/-- Two selections of a list, one of them reversed, are the list if every entry is in exactly one of them. -/
theorem selections_perm_iff {list : List α} (nodup : (list.map key).Nodup) :
    ((list.filter first ++ (list.filter second).reverse).map key).Perm (list.map key) ↔
      ∀ entry ∈ list, first entry = !second entry := by
  constructor
  · intro perm entry member
    have split := perm.nodup_iff.mpr nodup
    rw [List.map_append, List.nodup_append'] at split
    have only : ∀ other ∈ list, key other = key entry → other = entry := fun other inside same =>
      List.inj_on_of_nodup_map nodup inside member same
    have some := perm.mem_iff.mpr (List.mem_map_of_mem member)
    obtain ⟨other, inside, same⟩ := List.mem_map.mp some
    rw [List.mem_append, List.mem_reverse, List.mem_filter, List.mem_filter] at inside
    obtain rfl := only other (inside.elim And.left And.left) same
    cases front : first other with
    | false =>
      rw [front] at inside
      rw [(inside.resolve_left fun wrong => Bool.false_ne_true wrong.2).2]
      rfl
    | true =>
      cases back : second other with
      | false => rfl
      | true =>
        have left := List.mem_map_of_mem (f := key) (List.mem_filter.mpr ⟨member, front⟩)
        have right := List.mem_map_of_mem (f := key)
          (List.mem_reverse.mpr (List.mem_filter.mpr ⟨member, back⟩))
        exact absurd right (split.2.2 left)
  · intro agreed
    have same : list.filter first = list.filter fun entry => !second entry :=
      List.filter_congr agreed
    rw [same]
    refine List.Perm.map key ?_
    refine ((List.reverse_perm _).append_left _).trans ?_
    exact List.perm_append_comm.trans (List.filter_append_perm second list)

end Passes

section Layers

variable (layer : LayerVisitor) {actor other : VisitedActor}

theorem fields_of_bare (same : other.bare = actor.bare) :
    other.address = actor.address ∧ other.opacity_ = actor.opacity_ ∧ other.IsVisible = actor.IsVisible ∧
      other.pixmap_data = actor.pixmap_data := by
  simp only [VisitedActor.bare, VisitedActor.mk.injEq] at same
  obtain ⟨address, opacity, visible, -, pixmap, -⟩ := same
  exact ⟨address, opacity, by rw [VisitedActor.IsVisible, VisitedActor.IsVisible, visible, opacity], pixmap⟩

theorem clearOpaque_is_opaque_ (data : Option Bool) (actor : VisitedActor) :
    (LayerVisitor.clearOpaque data actor).is_opaque_ = (actor.is_opaque_ && data != some true) := by
  rcases data with _ | _ | _
  · exact (Bool.and_true _).symm
  · rfl
  · rfl

theorem clearOpaque_pixmap_data (data : Option Bool) (actor : VisitedActor) :
    (LayerVisitor.clearOpaque data actor).pixmap_data = actor.pixmap_data := by
  cases data <;> rfl

/-- The layer visitor finds out whether a leaf is opaque by itself. -/
theorem VisitLeaf_filled (actor : VisitedActor) (actorClass : ActorClass) :
    (layer.VisitLeaf actor actorClass).2.is_opaque_ = actor.filled actorClass := by
  cases actorClass with
  | Actor => rfl
  | QuadActor => exact clearOpaque_is_opaque_ _ _
  | TexturePixmapActor =>
    rw [LayerVisitor.VisitLeaf, LayerVisitor.VisitTexturePixmap, LayerVisitor.VisitQuad]
    simp only [clearOpaque_is_opaque_, clearOpaque_pixmap_data]
    rfl

end Layers

namespace OpenGlDrawVisitor

variable {visitor : OpenGlDrawVisitor} (bound : ∀ address, visitor.BindToPixmap address = true)

include bound in
/-- A leaf that is visible is drawn if it is a quad. -/
theorem VisitLeaf_eq {actor : VisitedActor} (visible : actor.IsVisible = true) (actorClass : ActorClass) :
    visitor.VisitLeaf actor actorClass =
      if actorClass ≠ .Actor then [⟨actor.address, actor.z_, actor.opacity_ * visitor.ancestor_opacity_⟩]
      else [] := by
  cases actorClass with
  | Actor => rfl
  | QuadActor => simp [VisitLeaf, VisitQuad, visible]
  | TexturePixmapActor => simp [VisitLeaf, VisitTexturePixmap, VisitQuad, visible, bound]

/-- Nothing in a container that is not opaque is in the opaque pass. -/
theorem quads_not_solid (children : ActorVector) (ancestors : ℚ) :
    (children.quads ancestors false).filter PlacedQuad.inOpaquePass = [] := by
  induction children generalizing ancestors with
  | nil => rfl
  | leaf actorClass actor rest ih =>
    rw [ActorVector.quads, List.filter_append, ih, List.append_nil]
    split <;> simp [PlacedQuad.inOpaquePass]
  | container actor children rest inside below =>
    rw [ActorVector.quads, List.filter_append, below, List.append_nil, Bool.false_and]
    split
    · exact inside _
    · rfl

include bound in
theorem visitOpaque_eq (layer : LayerVisitor) (children : ActorVector) (ancestors : ℚ) :
    (visitor.visitOpaque (layer.VisitChildren children).2).map DrawnQuad.address =
      ((children.quads ancestors true).filter PlacedQuad.inOpaquePass).map PlacedQuad.address := by
  induction children generalizing layer ancestors with
  | nil => rfl
  | leaf actorClass actor rest ih =>
    obtain ⟨address, opacity, visible, -⟩ := fields_of_bare (LayerVisitor.VisitLeaf_eq layer actor actorClass).2.2
    have filled := VisitLeaf_filled layer actor actorClass
    rw [LayerVisitor.VisitChildren, visitOpaque, ActorVector.quads, List.map_append, ih _ ancestors,
      List.filter_append, List.map_append]
    congr 1
    rw [filled, visible]
    cases shown : actor.IsVisible with
    | false => simp
    | true =>
      rw [VisitLeaf_eq bound (visible.trans shown), address]
      by_cases quad : actorClass = .Actor
      · simp [quad]
      · cases actor.filled actorClass <;> simp [quad, PlacedQuad.inOpaquePass]
  | container actor children rest inside below =>
    rw [LayerVisitor.VisitChildren, visitOpaque, ActorVector.quads, List.map_append, below _ ancestors,
      List.filter_append, List.map_append]
    congr 1
    have visible : ((layer.VisitChildren children).1.VisitActor actor).2.IsVisible = actor.IsVisible := rfl
    have filled : ((layer.VisitChildren children).1.VisitActor actor).2.is_opaque_ =
      decide (actor.opacity_ > opaqueThreshold) := rfl
    rw [filled, visible, Bool.true_and]
    cases shown : actor.IsVisible with
    | false => simp
    | true =>
      cases own : decide (actor.opacity_ > opaqueThreshold) with
      | false => simp [quads_not_solid]
      | true => simpa using inside layer (ancestors * actor.opacity_)

include bound in
theorem visitTransparent_eq (layer : LayerVisitor) (children : ActorVector) (solid : Bool) :
    (visitor.visitTransparent (layer.VisitChildren children).2).map
        (fun drawn => (drawn.address, drawn.alpha)) =
      (((children.quads visitor.ancestor_opacity_ solid).filter PlacedQuad.inTransparentPass).reverse).map
        fun quad => (quad.address, quad.alpha) := by
  induction children generalizing layer visitor solid with
  | nil => rfl
  | leaf actorClass actor rest ih =>
    obtain ⟨address, opacity, visible, -⟩ := fields_of_bare (LayerVisitor.VisitLeaf_eq layer actor actorClass).2.2
    have filled := VisitLeaf_filled layer actor actorClass
    rw [LayerVisitor.VisitChildren, visitTransparent, ActorVector.quads, List.map_append, ih bound _ solid,
      List.filter_append, List.reverse_append, List.map_append]
    congr 1
    rw [filled, visible]
    cases shown : actor.IsVisible with
    | false => simp
    | true =>
      rw [VisitLeaf_eq bound (visible.trans shown), address, opacity]
      by_cases quad : actorClass = .Actor
      · simp [quad]
      · cases actor.filled actorClass <;>
          cases low : decide (visitor.ancestor_opacity_ ≤ transparentThreshold) <;>
            simp [quad, low, PlacedQuad.inTransparentPass, PlacedQuad.alpha]
  | container actor children rest inside below =>
    rw [LayerVisitor.VisitChildren, visitTransparent, ActorVector.quads, List.map_append,
      below bound _ solid, List.filter_append, List.reverse_append, List.map_append]
    congr 1
    have visible : ((layer.VisitChildren children).1.VisitActor actor).2.IsVisible = actor.IsVisible := rfl
    have opacity : ((layer.VisitChildren children).1.VisitActor actor).2.opacity_ = actor.opacity_ := rfl
    rw [visible, opacity]
    cases shown : actor.IsVisible with
    | false => simp
    | true =>
      have deeper := @inside
        { visitor with ancestor_opacity_ := visitor.ancestor_opacity_ * actor.opacity_ } bound layer
      split
      · exact deeper _
      · next skipped =>
        have empty : children = .nil := by
          cases children with
          | nil => rfl
          | leaf => simp [LayerVisitor.VisitChildren, ActorVector.isEmpty] at skipped
          | container => simp [LayerVisitor.VisitChildren, ActorVector.isEmpty] at skipped
        rw [empty]
        rfl

theorem VisitLeaf_depth (actor : VisitedActor) (actorClass : ActorClass) :
    ((visitor.VisitLeaf actor actorClass).map DrawnQuad.z).Sublist [actor.z_] := by
  have quad : ((visitor.VisitQuad actor).map DrawnQuad.z).Sublist [actor.z_] := by
    rw [VisitQuad]
    split
    · exact .refl _
    · exact List.nil_sublist _
  cases actorClass with
  | Actor => exact List.nil_sublist _
  | QuadActor => exact quad
  | TexturePixmapActor =>
    rw [VisitLeaf, VisitTexturePixmap]
    split
    · exact List.nil_sublist _
    · split
      · exact List.nil_sublist _
      · exact quad

/-- The transparent pass goes through the layers backwards. -/
theorem visitTransparent_depths (visitor : OpenGlDrawVisitor) (children : ActorVector) :
    ((visitor.visitTransparent children).map DrawnQuad.z).Sublist
      (children.actors.map VisitedActor.z_).reverse := by
  induction children generalizing visitor with
  | nil => exact .refl _
  | leaf actorClass actor rest ih =>
    rw [visitTransparent, ActorVector.actors, List.map_append, List.map_cons, List.reverse_cons]
    refine (ih visitor).append ?_
    split
    · exact VisitLeaf_depth actor actorClass
    · exact List.nil_sublist _
  | container actor children rest inside below =>
    rw [visitTransparent, ActorVector.actors, List.map_append, List.map_append, List.map_cons,
      List.reverse_append, List.reverse_cons, List.append_assoc]
    refine (below visitor).append ((?_ : List.Sublist _ _).trans (List.sublist_append_right _ _))
    split
    · split
      · exact List.nil_sublist _
      · exact inside _
    · exact List.nil_sublist _

end OpenGlDrawVisitor

/-- A frame draws each visible quad exactly once and nothing else, and the transparent pass goes from back to
front with the product of the opacities. -/
structure DrawnOnce (stage : StageActor) (frame : Frame) : Prop where
  once : ((frame.opaquePass ++ frame.transparentPass).map DrawnQuad.address).Perm
    (stage.quads.map PlacedQuad.address)
  order : (frame.transparentPass.map DrawnQuad.z).Pairwise (· < ·)
  alpha : ∀ drawn ∈ frame.transparentPass, ∃ quad ∈ stage.quads,
    quad.address = drawn.address ∧ drawn.alpha = quad.opacity * quad.ancestors

section Frame

variable {visitor : OpenGlDrawVisitor} {stage : StageActor}

theorem IsVisible_of_opacity_one {actor : VisitedActor} (visible : actor.visible_ = true)
    (full : actor.opacity_ = 1) : actor.IsVisible = true := by
  rw [VisitedActor.IsVisible, visible, full, visibleThreshold]
  norm_num

theorem VisitStage_eq (count : Int32) (bound : ∀ address, visitor.BindToPixmap address = true)
    (visible : stage.actor.visible_ = true) (full : stage.actor.opacity_ = 1) :
    (visitor.VisitStage count stage).opaquePass.map DrawnQuad.address =
        (stage.quads.filter PlacedQuad.inOpaquePass).map PlacedQuad.address ∧
      (visitor.VisitStage count stage).transparentPass.map (fun drawn => (drawn.address, drawn.alpha)) =
        (stage.quads.filter PlacedQuad.inTransparentPass).reverse.map
          (fun quad => (quad.address, quad.alpha)) ∧
      ((visitor.VisitStage count stage).transparentPass.map DrawnQuad.z).Sublist
        ((LayerVisitor.VisitStage { count_ := count } stage).2.actors.map VisitedActor.z_).reverse := by
  have shown := IsVisible_of_opacity_one visible full
  have layered : (LayerVisitor.VisitStage { count_ := count } stage).2.actor.IsVisible = true := shown
  have opacity : (LayerVisitor.VisitStage { count_ := count } stage).2.actor.opacity_ = 1 := full
  rw [StageActor.quads, if_pos shown, OpenGlDrawVisitor.VisitStage, if_neg (by simp [shown])]
  simp only [OpenGlDrawVisitor.VisitContainer, layered, opacity, full, mul_one, Bool.not_true,
    Bool.false_eq_true, if_false, if_true]
  refine ⟨@OpenGlDrawVisitor.visitOpaque_eq { visitor with visit_opaque_ := true } bound
      (LayerVisitor.front { count_ := count }) stage.children 1,
    @OpenGlDrawVisitor.visitTransparent_eq
      { visitor with visit_opaque_ := false, ancestor_opacity_ := 1 } bound
      (LayerVisitor.front { count_ := count }) stage.children true, ?_⟩
  refine (OpenGlDrawVisitor.visitTransparent_depths _ _).trans (List.Sublist.reverse ?_)
  rw [StageActor.actors, List.map_append]
  exact List.sublist_append_left _ _

end Frame

/-- A frame is drawn right exactly if the passes agree on every visible quad. -/
theorem VisitStage_drawn_once_iff (visitor : OpenGlDrawVisitor) (stage : StageActor)
    (bound : ∀ address, visitor.BindToPixmap address = true) (visible : stage.actor.visible_ = true)
    (full : stage.actor.opacity_ = 1) (few : stage.actors.length ≤ 2 ^ 31 - 2)
    (tree : (stage.quads.map PlacedQuad.address).Nodup) :
    DrawnOnce stage (visitor.VisitStage (stage.Update 0) stage) ↔ ∀ quad ∈ stage.quads, quad.Agreed := by
  obtain ⟨front, back, depths⟩ := VisitStage_eq (stage.Update 0) bound visible full
  have addresses : (visitor.VisitStage (stage.Update 0) stage).transparentPass.map DrawnQuad.address =
      (stage.quads.filter PlacedQuad.inTransparentPass).reverse.map PlacedQuad.address := by
    have same := congrArg (List.map Prod.fst) back
    rw [List.map_map, List.map_map] at same
    exact same
  have agreed := selections_perm_iff PlacedQuad.inOpaquePass
    PlacedQuad.inTransparentPass tree
  rw [List.map_append, ← front, ← addresses, ← List.map_append] at agreed
  simp only [PlacedQuad.agreed_iff]
  constructor
  · exact fun drawn => agreed.mp drawn.once
  · intro every
    refine ⟨agreed.mpr every, ?_, ?_⟩
    · have layers := LayerVisitor.VisitStage_decreasing few
      exact (List.pairwise_reverse.mpr layers).sublist depths
    · intro drawn member
      have inside := List.mem_map_of_mem (f := fun drawn => (drawn.address, drawn.alpha)) member
      rw [back] at inside
      obtain ⟨quad, found, same⟩ := List.mem_map.mp inside
      obtain ⟨address, alpha⟩ := Prod.mk.injEq .. ▸ same
      exact ⟨quad, List.mem_of_mem_filter (List.mem_reverse.mp found), address, alpha.symm⟩

section Groups

/-- A stage with a rectangle in a group. -/
def groupStage (opacity : ℚ) : StageActor :=
  ⟨{ address := 0 }, .container { address := 1, opacity_ := opacity }
    (.leaf .QuadActor { address := 2 } .nil) .nil⟩

/-- A visitor that can bind every pixmap. -/
def bindingVisitor : OpenGlDrawVisitor := ⟨fun _ => true, false, 1⟩

/-- An opaque group is drawn right. -/
theorem VisitStage_drawn_once_group :
    DrawnOnce (groupStage 1) (bindingVisitor.VisitStage ((groupStage 1).Update 0) (groupStage 1)) :=
  (VisitStage_drawn_once_iff bindingVisitor (groupStage 1) (fun _ => rfl) rfl rfl (by decide)
    (by decide +kernel)).mpr (by unfold PlacedQuad.Agreed; decide +kernel)

/-- The rectangle in a group whose opacity was set to 0.999 is drawn in neither pass. -/
theorem VisitStage_rectangle_missing :
    bindingVisitor.VisitStage ((groupStage opaqueThreshold).Update 0) (groupStage opaqueThreshold) = {} ∧
      ¬ DrawnOnce (groupStage opaqueThreshold)
        (bindingVisitor.VisitStage ((groupStage opaqueThreshold).Update 0) (groupStage opaqueThreshold)) := by
  have nothing : bindingVisitor.VisitStage ((groupStage opaqueThreshold).Update 0)
      (groupStage opaqueThreshold) = {} := by decide +kernel
  refine ⟨nothing, fun drawn => ?_⟩
  have perm := drawn.once
  rw [nothing] at perm
  have quads : (groupStage opaqueThreshold).quads.map PlacedQuad.address = [2] := by decide +kernel
  rw [quads] at perm
  exact absurd perm.length_eq (by decide)

end Groups

end ChromiumOS.WindowManager
