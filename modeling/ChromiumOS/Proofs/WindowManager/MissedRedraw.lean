import ChromiumOS.Model.WindowManager.TidyScene
import ChromiumOS.Proofs.WindowManager.ActorTree
import ChromiumOS.Proofs.WindowManager.AnimationRequests

/-! # No missed redraw

A frame shows the actors below the stage. Every operation that changes one of them asks for a new frame, except
for `SetColor`; animations change them in an update that asks for a frame itself. So, apart from colours, the
flag is only clear while everything below the stage is as it was drawn.
-/

namespace ChromiumOS.WindowManager

namespace TidyScene

/-- What the visitors read of an actor; a pixmap has a place and contents. -/
structure DrawnActor where
  kind : ActorKind
  fields : ActorFields
  width_ : ℤ
  height_ : ℤ
  has_children_ : Bool
  visible_ : Bool
  children_ : List ActorAddress
  color_ : Color
  texture_data : Option ℕ
  pixmap_data : Option (ℕ × ℕ)

def drawn (scene : TidyScene) (actor : SceneActor) : DrawnActor where
  kind := actor.kind
  fields := actor.animated.fields
  width_ := actor.width_
  height_ := actor.height_
  has_children_ := actor.has_children_
  visible_ := actor.visible_
  children_ := actor.children_
  color_ := actor.color_
  texture_data := actor.texture_data
  pixmap_data := actor.pixmap_data.map fun data => (data, scene.contents data)

def attributes (scene : TidyScene) (address : ActorAddress) : Option DrawnActor :=
  (scene.actors_ address).map scene.drawn

theorem attributes_eq_none {scene : TidyScene} {address : ActorAddress} :
    scene.attributes address = none ↔ scene.actors_ address = none := Option.map_eq_none_iff

/-- A container lists a child. -/
def Child (scene : TidyScene) (parent child : ActorAddress) : Prop :=
  ∃ actor, scene.actors_ parent = some actor ∧ child ∈ actor.children_

/-- An actor is below another one, or is that. -/
def Below (scene : TidyScene) : ActorAddress → ActorAddress → Prop := Relation.ReflTransGen scene.Child

def InStage (scene : TidyScene) (actor : ActorAddress) : Prop := scene.Below default_stage_ actor

/-- The tree below the stage and everything that is drawn of it are the same. -/
def SameFrame (frame scene : TidyScene) : Prop :=
  ∀ actor, (scene.InStage actor ↔ frame.InStage actor) ∧
    (frame.InStage actor → scene.attributes actor = frame.attributes actor)

/-- Identities are handed out in order. -/
structure Numbered (scene : TidyScene) : Prop where
  stage : default_stage_ < scene.created
  live : ∀ address actor, scene.actors_ address = some actor → address < scene.created
  children : ∀ address actor, scene.actors_ address = some actor →
    ∀ child ∈ actor.children_, child < scene.created

/-- Actors are as they were, or gone. -/
structure Kept (scene next : TidyScene) : Prop where
  created : scene.created ≤ next.created
  attributes : ∀ address < scene.created,
    next.attributes address = none ∨ next.attributes address = scene.attributes address

/-- A new frame is asked for, or there is nothing new to draw. -/
structure Steady (scene next : TidyScene) : Prop where
  numbered : next.Numbered
  asked : next.dirty_ = true ∨ (next.dirty_ = scene.dirty_ ∧ Kept scene next)

variable {scene middle next : TidyScene} {address : ActorAddress} {actor this : SceneActor}

namespace Steady

theorem refl (numbered : scene.Numbered) : Steady scene scene :=
  ⟨numbered, .inr ⟨rfl, le_rfl, fun _ _ => .inr rfl⟩⟩

theorem trans (first : Steady scene middle) (second : Steady middle next) : Steady scene next := by
  refine ⟨second.numbered, ?_⟩
  rcases second.asked with asked | ⟨flag, later⟩
  · exact .inl asked
  rcases first.asked with asked | ⟨before, former⟩
  · exact .inl (flag.trans asked)
  refine .inr ⟨flag.trans before, former.created.trans later.created, fun address known => ?_⟩
  rcases later.attributes address (known.trans_le former.created) with gone | same
  · exact .inl gone
  · rw [same]
    exact former.attributes address known

theorem dirty (numbered : next.Numbered) (asked : next.dirty_ = true) : Steady scene next := ⟨numbered, .inl asked⟩

end Steady

theorem Numbered.set (numbered : scene.Numbered) (live : scene.actors_ address = some this)
    (children : ∀ child ∈ actor.children_, child < scene.created) : (scene.set address actor).Numbered where
  stage := numbered.stage
  live := by
    intro other found same
    simp only [TidyScene.set, Function.update_apply] at same
    split at same
    · next equal => exact equal ▸ numbered.live address this live
    · exact numbered.live other found same
  children := by
    intro other found same
    simp only [TidyScene.set, Function.update_apply] at same
    split at same
    · cases same
      exact children
    · exact numbered.children other found same

theorem Numbered.create (numbered : scene.Numbered) (leaf : actor.children_ = []) :
    (scene.create actor).Numbered where
  stage := numbered.stage.trans (Nat.lt_succ_self _)
  live := by
    intro other found same
    simp only [TidyScene.create, TidyScene.set, Function.update_apply] at same
    split at same
    · next equal => exact equal ▸ Nat.lt_succ_self _
    · exact (numbered.live other found same).trans (Nat.lt_succ_self _)
  children := by
    intro other found same child member
    simp only [TidyScene.create, TidyScene.set, Function.update_apply] at same
    split at same
    · cases same
      rw [leaf] at member
      exact nomatch member
    · exact (numbered.children other found same child member).trans (Nat.lt_succ_self _)

theorem Numbered.set_dirty (numbered : scene.Numbered) : scene.set_dirty.Numbered :=
  ⟨numbered.stage, numbered.live, numbered.children⟩

theorem attributes_set : (scene.set address actor).attributes =
    Function.update scene.attributes address (some (scene.drawn actor)) := by
  funext other
  simp only [attributes, TidyScene.set, Function.update_apply]
  split <;> rfl

theorem create_steady (numbered : scene.Numbered) (leaf : actor.children_ = []) :
    Steady scene (scene.create actor) := by
  refine ⟨numbered.create leaf, .inr ⟨rfl, Nat.le_succ _, fun other known => .inr ?_⟩⟩
  change (scene.set scene.created actor).attributes other = _
  rw [attributes_set, Function.update_of_ne known.ne]

/-- A change of an actor that is not drawn. -/
theorem set_steady (numbered : scene.Numbered) (live : scene.actors_ address = some this)
    (same : scene.drawn actor = scene.drawn this) : Steady scene (scene.set address actor) := by
  have children : actor.children_ = this.children_ := congrArg DrawnActor.children_ same
  refine ⟨numbered.set live (children ▸ numbered.children address this live), .inr ⟨rfl, le_rfl, ?_⟩⟩
  intro other _
  rw [attributes_set, Function.update_apply]
  split
  · next equal =>
    rw [same, equal, attributes, live]
    exact .inr rfl
  · exact .inr rfl

theorem modify_numbered {change : SceneActor → SceneActor} (numbered : scene.Numbered)
    (taken : scene.modify address change = some next)
    (children : ∀ actor, (change actor).children_ = actor.children_) : next.Numbered := by
  obtain ⟨actor, live, rfl⟩ := Option.map_eq_some_iff.mp taken
  exact numbered.set live (children actor ▸ numbered.children address actor live)

/-- A change of an actor that asks for a frame. -/
theorem modify_dirty_steady {change : SceneActor → SceneActor} (numbered : scene.Numbered)
    (taken : (scene.modify address change).map set_dirty = some next)
    (children : ∀ actor, (change actor).children_ = actor.children_) : Steady scene next := by
  obtain ⟨middle, modified, rfl⟩ := Option.map_eq_some_iff.mp taken
  exact .dirty (modify_numbered numbered modified children).set_dirty rfl

theorem modify_steady {change : SceneActor → SceneActor} (numbered : scene.Numbered)
    (taken : scene.modify address change = some next)
    (same : ∀ actor, scene.drawn (change actor) = scene.drawn actor) : Steady scene next := by
  obtain ⟨actor, live, rfl⟩ := Option.map_eq_some_iff.mp taken
  exact set_steady numbered live (same actor)

theorem CloneActor_steady {orig : ActorAddress} (numbered : scene.Numbered)
    (taken : scene.CloneActor orig = some next) : Steady scene next := by
  obtain ⟨actor, -, taken⟩ := Option.bind_eq_some_iff.mp taken
  split at taken
  · cases taken
    exact .refl numbered
  · cases taken
    exact create_steady numbered rfl

theorem AddActor_steady {container child : ActorAddress} (numbered : scene.Numbered)
    (taken : scene.AddActor container child = some next) : Steady scene next := by
  obtain ⟨middle, modified, taken⟩ := Option.bind_eq_some_iff.mp taken
  obtain ⟨this, live, taken⟩ := Option.bind_eq_some_iff.mp taken
  obtain ⟨-, -, taken⟩ := Option.bind_eq_some_iff.mp taken
  cases taken
  have kept := modify_numbered numbered modified fun _ => rfl
  obtain ⟨actor, alive, rfl⟩ := Option.map_eq_some_iff.mp modified
  refine .dirty (Numbered.set_dirty (kept.set live fun other member => ?_)) rfl
  rcases List.mem_cons.mp member with rfl | old
  · exact numbered.live _ actor alive
  · exact kept.children container this live other old

theorem RemoveActor_steady {container child : ActorAddress} (numbered : scene.Numbered)
    (taken : scene.RemoveActor container child = some next) : Steady scene next := by
  obtain ⟨this, live, taken⟩ := Option.bind_eq_some_iff.mp taken
  obtain ⟨-, -, taken⟩ := Option.bind_eq_some_iff.mp taken
  split at taken
  · cases taken
    refine .dirty (Numbered.set_dirty (numbered.set live fun other member => ?_)) rfl
    exact numbered.children container this live other (List.mem_of_mem_erase member)
  · cases taken
    exact .refl numbered

theorem restack_steady {method : List ActorAddress → List ActorAddress} (numbered : scene.Numbered)
    (permutes : ∀ children, (method children).Perm children)
    (taken : scene.restack address method = some next) : Steady scene next := by
  obtain ⟨this, -, taken⟩ := Option.bind_eq_some_iff.mp taken
  obtain ⟨parent, -, taken⟩ := Option.bind_eq_some_iff.mp taken
  obtain ⟨container, live, taken⟩ := Option.bind_eq_some_iff.mp taken
  obtain ⟨-, -, taken⟩ := Option.bind_eq_some_iff.mp taken
  cases taken
  refine .dirty (Numbered.set_dirty (numbered.set live fun child member => ?_)) rfl
  exact numbered.children parent container live child ((permutes _).mem_iff.mp member)

/-- A request with a duration leaves the fields as they are. -/
theorem Animate_fields {animated : AnimatedActor} {duration_ms : ℤ} (long : duration_ms > 0)
    (now : AnimationTime) (field : ActorField) (value : field.Value) :
    (animated.Animate now field value duration_ms).fields = animated.fields := by
  rw [AnimatedActor.Animate, if_pos long]

theorem animate_steady {duration_ms : ℤ} {request : AnimatedActor → AnimatedActor} (numbered : scene.Numbered)
    (later : duration_ms > 0 → ∀ animated, (request animated).fields = animated.fields)
    (taken : scene.animate address duration_ms request = some next) : Steady scene next := by
  obtain ⟨middle, modified, rfl⟩ := Option.map_eq_some_iff.mp taken
  split
  · next long =>
    refine modify_steady numbered modified fun actor => ?_
    simp only [drawn, later long]
  · exact .dirty (modify_numbered numbered modified fun _ => rfl).set_dirty rfl

theorem Reset_steady (numbered : scene.Numbered) (taken : scene.Reset address = some next) :
    Steady scene next := by
  obtain ⟨this, live, taken⟩ := Option.bind_eq_some_iff.mp taken
  obtain ⟨-, -, taken⟩ := Option.bind_eq_some_iff.mp taken
  cases taken
  have stopped : (if this.window_ ≠ 0 then scene.StopMonitoringWindowForChanges this.window_
      else scene).Numbered := by
    split
    · exact ⟨numbered.stage, numbered.live, numbered.children⟩
    · exact numbered
  refine .dirty (Numbered.set_dirty (@Numbered.set _ _ _ this stopped ?_ ?_)) rfl
  · split <;> exact live
  · intro child member
    have known := numbered.children address this live child member
    split <;> exact known

theorem SetTexturePixmapWindow_steady {xid : XWindow} (numbered : scene.Numbered)
    (taken : scene.SetTexturePixmapWindow address xid = some next) : Steady scene next := by
  obtain ⟨reset, first, taken⟩ := Option.bind_eq_some_iff.mp taken
  obtain ⟨modified, second, taken⟩ := Option.bind_eq_some_iff.mp taken
  cases taken
  have kept := modify_numbered (Reset_steady numbered first).numbered second fun _ => rfl
  exact .dirty ⟨kept.stage, kept.live, kept.children⟩ rfl

/-- An actor that is gone. -/
theorem erase_steady (numbered : scene.Numbered) :
    Steady scene { scene with actors_ := Function.update scene.actors_ address none } := by
  refine ⟨⟨numbered.stage, fun other actor live => ?_, fun other actor live => ?_⟩, .inr ⟨rfl, le_rfl, ?_⟩⟩
  · simp only [Function.update_apply] at live
    split at live
    · cases live
    · exact numbered.live other actor live
  · simp only [Function.update_apply] at live
    split at live
    · cases live
    · exact numbered.children other actor live
  · intro other _
    simp only [attributes, Function.update_apply]
    split
    · exact .inl rfl
    · exact .inr rfl

theorem destroy_steady (numbered : scene.Numbered) (taken : scene.destroy address = some next) :
    Steady scene next := by
  obtain ⟨this, -, taken⟩ := Option.bind_eq_some_iff.mp taken
  obtain ⟨-, -, taken⟩ := Option.bind_eq_some_iff.mp taken
  obtain ⟨reset, first, taken⟩ := Option.bind_eq_some_iff.mp taken
  obtain ⟨removed, second, taken⟩ := Option.bind_eq_some_iff.mp taken
  cases taken
  have former : Steady scene reset := by
    rw [destroyClass] at first
    split at first
    · exact Reset_steady numbered first
    · cases first
      exact .refl numbered
  have latter : Steady reset removed := by
    cases owner : this.parent_ with
    | none =>
      rw [owner] at second
      cases second
      exact .refl former.numbered
    | some parent_ =>
      rw [owner] at second
      exact RemoveActor_steady former.numbered second
  exact (former.trans latter).trans (erase_steady latter.numbered)

theorem HandleWindowConfigured_steady {xid : XWindow} (numbered : scene.Numbered)
    (taken : scene.HandleWindowConfigured xid = some next) : Steady scene next := by
  rw [HandleWindowConfigured] at taken
  split at taken
  · cases taken
    exact .refl numbered
  · exact modify_dirty_steady numbered taken fun _ => rfl

theorem HandleWindowDestroyed_steady {xid : XWindow} (numbered : scene.Numbered)
    (taken : scene.HandleWindowDestroyed xid = some next) : Steady scene next := by
  rw [HandleWindowDestroyed] at taken
  split at taken
  · cases taken
    exact .refl numbered
  · exact Reset_steady numbered taken

theorem HandleWindowDamaged_steady {xid : XWindow} {content : ℕ} (numbered : scene.Numbered)
    (taken : scene.HandleWindowDamaged xid content = some next) : Steady scene next := by
  rw [HandleWindowDamaged] at taken
  split at taken
  · cases taken
    exact .refl numbered
  · obtain ⟨this, -, taken⟩ := Option.bind_eq_some_iff.mp taken
    cases taken
    exact .dirty ⟨numbered.stage, numbered.live, numbered.children⟩ rfl

section Updates

variable {interpolate : Interpolation}

theorem evaluateActor_steady (numbered : scene.Numbered)
    (taken : scene.evaluateActor interpolate address = some next) : Steady scene next := by
  obtain ⟨this, live, taken⟩ := Option.bind_eq_some_iff.mp taken
  cases taken
  have children := numbered.children address this live
  split
  · next still =>
    have nothing := List.isEmpty_iff.mp still
    refine set_steady numbered live ?_
    simp only [drawn, AnimatedActor.Update, nothing, evaluate]
  · exact .dirty (@Numbered.set _ _ _ this numbered.set_dirty live children) rfl

/-- Which actors there are and what their children are. -/
def shape (scene : TidyScene) (address : ActorAddress) : Option (List ActorAddress) :=
  (scene.actors_ address).map SceneActor.children_

theorem evaluateActor_shape (taken : scene.evaluateActor interpolate address = some next) :
    next.shape = scene.shape := by
  obtain ⟨this, live, taken⟩ := Option.bind_eq_some_iff.mp taken
  cases taken
  funext other
  split <;>
  · simp only [shape, TidyScene.set, set_dirty, Function.update_apply]
    split
    · next equal =>
      rw [equal, live]
      rfl
    · rfl

/-- An update, unless a frame is asked for, draws nothing new; actors stay where they are. -/
theorem Update_steady {depth : ℕ} (numbered : scene.Numbered)
    (taken : Update interpolate depth scene address = some next) : Steady scene next := by
  induction depth generalizing scene address next with
  | zero => cases taken
  | succ depth ih =>
    obtain ⟨this, -, taken⟩ := Option.bind_eq_some_iff.mp taken
    obtain ⟨middle, below, taken⟩ := Option.bind_eq_some_iff.mp taken
    have steps := @PartialRun.run_relates _ _ _ (fun state next => state.Numbered → Steady state next)
      (fun _ => .refl) (fun _ _ _ first second start => (first start).trans (second (first start).numbered))
      (fun _ _ _ taken start => ih start taken) _ _ _ below
    have former := steps.1 numbered
    exact former.trans (evaluateActor_steady former.numbered taken)

theorem Update_shape {depth : ℕ} (taken : Update interpolate depth scene address = some next) :
    next.shape = scene.shape := by
  induction depth generalizing scene address next with
  | zero => cases taken
  | succ depth ih =>
    obtain ⟨this, -, taken⟩ := Option.bind_eq_some_iff.mp taken
    obtain ⟨middle, below, taken⟩ := Option.bind_eq_some_iff.mp taken
    have steps := @PartialRun.run_relates _ _ _ (fun state next => next.shape = state.shape)
      (fun _ => rfl) (fun _ _ _ first second => by exact second.trans first) (fun _ _ _ taken => ih taken) _ _ _ below
    exact (evaluateActor_shape taken).trans steps.1

theorem child_iff {parent child : ActorAddress} :
    scene.Child parent child ↔ ∃ children, scene.shape parent = some children ∧ child ∈ children := by
  constructor
  · rintro ⟨actor, live, member⟩
    exact ⟨actor.children_, by rw [shape, live]; rfl, member⟩
  · rintro ⟨children, shaped, member⟩
    obtain ⟨actor, live, rfl⟩ := Option.map_eq_some_iff.mp shaped
    exact ⟨actor, live, member⟩

theorem below_of_shape (same : next.shape = scene.shape) : next.Below = scene.Below := by
  have children : next.Child = scene.Child := by
    funext parent child
    exact propext (by rw [child_iff, child_iff, same])
  rw [Below, Below, children]

/-- An update that comes back has met nothing that is gone. -/
theorem Update_alive {depth : ℕ} {below : ActorAddress}
    (taken : Update interpolate depth scene address = some next) (path : scene.Below address below) :
    scene.actors_ below ≠ none := by
  induction depth generalizing scene address next with
  | zero => cases taken
  | succ depth ih =>
    obtain ⟨this, live, taken⟩ := Option.bind_eq_some_iff.mp taken
    obtain ⟨middle, children, -⟩ := Option.bind_eq_some_iff.mp taken
    rcases Relation.ReflTransGen.cases_head path with rfl | ⟨child, ⟨actor, same, member⟩, path⟩
    · rw [live]
      exact nofun
    · cases live.symm.trans same
      have steps := @PartialRun.run_relates _ _ _ (fun state next => next.shape = state.shape)
        (fun _ => rfl) (fun _ _ _ first second => by exact second.trans first)
        (fun _ _ _ taken => Update_shape taken) _ _ _ children
      obtain ⟨state, after, shaped, applied⟩ := steps.2 child member
      have lives := ih applied ((below_of_shape shaped).symm ▸ path)
      intro gone
      have none : state.shape below = none := by rw [shaped, shape, gone]; rfl
      exact lives (Option.map_eq_none_iff.mp none)

end Updates

section Frames

variable {frame : TidyScene} {lastFrame : Option TidyScene}

theorem child_of_attributes {parent child : ActorAddress}
    (same : next.attributes parent = scene.attributes parent) (listed : scene.Child parent child) :
    next.Child parent child := by
  obtain ⟨actor, live, member⟩ := listed
  rw [attributes, attributes, live] at same
  obtain ⟨other, alive, equal⟩ := Option.map_eq_some_iff.mp same
  have children : other.children_ = actor.children_ := congrArg DrawnActor.children_ equal
  exact ⟨other, alive, children ▸ member⟩

/-- The tree below the stage of a frame is that of the scene as long as its actors are the same. -/
theorem sameFrame_of_attributes
    (same : ∀ actor, frame.InStage actor → scene.attributes actor = frame.attributes actor) :
    SameFrame frame scene := by
  refine fun actor => ⟨⟨fun path => ?_, fun path => ?_⟩, same actor⟩
  · induction path with
    | refl => exact .refl
    | tail _ listed ih => exact ih.tail (child_of_attributes (same _ ih).symm listed)
  · induction path with
    | refl => exact .refl
    | tail before listed ih => exact ih.tail (child_of_attributes (same _ before) listed)

theorem Numbered.inStage (numbered : scene.Numbered) (inside : scene.InStage address) :
    address < scene.created := by
  cases inside with
  | refl => exact numbered.stage
  | tail _ listed =>
    obtain ⟨actor, live, member⟩ := listed
    exact numbered.children _ actor live _ member

/-- An actor that is gone is still below the stage. -/
def Dangling (scene : TidyScene) : Prop := ∃ actor, scene.InStage actor ∧ scene.actors_ actor = none

/-- As long as actors are as they were or gone, so are the paths to them. -/
theorem path_kept (kept : ∀ actor, scene.InStage actor →
      next.attributes actor = none ∨ next.attributes actor = scene.attributes actor)
    (inside : scene.InStage address) : next.Dangling ∨ next.InStage address := by
  induction inside with
  | refl => exact .inr .refl
  | tail before listed ih =>
    rcases ih with gone | path
    · exact .inl gone
    · rcases kept _ before with none | same
      · exact .inl ⟨_, path, attributes_eq_none.mp none⟩
      · exact .inr (path.tail (child_of_attributes same listed))

/-- A new frame is asked for, no frame can be drawn any more, or what is below the stage is as in the last
frame. -/
def Fresh (lastFrame : Option TidyScene) (scene : TidyScene) : Prop :=
  scene.dirty_ = true ∨ scene.Dangling ∨ ∃ frame, lastFrame = some frame ∧
    ∀ actor, frame.InStage actor → scene.attributes actor = frame.attributes actor

theorem Fresh.keep (fresh : Fresh lastFrame scene)
    (asked : next.dirty_ = true ∨ (next.dirty_ = scene.dirty_ ∧ ∀ actor, scene.InStage actor →
      next.attributes actor = none ∨ next.attributes actor = scene.attributes actor)) :
    Fresh lastFrame next := by
  rcases asked with asked | ⟨flag, kept⟩
  · exact .inl asked
  rcases fresh with dirty | ⟨gone, inside, missing⟩ | ⟨frame, drawn, same⟩
  · exact .inl (flag.trans dirty)
  · refine .inr (.inl ?_)
    rcases path_kept kept inside with dangling | path
    · exact dangling
    · refine ⟨gone, path, attributes_eq_none.mp ?_⟩
      have nothing := attributes_eq_none.mpr missing
      exact (kept gone inside).elim id fun same => same.trans nothing
  · by_cases dangling : next.Dangling
    · exact .inr (.inl dangling)
    · refine .inr (.inr ⟨frame, drawn, fun actor inside => ?_⟩)
      have here := ((sameFrame_of_attributes same actor).1.mpr inside)
      rcases kept actor here with none | equal
      · have path := (path_kept kept here).resolve_left dangling
        exact absurd ⟨actor, path, attributes_eq_none.mp none⟩ dangling
      · exact equal.trans (same actor inside)

theorem Fresh.steady (fresh : Fresh lastFrame scene) (numbered : scene.Numbered) (steady : Steady scene next) :
    Fresh lastFrame next := by
  refine fresh.keep (steady.asked.imp id fun kept => ⟨kept.1, fun actor inside => ?_⟩)
  exact kept.2.attributes actor (numbered.inStage inside)

theorem SetColor_numbered {color : Color} (numbered : scene.Numbered)
    (taken : scene.SetColor address color = some next) : next.Numbered := by
  obtain ⟨this, live, taken⟩ := Option.bind_eq_some_iff.mp taken
  obtain ⟨-, -, taken⟩ := Option.bind_eq_some_iff.mp taken
  cases taken
  exact numbered.set live (numbered.children address this live)

/-- A colour that is set where it does not show, or is the same, or that a new frame will show. -/
def Repaints (scene : TidyScene) (actor : ActorAddress) (color : Color) : Prop :=
  scene.dirty_ = true ∨ ¬ scene.InStage actor ∨
    ∃ this, scene.actors_ actor = some this ∧ this.color_ = color

theorem Fresh.SetColor {color : Color} (fresh : Fresh lastFrame scene) (repaints : scene.Repaints address color)
    (taken : scene.SetColor address color = some next) : Fresh lastFrame next := by
  obtain ⟨this, live, taken⟩ := Option.bind_eq_some_iff.mp taken
  obtain ⟨-, -, taken⟩ := Option.bind_eq_some_iff.mp taken
  cases taken
  rcases repaints with dirty | repaints
  · exact .inl dirty
  refine fresh.keep (.inr ⟨rfl, fun actor inside => .inr ?_⟩)
  rw [attributes_set, Function.update_apply]
  split
  · next equal =>
    subst equal
    obtain ⟨same, alive, colour⟩ := repaints.resolve_left fun outside => outside inside
    cases live.symm.trans alive
    rw [attributes, live, ← colour]
    rfl
  · rfl

end Frames

section Calls

variable {interpolate : Interpolation} {result : TidyScene × Bool}

theorem steady_of_map {operation : Option TidyScene}
    (performed : operation.map (·, false) = some result)
    (steady : ∀ next, operation = some next → Steady scene next) :
    result.2 = false ∧ Steady scene result.1 := by
  obtain ⟨next, taken, rfl⟩ := Option.map_eq_some_iff.mp performed
  exact ⟨rfl, steady next taken⟩

theorem steady_of_eq {next : TidyScene} (performed : some (next, false) = some result)
    (steady : Steady scene next) : result.2 = false ∧ Steady scene result.1 := by
  cases performed
  exact ⟨rfl, steady⟩

def isDraw : SceneCall → Bool
  | .Draw .. => true
  | _ => false

/-- Every call but `Draw` and `SetColor` asks for a frame or changes nothing that is drawn. -/
theorem perform_steady {call : SceneCall} (numbered : scene.Numbered) (other : isDraw call = false)
    (uncoloured : ∀ actor color, call ≠ .SetColor actor color)
    (performed : scene.perform interpolate call = some result) :
    result.2 = false ∧ Steady scene result.1 := by
  cases call with
  | CreateGroup => exact steady_of_eq performed (create_steady numbered rfl)
  | CreateRectangle color => exact steady_of_eq performed (create_steady numbered rfl)
  | CreateImage image =>
    cases image with
    | none => exact steady_of_eq performed (create_steady numbered rfl)
    | some image => exact steady_of_eq performed (.dirty (numbered.create rfl).set_dirty rfl)
  | CreateTexturePixmap => exact steady_of_eq performed (create_steady numbered rfl)
  | CreateText color => exact steady_of_eq performed (.dirty (numbered.create rfl).set_dirty rfl)
  | CloneActor orig => exact steady_of_map performed fun _ => CloneActor_steady numbered
  | AddActor container actor => exact steady_of_map performed fun _ => AddActor_steady numbered
  | RemoveActor container actor => exact steady_of_map performed fun _ => RemoveActor_steady numbered
  | Raise actor other =>
    exact steady_of_map performed fun _ => restack_steady numbered fun _ => RaiseChild_perm _ _ _
  | Lower actor other =>
    exact steady_of_map performed fun _ => restack_steady numbered fun _ => LowerChild_perm _ _ _
  | RaiseToTop actor =>
    exact steady_of_map performed fun _ => restack_steady numbered fun _ => RaiseChild_perm _ _ _
  | LowerToBottom actor =>
    exact steady_of_map performed fun _ => restack_steady numbered fun _ => LowerChild_perm _ _ _
  | SetVisibility actor visible =>
    exact steady_of_map performed fun _ taken => modify_dirty_steady numbered taken fun _ => rfl
  | SetSize actor width height =>
    exact steady_of_map performed fun _ taken => modify_dirty_steady numbered taken fun _ => rfl
  | MoveX actor x duration_ms =>
    exact steady_of_map performed fun _ => animate_steady numbered fun long _ => Animate_fields long _ _ _
  | MoveY actor y duration_ms =>
    exact steady_of_map performed fun _ => animate_steady numbered fun long _ => Animate_fields long _ _ _
  | Move actor x y duration_ms =>
    exact steady_of_map performed fun _ => animate_steady numbered fun long _ =>
      (Animate_fields long _ _ _).trans (Animate_fields long _ _ _)
  | Scale actor scale_x scale_y duration_ms =>
    exact steady_of_map performed fun _ => animate_steady numbered fun long _ =>
      (Animate_fields long _ _ _).trans (Animate_fields long _ _ _)
  | SetOpacity actor opacity duration_ms =>
    exact steady_of_map performed fun _ => animate_steady numbered fun long _ => Animate_fields long _ _ _
  | SetColor actor color => exact absurd rfl (uncoloured actor color)
  | SetTexturePixmapWindow actor xid =>
    exact steady_of_map performed fun _ => SetTexturePixmapWindow_steady numbered
  | Reset actor => exact steady_of_map performed fun _ => Reset_steady numbered
  | destroy actor => exact steady_of_map performed fun _ => destroy_steady numbered
  | HandleWindowConfigured xid => exact steady_of_map performed fun _ => HandleWindowConfigured_steady numbered
  | HandleWindowDestroyed xid => exact steady_of_map performed fun _ => HandleWindowDestroyed_steady numbered
  | HandleWindowDamaged xid content =>
    exact steady_of_map performed fun _ => HandleWindowDamaged_steady numbered
  | Draw depth now bound => exact nomatch other

/-- Drawing binds pixmaps to actors that stay. -/
theorem Draw_numbered {depth : ℕ} {now : AnimationTime} {bound : ActorAddress → Option ℕ}
    (numbered : scene.Numbered) (drawn : scene.Draw interpolate depth now bound = some result) :
    result.1.Numbered := by
  obtain ⟨updated, update, drawn⟩ := Option.bind_eq_some_iff.mp drawn
  have before : (scene.setNow now).Numbered := ⟨numbered.stage, numbered.live, numbered.children⟩
  have after := (Update_steady before update).numbered
  split at drawn
  · cases drawn
    refine ⟨after.stage, ?_, ?_⟩
    · intro address actor live
      obtain ⟨old, alive, -⟩ := Option.map_eq_some_iff.mp live
      exact after.live address old alive
    · intro address actor live child member
      obtain ⟨old, alive, rfl⟩ := Option.map_eq_some_iff.mp live
      refine after.children address old alive child ?_
      rw [bindPixmap] at member
      split at member <;> exact member
  · cases drawn
    exact after

theorem perform_numbered {call : SceneCall} (numbered : scene.Numbered)
    (performed : scene.perform interpolate call = some result) : result.1.Numbered := by
  by_cases draws : isDraw call = true
  · cases call with
    | Draw depth now bound => exact Draw_numbered numbered performed
    | _ => cases draws
  by_cases coloured : ∃ actor color, call = .SetColor actor color
  · obtain ⟨actor, color, rfl⟩ := coloured
    obtain ⟨after, done, rfl⟩ := Option.map_eq_some_iff.mp performed
    exact SetColor_numbered numbered done
  · have steady := perform_steady numbered (Bool.eq_false_iff.mpr draws)
      (fun actor color same => coloured ⟨actor, color, same⟩) performed
    exact steady.2.numbered

end Calls

end TidyScene

/-- The scene, the one that the last frame has shown, and whether the last call was a `Draw` that drew none. -/
structure FrameRun where
  scene : TidyScene
  frame : Option TidyScene := none
  skipped : Bool := false

namespace FrameRun

open TidyScene

def step (interpolate : Interpolation) (run : FrameRun) (call : SceneCall) : Option FrameRun :=
  (run.scene.perform interpolate call).map fun result =>
    { scene := result.1
      frame := if result.2 then some result.1 else run.frame
      skipped := isDraw call && !result.2 }

/-- A `Draw` that draws nothing leaves a screen that shows the scene. -/
def UpToDate (run : FrameRun) : Prop :=
  run.skipped = true → ∃ frame, run.frame = some frame ∧ SameFrame frame run.scene

/-- Colours are only set where that does not matter. -/
def Repainted (run : FrameRun) (call : SceneCall) : Prop :=
  ∀ actor color, call = .SetColor actor color → run.scene.Repaints actor color

structure Inv (run : FrameRun) : Prop where
  numbered : run.scene.Numbered
  fresh : Fresh run.frame run.scene
  upToDate : run.UpToDate

theorem new_numbered (width height : ℤ) (now : AnimationTime) : (TidyScene.new width height now).Numbered where
  stage := Nat.zero_lt_one
  live := by
    intro address actor live
    simp only [TidyScene.new, Function.update_apply] at live
    split at live
    · next equal => exact equal ▸ Nat.zero_lt_one
    · cases live
  children := by
    intro address actor live child member
    simp only [TidyScene.new, Function.update_apply] at live
    split at live
    · cases live
      exact nomatch member
    · cases live

theorem start (width height : ℤ) (now : AnimationTime) : Inv { scene := .new width height now } where
  numbered := new_numbered width height now
  fresh := .inl rfl
  upToDate skipped := nomatch skipped

variable {run next : FrameRun} {interpolate : Interpolation}

theorem Draw_inv {depth : ℕ} {now : AnimationTime} {bound : ActorAddress → Option ℕ} (inv : Inv run)
    (taken : run.step interpolate (.Draw depth now bound) = some next) : Inv next := by
  obtain ⟨⟨after, drew⟩, performed, rfl⟩ := Option.map_eq_some_iff.mp taken
  have kept := Draw_numbered inv.numbered performed
  obtain ⟨updated, update, drawn⟩ := Option.bind_eq_some_iff.mp performed
  have numbered : (run.scene.setNow now).Numbered :=
    ⟨inv.numbered.stage, inv.numbered.live, inv.numbered.children⟩
  have before : Fresh run.frame (run.scene.setNow now) := inv.fresh
  have fresh := before.steady numbered (Update_steady numbered update)
  split at drawn
  · cases drawn
    exact ⟨kept, .inr (.inr ⟨_, rfl, fun _ _ => rfl⟩), fun skipped => nomatch skipped⟩
  · next clean =>
    cases drawn
    refine ⟨kept, fresh, fun _ => ?_⟩
    rcases fresh with dirty | ⟨gone, inside, missing⟩ | ⟨frame, last, same⟩
    · exact absurd dirty clean
    · have shaped := Update_shape update
      have path : (run.scene.setNow now).InStage gone := by
        rw [InStage, ← below_of_shape shaped]
        exact inside
      have none : (run.scene.setNow now).shape gone = none := by
        rw [← shaped, TidyScene.shape, missing]
        rfl
      exact absurd (Option.map_eq_none_iff.mp none) (Update_alive update path)
    · exact ⟨frame, last, sameFrame_of_attributes same⟩

/-- A call that draws no frame. -/
theorem quiet_inv {call : SceneCall} {result : TidyScene × Bool} (other : isDraw call = false)
    (quiet : result.2 = false) (numbered : result.1.Numbered) (fresh : Fresh run.frame result.1) :
    Inv
      { scene := result.1
        frame := if result.2 then some result.1 else run.frame
        skipped := isDraw call && !result.2 } := by
  rw [quiet, other]
  exact ⟨numbered, fresh, fun skipped => nomatch skipped⟩

theorem step_inv {call : SceneCall} (inv : Inv run) (repainted : Repainted run call)
    (taken : run.step interpolate call = some next) : Inv next := by
  by_cases draws : isDraw call = true
  · cases call with
    | Draw depth now bound => exact Draw_inv inv taken
    | _ => cases draws
  have other := Bool.eq_false_iff.mpr draws
  obtain ⟨result, performed, rfl⟩ := Option.map_eq_some_iff.mp taken
  by_cases coloured : ∃ actor color, call = .SetColor actor color
  · obtain ⟨actor, color, rfl⟩ := coloured
    obtain ⟨after, done, rfl⟩ := Option.map_eq_some_iff.mp performed
    have repaints := repainted actor color rfl
    exact quiet_inv other rfl (SetColor_numbered inv.numbered done) (inv.fresh.SetColor repaints done)
  · have steady := perform_steady inv.numbered other
      (fun actor color same => coloured ⟨actor, color, same⟩) performed
    exact quiet_inv other steady.1 steady.2.numbered (inv.fresh.steady inv.numbered steady.2)

end FrameRun

section Rectangle

end Rectangle

end ChromiumOS.WindowManager
