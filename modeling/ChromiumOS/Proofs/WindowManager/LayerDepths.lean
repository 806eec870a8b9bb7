import ChromiumOS.Model.WindowManager.LayerVisitor

/-! # The depths of the layers

The layer visitor goes through the actors in the order of the painter: the children of a container from top to
bottom, each with everything in it, then the container. Each actor is put one layer behind the one before.
There are more layers than actors, so that all of them fit between the two ends.
-/

namespace ChromiumOS.WindowManager

/-- The actors in the order of the layers: children from top to bottom, then the container. -/
def ActorVector.actors : ActorVector → List VisitedActor
  | .nil => []
  | .leaf _ actor rest => actor :: rest.actors
  | .container actor children rest => children.actors ++ actor :: rest.actors

def StageActor.actors (stage : StageActor) : List VisitedActor := stage.children.actors ++ [stage.actor]

/-- An actor without what the visitor writes. -/
def VisitedActor.bare (actor : VisitedActor) : VisitedActor := { actor with z_ := 0, is_opaque_ := true }

def ActorVector.bare : ActorVector → ActorVector
  | .nil => .nil
  | .leaf actorClass actor rest => .leaf actorClass actor.bare rest.bare
  | .container actor children rest => .container actor.bare children.bare rest.bare

def StageActor.bare (stage : StageActor) : StageActor := ⟨stage.actor.bare, stage.children.bare⟩

section Counting

theorem ActorVector.Update_eq (children : ActorVector) (count : Int32) :
    children.Update count = count + Int32.ofNat children.actors.length := by
  induction children generalizing count with
  | nil => rw [ActorVector.Update, actors, List.length_nil]; simp
  | leaf _ actor rest ih =>
    rw [ActorVector.Update, ih, actors, List.length_cons, Nat.add_comm, Int32.ofNat_add]
    exact Int32.add_assoc count 1 _
  | container actor children rest first second =>
    rw [ActorVector.Update, second, first, actors, List.length_append, List.length_cons, Int32.ofNat_add,
      Nat.add_comm rest.actors.length, Int32.ofNat_add, ← Int32.add_assoc, ← Int32.add_assoc]
    rfl

/-- `Update` counts every actor. -/
theorem StageActor.Update_eq (stage : StageActor) : stage.Update 0 = Int32.ofNat stage.actors.length := by
  rw [StageActor.Update, ActorVector.Update_eq, actors, List.length_append, Int32.ofNat_add, Int32.zero_add]
  rfl

end Counting

section Power

/-- Or-ing in a shifted copy keeps a word below a power of two and does not make it smaller. -/
theorem toNat_or_shift {x : UInt32} {exponent : ℕ} (bound : x.toNat < 2 ^ exponent) (shift : UInt32) :
    x.toNat ≤ (x ||| (x >>> shift)).toNat ∧ (x ||| (x >>> shift)).toNat < 2 ^ exponent := by
  rw [UInt32.toNat_or, UInt32.toNat_shiftRight]
  refine ⟨Nat.left_le_or, Nat.or_lt_two_pow bound ?_⟩
  exact (Nat.shiftRight_le _ _).trans_lt bound

theorem le_NextPowerOfTwo {x : UInt32} (positive : 0 < x.toNat) (bound : x.toNat ≤ 2 ^ 31) :
    x.toNat ≤ (NextPowerOfTwo x).toNat := by
  have less : (x - 1).toNat = x.toNat - 1 :=
    UInt32.toNat_sub_of_le _ _ (UInt32.le_iff_toNat_le.mpr positive)
  have first := @toNat_or_shift (x - 1) 31 (by omega) 1
  have second := toNat_or_shift first.2 2
  have third := toNat_or_shift second.2 4
  have fourth := toNat_or_shift third.2 8
  have fifth := toNat_or_shift fourth.2 16
  rw [NextPowerOfTwo, UInt32.toNat_add]
  simp only [UInt32.toNat_one]
  omega

end Power

/-- Depths one step apart. -/
def depths (depth step : ℚ) : ℕ → List ℚ
  | 0 => []
  | count + 1 => depth :: depths (depth + step) step count

section Depths

theorem depths_add (depth step : ℚ) (first second : ℕ) :
    depths depth step (first + second) =
      depths depth step first ++ depths (depth + first * step) step second := by
  induction first generalizing depth with
  | zero => simp [depths]
  | succ first ih =>
    rw [Nat.succ_add, depths, depths, ih, List.cons_append]
    congr 3
    push_cast
    ring

theorem mem_depths {depth step value : ℚ} {count : ℕ} (member : value ∈ depths depth step count) :
    ∃ index < count, value = depth + index * step := by
  induction count generalizing depth with
  | zero => cases member
  | succ count ih =>
    rcases List.mem_cons.mp member with rfl | later
    · exact ⟨0, Nat.succ_pos count, by simp⟩
    · obtain ⟨index, small, rfl⟩ := ih later
      refine ⟨index + 1, by omega, ?_⟩
      push_cast
      ring

theorem depths_decreasing {step : ℚ} (down : step < 0) (depth : ℚ) (count : ℕ) :
    (depths depth step count).Pairwise (· > ·) := by
  induction count generalizing depth with
  | zero => exact .nil
  | succ count ih =>
    refine List.pairwise_cons.mpr ⟨fun value member => ?_, ih _⟩
    obtain ⟨index, -, rfl⟩ := mem_depths member
    have further : index * step ≤ 0 := mul_nonpos_of_nonneg_of_nonpos (by positivity) down.le
    linarith

end Depths

namespace LayerVisitor

/-- What visiting some actors in the order of the layers does. -/
structure Layered (visitor : LayerVisitor) (before after : List VisitedActor) (last : LayerVisitor) :
    Prop where
  visited : last.visited = visitor.visited ++ before.map VisitedActor.address
  depths : after.map VisitedActor.z_ = depths visitor.depth_ visitor.layer_thickness_ before.length
  depth : last.depth_ = visitor.depth_ + before.length * visitor.layer_thickness_
  thickness : last.layer_thickness_ = visitor.layer_thickness_

namespace Layered

variable {visitor middle last : LayerVisitor} {first second before after : List VisitedActor}

theorem append (former : Layered visitor first before middle) (later : Layered middle second after last) :
    Layered visitor (first ++ second) (before ++ after) last where
  visited := by rw [later.visited, former.visited, List.map_append, List.append_assoc]
  depths := by
    rw [List.map_append, List.length_append, depths_add, former.depths, later.depths, former.depth,
      former.thickness]
  depth := by
    rw [later.depth, former.depth, former.thickness, List.length_append]
    push_cast
    ring
  thickness := later.thickness.trans former.thickness

end Layered

variable (visitor : LayerVisitor) (actor : VisitedActor)

theorem VisitActor_layered : Layered visitor [actor] [(visitor.VisitActor actor).2]
    (visitor.VisitActor actor).1 where
  visited := rfl
  depths := rfl
  depth := by simp [VisitActor]
  thickness := rfl

@[simp] theorem clearOpaque_z (data : Option Bool) : (clearOpaque data actor).z_ = actor.z_ := by
  cases data <;> rfl

@[simp] theorem clearOpaque_bare (data : Option Bool) : (clearOpaque data actor).bare = actor.bare := by
  cases data <;> rfl

theorem VisitActor_bare : (visitor.VisitActor actor).2.bare = actor.bare := rfl

/-- A leaf is visited like any actor but for its opaqueness. -/
theorem VisitLeaf_eq (actorClass : ActorClass) :
    (visitor.VisitLeaf actor actorClass).1 = (visitor.VisitActor actor).1 ∧
      (visitor.VisitLeaf actor actorClass).2.z_ = (visitor.VisitActor actor).2.z_ ∧
      (visitor.VisitLeaf actor actorClass).2.bare = actor.bare := by
  cases actorClass with
  | Actor => exact ⟨rfl, rfl, rfl⟩
  | QuadActor => simp [VisitLeaf, VisitQuad, VisitActor_bare]
  | TexturePixmapActor => simp [VisitLeaf, VisitTexturePixmap, VisitQuad, VisitActor_bare]

theorem VisitLeaf_layered (actorClass : ActorClass) :
    Layered visitor [actor] [(visitor.VisitLeaf actor actorClass).2] (visitor.VisitLeaf actor actorClass).1 := by
  obtain ⟨same, depth, -⟩ := VisitLeaf_eq visitor actor actorClass
  have layered := VisitActor_layered visitor actor
  rw [same]
  refine ⟨layered.visited, ?_, layered.depth, layered.thickness⟩
  rw [← layered.depths, List.map_singleton, depth, List.map_singleton]

variable {visitor actor}

theorem VisitChildren_layered (visitor : LayerVisitor) (children : ActorVector) :
    Layered visitor children.actors (visitor.VisitChildren children).2.actors
      (visitor.VisitChildren children).1 := by
  induction children generalizing visitor with
  | nil => exact ⟨(List.append_nil _).symm, rfl, by simp [VisitChildren, ActorVector.actors], rfl⟩
  | leaf actorClass actor rest ih =>
    have first := VisitLeaf_layered visitor actor actorClass
    exact first.append (ih _)
  | container actor children rest inside below =>
    have own := VisitActor_layered (visitor.VisitChildren children).1 actor
    exact (inside visitor).append (own.append (below _))

theorem VisitChildren_bare (visitor : LayerVisitor) (children : ActorVector) :
    (visitor.VisitChildren children).2.bare = children.bare := by
  induction children generalizing visitor with
  | nil => rfl
  | leaf actorClass actor rest ih =>
    rw [VisitChildren, ActorVector.bare, ActorVector.bare, (VisitLeaf_eq visitor actor actorClass).2.2, ih]
  | container actor children rest inside below =>
    rw [VisitChildren, ActorVector.bare, ActorVector.bare, VisitActor_bare, inside, below]

/-- The number of layers of a stage. -/
def layers (visitor : LayerVisitor) : ℕ := (NextPowerOfTwo (visitor.count_ + 2).toUInt32).toNat

/-- The visitor in front of the first layer. -/
def front (visitor : LayerVisitor) : LayerVisitor :=
  let layer_thickness_ := -(kMaxDepth - kMinDepth) / visitor.layers
  { visitor with layer_thickness_, depth_ := kMaxDepth + layer_thickness_ }

theorem VisitStage_layered (visitor : LayerVisitor) (stage : StageActor) :
    Layered visitor.front stage.actors (visitor.VisitStage stage).2.actors (visitor.VisitStage stage).1 :=
  (VisitChildren_layered visitor.front stage.children).append (VisitActor_layered _ stage.actor)

theorem VisitStage_bare (visitor : LayerVisitor) (stage : StageActor) :
    (visitor.VisitStage stage).2.bare = stage.bare := by
  rw [VisitStage, StageActor.bare, StageActor.bare, VisitActor_bare, VisitChildren_bare]

/-- There are more layers than actors. -/
theorem layers_of_count {stage : StageActor} (few : stage.actors.length ≤ 2 ^ 31 - 2) :
    stage.actors.length + 2 ≤ layers { count_ := stage.Update 0 } := by
  have count : (stage.Update 0 + 2).toUInt32.toNat = stage.actors.length + 2 := by
    rw [StageActor.Update_eq]
    have sum : (Int32.ofNat stage.actors.length + Int32.ofNat 2).toUInt32 =
        UInt32.ofNat (stage.actors.length + 2) := by
      rw [← Int32.ofNat_add]
      rfl
    change (Int32.ofNat stage.actors.length + Int32.ofNat 2).toUInt32.toNat = _
    rw [sum, UInt32.toNat_ofNat_of_lt' (by simp only [UInt32.size]; omega)]
  rw [layers, ← count]
  exact le_NextPowerOfTwo (by omega) (by omega)

theorem front_thickness_neg (visitor : LayerVisitor) (some : 0 < visitor.layers) :
    visitor.front.layer_thickness_ < 0 := by
  have positive : (0 : ℚ) < visitor.layers := by exact_mod_cast some
  refine div_neg_of_neg_of_pos ?_ positive
  norm_num [kMaxDepth, kMinDepth]

/-- A layer behind the first one and in front of the last one is between the two ends. -/
theorem layer_inside {visitor : LayerVisitor} {index : ℕ} (inside : index + 1 < visitor.layers) :
    kMinDepth < visitor.front.depth_ + index * visitor.front.layer_thickness_ ∧
      visitor.front.depth_ + index * visitor.front.layer_thickness_ < kMaxDepth := by
  have down := front_thickness_neg visitor (by omega)
  have positive : (0 : ℚ) < visitor.layers := by exact_mod_cast (by omega : 0 < visitor.layers)
  have whole : visitor.front.layer_thickness_ * visitor.layers = kMinDepth - kMaxDepth := by
    rw [front, div_mul_cancel₀ _ positive.ne', neg_sub]
  have first : visitor.front.depth_ = kMaxDepth + visitor.front.layer_thickness_ := rfl
  have room : ((index : ℚ) + 1) < visitor.layers := by exact_mod_cast inside
  have deep := mul_lt_mul_of_neg_left room down
  have step : visitor.front.layer_thickness_ * ((index : ℚ) + 1) < 0 :=
    mul_neg_of_neg_of_pos down (by positivity)
  rw [first]
  constructor <;> nlinarith

theorem VisitStage_decreasing {stage : StageActor} (few : stage.actors.length ≤ 2 ^ 31 - 2) :
    ((LayerVisitor.VisitStage { count_ := stage.Update 0 } stage).2.actors.map
      VisitedActor.z_).Pairwise (· > ·) := by
  have room := layers_of_count few
  rw [(VisitStage_layered { count_ := stage.Update 0 } stage).depths]
  exact depths_decreasing (front_thickness_neg _ (by omega)) _ _

end LayerVisitor

/-- Every actor gets a depth of its own, in the order of the layers and between the two ends. -/
theorem VisitStage_depths (stage : StageActor) (few : stage.actors.length ≤ 2 ^ 31 - 2) :
    (LayerVisitor.VisitStage { count_ := stage.Update 0 } stage).1.visited =
        stage.actors.map VisitedActor.address ∧
      (LayerVisitor.VisitStage { count_ := stage.Update 0 } stage).2.bare = stage.bare ∧
      ((LayerVisitor.VisitStage { count_ := stage.Update 0 } stage).2.actors.map
        VisitedActor.z_).Pairwise (· > ·) ∧
      ∀ actor ∈ (LayerVisitor.VisitStage { count_ := stage.Update 0 } stage).2.actors,
        LayerVisitor.kMinDepth < actor.z_ ∧ actor.z_ < LayerVisitor.kMaxDepth := by
  have layered := LayerVisitor.VisitStage_layered { count_ := stage.Update 0 } stage
  have room := LayerVisitor.layers_of_count few
  refine ⟨layered.visited, LayerVisitor.VisitStage_bare _ stage, LayerVisitor.VisitStage_decreasing few, ?_⟩
  intro actor member
  have depth := List.mem_map_of_mem (f := VisitedActor.z_) member
  rw [layered.depths] at depth
  obtain ⟨index, small, same⟩ := mem_depths depth
  rw [same]
  exact LayerVisitor.layer_inside (by omega)

/-- A stage with a group of two rectangles. -/
theorem VisitStage_depths_group :
    ((LayerVisitor.VisitStage { count_ := StageActor.Update ⟨{ address := 0 }, .container { address := 1 }
      (.leaf .QuadActor { address := 2 } (.leaf .QuadActor { address := 3 } .nil)) .nil⟩ 0 }
      ⟨{ address := 0 }, .container { address := 1 }
        (.leaf .QuadActor { address := 2 } (.leaf .QuadActor { address := 3 } .nil)) .nil⟩).2.actors.map
      VisitedActor.z_).Pairwise (· > ·) :=
  (VisitStage_depths _ (by decide)).2.2.1

end ChromiumOS.WindowManager
