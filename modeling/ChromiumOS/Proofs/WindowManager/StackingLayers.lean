import ChromiumOS.Model.WindowManager.StackingManager
import ChromiumOS.ToMathlib.PartialRun

/-! # What is in a layer stays in it

In both stacks the reference points keep the order of their layers, what has been put into a layer is
between its reference point and the next one, and the shadows are at the bottom of their layer. An
object that is moved ends up beside another one; what that one is above or below, it is as well.
-/

namespace ChromiumOS.WindowManager

open ListOrder PartialRun

namespace Layer

/-- The next layer further down. -/
def below (layer : Layer) : Option Layer := cast (layer.toNat + 1)

theorem cast_toNat (layer : Layer) : cast layer.toNat = some layer := by
  cases layer <;> rfl

theorem toNat_lt_of_below {layer lower : Layer} (next : layer.below = some lower) :
    layer.toNat < lower.toNat := by
  cases layer <;> cases next <;> decide

theorem below_eq_none {layer : Layer} : layer.below = none ↔ layer = LAYER_BACKGROUND := by
  cases layer <;> decide

end Layer

def Place.layer : Place → Layer
  | .body layer => layer
  | .shadow layer => layer

section Layered

variable {α : Type} [DecidableEq α]

/-- A stack whose reference points are in the order of the layers, with every object that has a place
between its layer's reference point and the next, and shadows below everything else in their layer. -/
structure Layered (stack : List α) (reference : Layer → α) (places : α → Option Place) : Prop where
  nodup : stack.Nodup
  ordered : ∀ upper lower : Layer, upper.toNat < lower.toNat →
    Precedes stack (reference upper) (reference lower)
  unplaced : ∀ layer, places (reference layer) = none
  above : ∀ object place, places object = some place → Precedes stack (reference place.layer) object
  below : ∀ object place lower, places object = some place → place.layer.below = some lower →
    Precedes stack object (reference lower)
  shadows : ∀ object shadow layer, places object = some (.body layer) →
    places shadow = some (.shadow layer) → Precedes stack object shadow

variable {stack next : List α} {reference : Layer → α} {places : α → Option Place} {item other : α}

/-- An object that moves to a place of its own keeps everything in layers. -/
theorem Layered.moved (layered : Layered stack reference places) (beside : Beside stack next item other)
    (foreign : ∀ layer, item ≠ reference layer) (place : Place)
    (above : Precedes next (reference place.layer) item)
    (below : ∀ lower, place.layer.below = some lower → Precedes next item (reference lower))
    (onto : ∀ layer, place = .body layer → ∀ shadow, shadow ≠ item →
      places shadow = some (.shadow layer) → Precedes next item shadow)
    (under : ∀ layer, place = .shadow layer → ∀ object, object ≠ item →
      places object = some (.body layer) → Precedes next object item) :
    Layered next reference (Function.update places item (some place)) := by
  constructor
  · exact beside.perm.nodup_iff.mpr layered.nodup
  · intro upper lower less
    rw [beside.others _ _ (foreign upper).symm (foreign lower).symm]
    exact layered.ordered upper lower less
  · intro layer
    rw [Function.update_of_ne (foreign layer).symm]
    exact layered.unplaced layer
  · intro object given placed
    rw [Function.update_apply] at placed
    split at placed
    · next same =>
      cases placed
      exact same ▸ above
    · next differs =>
      rw [beside.others _ _ (foreign _).symm differs]
      exact layered.above object given placed
  · intro object given lower placed next
    rw [Function.update_apply] at placed
    split at placed
    · next same =>
      cases placed
      exact same ▸ below lower next
    · next differs =>
      rw [beside.others _ _ differs (foreign _).symm]
      exact layered.below object given lower placed next
  · intro object shadow layer placed shaded
    rw [Function.update_apply] at placed shaded
    split at placed
    · next same =>
      split at shaded
      · cases placed
        exact nomatch shaded
      · next other =>
        rw [same]
        exact onto layer (Option.some.inj placed) shadow other shaded
    · next differs =>
      split at shaded
      · next same =>
        rw [same]
        exact under layer (Option.some.inj shaded) object differs placed
      · next other =>
        rw [beside.others _ _ differs other]
        exact layered.shadows object shadow layer placed shaded

/-- Directly below the reference point of a layer. -/
theorem Layered.top {layer : Layer} (layered : Layered stack reference places)
    (beside : Beside stack next item (reference layer)) (lowered : Precedes next (reference layer) item)
    (foreign : ∀ layer, item ≠ reference layer) :
    Layered next reference (Function.update places item (some (.body layer))) := by
  refine layered.moved beside foreign (.body layer) lowered ?_ ?_ nofun
  · intro lower next
    exact beside.lower _ (foreign lower).symm (layered.ordered _ _ (Layer.toNat_lt_of_below next))
  · intro layer same shadow differs shaded
    cases same
    exact beside.lower shadow differs (layered.above shadow _ shaded)

/-- Beside another object of the layer. -/
theorem Layered.sibling {layer : Layer} (layered : Layered stack reference places)
    (beside : Beside stack next item other) (placed : places other = some (.body layer))
    (foreign : ∀ layer, item ≠ reference layer) :
    Layered next reference (Function.update places item (some (.body layer))) := by
  refine layered.moved beside foreign (.body layer) ?_ ?_ ?_ nofun
  · exact beside.upper _ (foreign layer).symm (layered.above other _ placed)
  · intro lower next
    exact beside.lower _ (foreign lower).symm (layered.below other _ lower placed next)
  · intro layer same shadow differs shaded
    cases same
    exact beside.lower shadow differs (layered.shadows other shadow _ placed shaded)

/-- Directly above the reference point of the next layer further down. -/
theorem Layered.bottom {layer lower : Layer} (layered : Layered stack reference places)
    (beside : Beside stack next item (reference lower)) (raised : Precedes next item (reference lower))
    (foreign : ∀ layer, item ≠ reference layer) (below : layer.below = some lower) :
    Layered next reference (Function.update places item (some (.shadow layer))) := by
  refine layered.moved beside foreign (.shadow layer) ?_ ?_ nofun ?_
  · exact beside.upper _ (foreign layer).symm (layered.ordered _ _ (Layer.toNat_lt_of_below below))
  · intro other same
    cases below.symm.trans same
    exact raised
  · intro layer same object differs placed
    cases same
    exact beside.upper object differs (layered.below object _ lower placed below)

end Layered

/-- Raising a child above another one. -/
theorem RaiseChild_beside {children : List ActorAddress} {child above : ActorAddress}
    (nodup : children.Nodup) (inside : child ∈ children) (present : above ∈ children)
    (differs : child ≠ above) :
    Beside children (RaiseChild children child (some above)) child above ∧
      Precedes (RaiseChild children child (some above)) child above := by
  have raised : RaiseChild children child (some above) =
      insertBefore child above (children.erase child) := by
    simp [RaiseChild, differs, inside, present]
  rw [raised]
  exact beside_insertBefore nodup inside present differs

/-- Lowering a child below another one. -/
theorem LowerChild_beside {children : List ActorAddress} {child below : ActorAddress}
    (nodup : children.Nodup) (inside : child ∈ children) (present : below ∈ children)
    (differs : child ≠ below) :
    Beside children (LowerChild children child (some below)) child below ∧
      Precedes (LowerChild children child (some below)) below child := by
  have lowered : LowerChild children child (some below) =
      insertAfter child below (children.erase child) := by
    simp [LowerChild, differs, inside, present]
  rw [lowered]
  exact beside_insertAfter nodup inside present differs

theorem StackWindow_above {xids : List XWindow} {xid other : XWindow} (nodup : xids.Nodup)
    (inside : xid ∈ xids) (present : other ∈ xids) (differs : xid ≠ other) :
    Beside xids (StackWindow xids xid other true).2 xid other := by
  rw [StackWindow, if_pos ⟨inside, present, differs⟩]
  exact (beside_insertBefore nodup inside present differs).1

theorem StackWindow_below {xids : List XWindow} {xid other : XWindow} (nodup : xids.Nodup)
    (inside : xid ∈ xids) (present : other ∈ xids) (differs : xid ≠ other) :
    Beside xids (StackWindow xids xid other false).2 xid other ∧
      Precedes (StackWindow xids xid other false).2 other xid := by
  rw [StackWindow, if_pos ⟨inside, present, differs⟩]
  exact beside_insertAfter nodup inside present differs

theorem Layered.reference_mem {α : Type} [DecidableEq α] {stack : List α} {reference : Layer → α}
    {places : α → Option Place} (layered : Layered stack reference places) (layer : Layer) :
    reference layer ∈ stack := by
  by_cases bottom : layer = .LAYER_BACKGROUND
  · subst bottom
    exact (layered.ordered .LAYER_DEBUGGING .LAYER_BACKGROUND (by decide)).mem.2
  · refine (layered.ordered layer .LAYER_BACKGROUND ?_).mem.1
    cases layer <;> first | decide | exact absurd rfl bottom

namespace StackingManager

/-- Both stacks are in layers. -/
structure InLayers (manager : StackingManager) : Prop where
  windows : Layered manager.xids manager.layer_to_xid_ manager.xidPlaces
  actors : Layered manager.children_ manager.layer_to_actor_ manager.actorPlaces

/-- A child of the stage that is not a reference actor. -/
def StackableActor (manager : StackingManager) (actor : ActorAddress) : Prop :=
  actor ∈ manager.children_ ∧ ∀ layer, actor ≠ manager.layer_to_actor_ layer

/-- A child of the root window that is not a reference window. -/
def StackableXid (manager : StackingManager) (xid : XWindow) : Prop :=
  xid ∈ manager.xids ∧ ∀ layer, xid ≠ manager.layer_to_xid_ layer

/-- A window whose objects can be stacked. -/
structure Stackable (manager : StackingManager) (win : StackableWindow) : Prop where
  xid : manager.StackableXid win.xid
  actor : manager.StackableActor win.actor_
  shadow : ∀ group, win.shadow_ = some group → manager.StackableActor group

/-- The calls that the layers are made for. -/
def Admissible (manager : StackingManager) : Call → Prop
  | .StackWindowAtTopOfLayer win layer => layer ≠ .LAYER_BACKGROUND ∧ manager.Stackable win
  | .StackXidAtTopOfLayer xid _ => manager.StackableXid xid
  | .StackActorAtTopOfLayer actor _ => manager.StackableActor actor
  | .StackWindowRelativeToOtherWindow win sibling _ layer =>
    layer ≠ .LAYER_BACKGROUND ∧ manager.Stackable win ∧ win.xid ≠ sibling.xid ∧
      win.actor_ ≠ sibling.actor_ ∧ manager.xidPlaces sibling.xid = some (.body layer) ∧
      manager.actorPlaces sibling.actor_ = some (.body layer)

/-- The X windows that a call names to be moved. -/
def movedXids : Call → List XWindow
  | .StackWindowAtTopOfLayer win _ => [win.xid]
  | .StackXidAtTopOfLayer xid _ => [xid]
  | .StackActorAtTopOfLayer _ _ => []
  | .StackWindowRelativeToOtherWindow win _ _ _ => [win.xid]

/-- The actors that a call names to be moved. -/
def movedActors : Call → List ActorAddress
  | .StackWindowAtTopOfLayer win _ => win.actor_ :: win.shadow_.toList
  | .StackXidAtTopOfLayer _ _ => []
  | .StackActorAtTopOfLayer actor _ => [actor]
  | .StackWindowRelativeToOtherWindow win _ _ _ => win.actor_ :: win.shadow_.toList

/-- What a call does not move keeps its order. -/
structure OrderKept (manager : StackingManager) (call : Call) (next : StackingManager) : Prop where
  windows : ∀ first second, first ∉ movedXids call → second ∉ movedXids call →
    (Precedes next.xids first second ↔ Precedes manager.xids first second)
  actors : ∀ first second, first ∉ movedActors call → second ∉ movedActors call →
    (Precedes next.children_ first second ↔ Precedes manager.children_ first second)

variable {manager next : StackingManager} {win sibling : StackableWindow} {layer lower : Layer}

/-- The end of both ways to stack the actors of a window: its shadow goes to the bottom of the layer. -/
theorem stackShadow_layered {children : List ActorAddress} {places : ActorAddress → Option Place}
    (layered : Layered children manager.layer_to_actor_ places)
    (shadow : ∀ group, win.shadow_ = some group → group ∈ children ∧
      ∀ layer, group ≠ manager.layer_to_actor_ layer)
    (below : layer.below = some lower) :
    Layered (win.stackShadow children (some (manager.layer_to_actor_ lower)) true)
      manager.layer_to_actor_
      (win.shadow_.elim places fun group => Function.update places group (some (.shadow layer))) ∧
    ∀ first second, first ∉ win.shadow_.toList → second ∉ win.shadow_.toList →
      (Precedes (win.stackShadow children (some (manager.layer_to_actor_ lower)) true) first second ↔
        Precedes children first second) := by
  cases shaded : win.shadow_ with
  | none =>
    simp only [StackableWindow.stackShadow, shaded, Option.elim_none]
    exact ⟨layered, by simp⟩
  | some group =>
    obtain ⟨inside, foreign⟩ := shadow group shaded
    obtain ⟨beside, raised⟩ :=
      RaiseChild_beside layered.nodup inside (layered.reference_mem lower) (foreign lower)
    simp only [StackableWindow.stackShadow, shaded, Option.elim_some, reduceCtorEq, Bool.true_eq_false,
      or_self, if_false, Option.toList_some, List.mem_singleton]
    exact ⟨layered.bottom beside raised foreign below, fun first second => beside.others first second⟩

theorem GetActorForLayer_toNat (layer : Layer) :
    manager.GetActorForLayer layer.toNat = some (manager.layer_to_actor_ layer) := by
  rw [GetActorForLayer, Layer.cast_toNat, Option.map_some]

theorem GetXidForLayer_toNat (layer : Layer) :
    manager.GetXidForLayer layer.toNat = some (manager.layer_to_xid_ layer) := by
  rw [GetXidForLayer, Layer.cast_toNat, Option.map_some]

theorem GetActorForLayer_below (below : layer.below = some lower) :
    manager.GetActorForLayer (layer.toNat + 1) = some (manager.layer_to_actor_ lower) := by
  rw [GetActorForLayer, show Layer.cast (layer.toNat + 1) = some lower from below, Option.map_some]

/-- The actors of a window once its own actor has been moved beside another one of the layer. -/
theorem window_actors_layered {children : List ActorAddress} {other : ActorAddress}
    (stackable : manager.Stackable win) (below : layer.below = some lower)
    (beside : Beside manager.children_ children win.actor_ other)
    (layered : Layered children manager.layer_to_actor_
      (Function.update manager.actorPlaces win.actor_ (some (.body layer)))) :
    Layered (win.stackShadow children (some (manager.layer_to_actor_ lower)) true)
      manager.layer_to_actor_ (manager.placed win layer).actorPlaces ∧
    ∀ first second, first ∉ win.actor_ :: win.shadow_.toList →
      second ∉ win.actor_ :: win.shadow_.toList →
      (Precedes (win.stackShadow children (some (manager.layer_to_actor_ lower)) true) first second ↔
        Precedes manager.children_ first second) := by
  have shadow : ∀ group, win.shadow_ = some group → group ∈ children ∧
      ∀ layer, group ≠ manager.layer_to_actor_ layer := by
    intro group shaded
    obtain ⟨inside, foreign⟩ := stackable.shadow group shaded
    exact ⟨beside.perm.mem_iff.mpr inside, foreign⟩
  obtain ⟨shadowed, kept⟩ := stackShadow_layered layered shadow below
  refine ⟨shadowed, ?_⟩
  intro first second firstOther secondOther
  rw [List.mem_cons, not_or] at firstOther secondOther
  rw [kept first second firstOther.2 secondOther.2, beside.others first second firstOther.1 secondOther.1]

theorem StackWindowAtTopOfLayer_layered (layered : manager.InLayers) (stackable : manager.Stackable win)
    (below : layer.below = some lower) :
    ∃ next, manager.step (.StackWindowAtTopOfLayer win layer) = some next ∧ next.InLayers ∧
      OrderKept manager (.StackWindowAtTopOfLayer win layer) next := by
  obtain ⟨inside, foreign⟩ := stackable.actor
  obtain ⟨beside, lowered⟩ := LowerChild_beside layered.actors.nodup inside
    (layered.actors.reference_mem layer) (foreign layer)
  obtain ⟨actors, actorsKept⟩ := window_actors_layered stackable below beside
    (layered.actors.top beside lowered foreign)
  obtain ⟨xidInside, xidForeign⟩ := stackable.xid
  obtain ⟨xidBeside, xidLowered⟩ := StackWindow_below layered.windows.nodup xidInside
    (layered.windows.reference_mem layer) (xidForeign layer)
  have stepped : manager.step (.StackWindowAtTopOfLayer win layer) =
      some { manager.placed win layer with
        xids := (StackWindow manager.xids win.xid (manager.layer_to_xid_ layer) false).2
        children_ := win.StackCompositedBelow manager.children_ (some (manager.layer_to_actor_ layer))
          (some (manager.layer_to_actor_ lower)) true } := by
    simp only [step, StackWindowAtTopOfLayer, GetActorForLayer_toNat, GetActorForLayer_below below,
      GetXidForLayer_toNat, Option.bind_eq_bind, Option.bind_some]
    rfl
  refine ⟨_, stepped, ⟨layered.windows.top xidBeside xidLowered xidForeign, actors⟩, ?_, actorsKept⟩
  · intro first second firstOther secondOther
    rw [movedXids, List.mem_singleton] at firstOther secondOther
    exact xidBeside.others first second firstOther secondOther

theorem StackXidAtTopOfLayer_layered {xid : XWindow} (layered : manager.InLayers)
    (stackable : manager.StackableXid xid) :
    ∃ next, manager.step (.StackXidAtTopOfLayer xid layer) = some next ∧ next.InLayers ∧
      OrderKept manager (.StackXidAtTopOfLayer xid layer) next := by
  obtain ⟨inside, foreign⟩ := stackable
  obtain ⟨beside, lowered⟩ := StackWindow_below layered.windows.nodup inside
    (layered.windows.reference_mem layer) (foreign layer)
  have stepped : manager.step (.StackXidAtTopOfLayer xid layer) =
      some { manager with
        xids := (StackWindow manager.xids xid (manager.layer_to_xid_ layer) false).2
        xidPlaces := Function.update manager.xidPlaces xid (some (.body layer)) } := by
    simp only [step, StackXidAtTopOfLayer, GetXidForLayer_toNat, Option.bind_eq_bind, Option.bind_some]
    rfl
  refine ⟨_, stepped, ⟨layered.windows.top beside lowered foreign, layered.actors⟩, ?_,
    fun _ _ _ _ => Iff.rfl⟩
  · intro first second firstOther secondOther
    rw [movedXids, List.mem_singleton] at firstOther secondOther
    exact beside.others first second firstOther secondOther

theorem StackActorAtTopOfLayer_layered {actor : ActorAddress} (layered : manager.InLayers)
    (stackable : manager.StackableActor actor) :
    ∃ next, manager.step (.StackActorAtTopOfLayer actor layer) = some next ∧ next.InLayers ∧
      OrderKept manager (.StackActorAtTopOfLayer actor layer) next := by
  obtain ⟨inside, foreign⟩ := stackable
  obtain ⟨beside, lowered⟩ := LowerChild_beside layered.actors.nodup inside
    (layered.actors.reference_mem layer) (foreign layer)
  have stepped : manager.step (.StackActorAtTopOfLayer actor layer) =
      some { manager with
        children_ := LowerChild manager.children_ actor (some (manager.layer_to_actor_ layer))
        actorPlaces := Function.update manager.actorPlaces actor (some (.body layer)) } := by
    simp only [step, StackActorAtTopOfLayer, GetActorForLayer_toNat, Option.bind_eq_bind, Option.bind_some]
    rfl
  refine ⟨_, stepped, ⟨layered.windows, layered.actors.top beside lowered foreign⟩,
    fun _ _ _ _ => Iff.rfl, ?_⟩
  · intro first second firstOther secondOther
    rw [movedActors, List.mem_singleton] at firstOther secondOther
    exact beside.others first second firstOther secondOther

theorem StackWindowRelativeToOtherWindow_layered (above : Bool) (layered : manager.InLayers)
    (stackable : manager.Stackable win) (below : layer.below = some lower)
    (otherXid : win.xid ≠ sibling.xid) (otherActor : win.actor_ ≠ sibling.actor_)
    (xidPlaced : manager.xidPlaces sibling.xid = some (.body layer))
    (actorPlaced : manager.actorPlaces sibling.actor_ = some (.body layer)) :
    ∃ next, manager.step (.StackWindowRelativeToOtherWindow win sibling above layer) = some next ∧
      next.InLayers ∧
      OrderKept manager (.StackWindowRelativeToOtherWindow win sibling above layer) next := by
  obtain ⟨inside, foreign⟩ := stackable.actor
  obtain ⟨xidInside, xidForeign⟩ := stackable.xid
  have xidPresent := (layered.windows.above _ _ xidPlaced).mem.2
  have actorPresent := (layered.actors.above _ _ actorPlaced).mem.2
  have xidBeside : Beside manager.xids (StackWindow manager.xids win.xid sibling.xid above).2 win.xid
      sibling.xid := by
    cases above with
    | true => exact StackWindow_above layered.windows.nodup xidInside xidPresent otherXid
    | false => exact (StackWindow_below layered.windows.nodup xidInside xidPresent otherXid).1
  have beside : Beside manager.children_
      (if above then RaiseChild manager.children_ win.actor_ (some sibling.actor_)
        else LowerChild manager.children_ win.actor_ (some sibling.actor_)) win.actor_ sibling.actor_ := by
    cases above with
    | true => exact (RaiseChild_beside layered.actors.nodup inside actorPresent otherActor).1
    | false => exact (LowerChild_beside layered.actors.nodup inside actorPresent otherActor).1
  obtain ⟨actors, actorsKept⟩ := window_actors_layered stackable below beside
    (layered.actors.sibling beside actorPlaced foreign)
  have stepped : manager.step (.StackWindowRelativeToOtherWindow win sibling above layer) =
      some { manager.placed win layer with
        xids := (StackWindow manager.xids win.xid sibling.xid above).2
        children_ := win.stackShadow
          (if above then RaiseChild manager.children_ win.actor_ (some sibling.actor_)
            else LowerChild manager.children_ win.actor_ (some sibling.actor_))
          (some (manager.layer_to_actor_ lower)) true } := by
    simp only [step, StackWindowRelativeToOtherWindow, GetActorForLayer_below below, Option.bind_eq_bind,
      Option.bind_some]
    cases above <;> rfl
  refine ⟨_, stepped, ⟨layered.windows.sibling xidBeside xidPlaced xidForeign, actors⟩, ?_, actorsKept⟩
  · intro first second firstOther secondOther
    rw [movedXids, List.mem_singleton] at firstOther secondOther
    exact xidBeside.others first second firstOther secondOther

/-- Every admissible call succeeds, keeps both stacks in layers and moves only what it names. -/
theorem step_layered (call : Call) (layered : manager.InLayers) (admissible : manager.Admissible call) :
    ∃ next, manager.step call = some next ∧ next.InLayers ∧ OrderKept manager call next := by
  cases call with
  | StackWindowAtTopOfLayer win layer =>
    obtain ⟨inner, stackable⟩ := admissible
    obtain ⟨lower, below⟩ := Option.ne_none_iff_exists'.mp (mt Layer.below_eq_none.mp inner)
    exact StackWindowAtTopOfLayer_layered layered stackable below
  | StackXidAtTopOfLayer xid layer => exact StackXidAtTopOfLayer_layered layered admissible
  | StackActorAtTopOfLayer actor layer => exact StackActorAtTopOfLayer_layered layered admissible
  | StackWindowRelativeToOtherWindow win sibling above layer =>
    obtain ⟨inner, stackable, otherXid, otherActor, xidPlaced, actorPlaced⟩ := admissible
    obtain ⟨lower, below⟩ := Option.ne_none_iff_exists'.mp (mt Layer.below_eq_none.mp inner)
    exact StackWindowRelativeToOtherWindow_layered above layered stackable below otherXid otherActor
      xidPlaced actorPlaced

/-- New objects for the reference points of a stack. -/
structure Fresh {α : Type} (stack : List α) (reference : Layer → α) : Prop where
  nodup : stack.Nodup
  distinct : Function.Injective reference
  fresh : ∀ layer, reference layer ∉ stack

theorem Layer.precedes_all {upper lower : Layer} (less : upper.toNat < lower.toNat) :
    Precedes Layer.all upper lower := by
  unfold Precedes
  cases upper <;> cases lower <;> first | exact absurd less (by decide) | decide

theorem layered_of_fresh {α : Type} [DecidableEq α] {stack : List α} {reference : Layer → α}
    (fresh : Fresh stack reference) :
    Layered (Layer.all.map reference ++ stack) reference fun _ => none := by
  refine ⟨?_, ?_, fun _ => rfl, nofun, nofun, nofun⟩
  · refine List.Nodup.append (List.Nodup.map fresh.distinct (by decide)) fresh.nodup ?_
    intro object reference inside
    obtain ⟨layer, -, rfl⟩ := List.mem_map.mp reference
    exact fresh.fresh layer inside
  · intro upper lower less
    exact ((Layer.precedes_all less).map reference).trans (List.sublist_append_left _ _)

theorem RaiseChild_new (children : List ActorAddress) (actor : ActorAddress) :
    RaiseChild (actor :: children) actor none = actor :: children := by
  simp [RaiseChild]

theorem new_inLayers {xids : List XWindow} {children : List ActorAddress} {newXid : Layer → XWindow}
    {newActor : Layer → ActorAddress} (windows : Fresh xids newXid) (actors : Fresh children newActor) :
    (new xids children newXid newActor).InLayers := by
  constructor
  · exact layered_of_fresh windows
  · have created : (new xids children newXid newActor).children_ = Layer.all.map newActor ++ children := by
      simp only [new, RaiseChild_new]
      rfl
    rw [created]
    exact layered_of_fresh actors

/-- From the constructor on, admissible calls succeed, both stacks are in layers after each of them,
and each moves only what it names. -/
theorem layers_hold {xids : List XWindow} {children : List ActorAddress} {newXid : Layer → XWindow}
    {newActor : Layer → ActorAddress} (windows : Fresh xids newXid) (actors : Fresh children newActor)
    (calls : List Call)
    (admissible : Throughout step Admissible (new xids children newXid newActor) calls) :
    (∃ last, run step (new xids children newXid newActor) calls = some last) ∧
      Always step InLayers (new xids children newXid newActor) calls ∧
      ∀ past call, past ++ [call] <+: calls → ∀ manager next,
        run step (new xids children newXid newActor) past = some manager →
          manager.step call = some next → OrderKept manager call next := by
  have always : Always step InLayers (new xids children newXid newActor) calls :=
    always_of_throughout (new_inLayers windows actors)
      (fun manager call next layered admissible stepped => by
        obtain ⟨reached, same, kept, -⟩ := step_layered call layered admissible
        rwa [← Option.some.inj (same.symm.trans stepped)]) admissible
  refine ⟨?_, always, ?_⟩
  · refine completes_of_throughout InLayers ?_ (new_inLayers windows actors) admissible
    intro manager call layered met
    obtain ⟨next, stepped, kept, -⟩ := step_layered call layered met
    exact ⟨next, stepped, kept⟩
  · intro past call before manager next reached stepped
    have layered := always past ((List.prefix_append past [call]).trans before) manager reached
    obtain ⟨same, taken, -, kept⟩ :=
      step_layered call layered (admissible past call before manager reached)
    rwa [← Option.some.inj (taken.symm.trans stepped)]

theorem fresh_of_large {stack : List ℕ} (nodup : stack.Nodup) (large : ∀ object ∈ stack, 12 ≤ object) :
    Fresh stack Layer.toNat := by
  refine ⟨nodup, ?_, ?_⟩
  · intro left right same
    cases left <;> cases right <;> first | rfl | exact nomatch same
  · intro layer inside
    have bound := large _ inside
    cases layer <;> exact absurd bound (by decide)

/-- A window with a shadow and one above it. -/
theorem two_windows_in_layer :
    Throughout step Admissible (new [20, 21] [30, 31, 32] Layer.toNat Layer.toNat)
      [.StackWindowAtTopOfLayer ⟨20, 30, some 31⟩ .LAYER_TOPLEVEL_WINDOW,
        .StackWindowRelativeToOtherWindow ⟨21, 32, none⟩ ⟨20, 30, some 31⟩ true .LAYER_TOPLEVEL_WINDOW] ∧
    Always step InLayers (new [20, 21] [30, 31, 32] Layer.toNat Layer.toNat)
      [.StackWindowAtTopOfLayer ⟨20, 30, some 31⟩ .LAYER_TOPLEVEL_WINDOW,
        .StackWindowRelativeToOtherWindow ⟨21, 32, none⟩ ⟨20, 30, some 31⟩ true .LAYER_TOPLEVEL_WINDOW] := by
  have admissible : Throughout step Admissible (new [20, 21] [30, 31, 32] Layer.toNat Layer.toNat)
      [.StackWindowAtTopOfLayer ⟨20, 30, some 31⟩ .LAYER_TOPLEVEL_WINDOW,
        .StackWindowRelativeToOtherWindow ⟨21, 32, none⟩ ⟨20, 30, some 31⟩ true
          .LAYER_TOPLEVEL_WINDOW] := by
    have foreign : ∀ object, 12 ≤ object → ∀ layer, object ≠ Layer.toNat layer := by
      intro object large layer same
      subst same
      cases layer <;> exact absurd large (by decide)
    refine throughout_cons.mpr ⟨⟨by decide, ⟨by decide, foreign 20 (by decide)⟩,
      ⟨by decide, foreign 30 (by decide)⟩, ?_⟩, ?_⟩
    · rintro group same
      cases same
      exact ⟨by decide, foreign 31 (by decide)⟩
    · intro next taken
      cases taken
      refine throughout_cons.mpr ⟨⟨by decide, ⟨⟨by decide, foreign 21 (by decide)⟩,
        ⟨by decide, foreign 32 (by decide)⟩, nofun⟩, by decide, by decide, rfl, rfl⟩, ?_⟩
      exact fun _ _ => throughout_nil
  exact ⟨admissible, (layers_hold (fresh_of_large (by decide) (by decide))
    (fresh_of_large (by decide) (by decide)) _ admissible).2.1⟩

end StackingManager

end ChromiumOS.WindowManager
