import ChromiumOS.Model.WindowManager.TidyInterface
import ChromiumOS.ToMathlib.PartialRun

/-! # Parents and children

An actor and its parent point to each other. `AddActor` does not look at the parent that an actor
already has, `RemoveActor` leaves `parent_` of the actor as it is and the destructor of a container
does so with its children, so the two sides agree as long as an actor is added once, leaves its parent
by being destroyed, and a container goes after its children.
-/

namespace ChromiumOS.WindowManager

open ListOrder PartialRun

theorem RaiseChild_perm (children : List ActorAddress) (child : ActorAddress)
    (above : Option ActorAddress) : (RaiseChild children child above).Perm children := by
  unfold RaiseChild
  split
  · exact .refl _
  · next differs =>
    split
    · exact .refl _
    · next present =>
      have back := (List.perm_cons_erase (not_not.mp present)).symm
      cases above with
      | none => exact back
      | some above =>
        dsimp only
        split
        · exact .refl _
        · next found =>
          have other : above ≠ child := fun same => differs (congrArg some same.symm)
          have left : above ∈ children.erase child := (List.mem_erase_of_ne other).mpr (not_not.mp found)
          exact (insertBefore_perm child left).trans back

theorem LowerChild_perm (children : List ActorAddress) (child : ActorAddress)
    (below : Option ActorAddress) : (LowerChild children child below).Perm children := by
  unfold LowerChild
  split
  · exact .refl _
  · next differs =>
    split
    · exact .refl _
    · next present =>
      have back := (List.perm_cons_erase (not_not.mp present)).symm
      cases below with
      | none => exact (List.perm_append_singleton child _).trans back
      | some below =>
        dsimp only
        split
        · exact .refl _
        · next found =>
          have other : below ≠ child := fun same => differs (congrArg some same.symm)
          have left : below ∈ children.erase child := (List.mem_erase_of_ne other).mpr (not_not.mp found)
          exact (insertAfter_perm child left).trans back

namespace TidyInterface

variable {tidy next : TidyInterface} {actor container address : ActorAddress}

/-- A live actor points to a parent. -/
def HasParent (tidy : TidyInterface) (actor parent : ActorAddress) : Prop :=
  ∃ this, tidy.actors_ actor = some this ∧ this.parent_ = some parent

/-- A live container lists its children. -/
def Holds (tidy : TidyInterface) (container : ActorAddress) (children : List ActorAddress) : Prop :=
  ∃ this, tidy.actors_ container = some this ∧ this.children_ = some children

/-- Every container knows whether it has children. -/
def Flagged (tidy : TidyInterface) : Prop :=
  ∀ container this children, tidy.actors_ container = some this → this.children_ = some children →
    (this.has_children_ = true ↔ children ≠ [])

/-- Parents and children point to each other, and containers know whether they have children. -/
structure Linked (tidy : TidyInterface) : Prop where
  parent : ∀ actor container, HasParent tidy actor container →
    ∃ children, Holds tidy container children ∧ children.count actor = 1
  child : ∀ container children, Holds tidy container children →
    ∀ actor ∈ children, HasParent tidy actor container
  flag : tidy.Flagged

theorem initial_linked : Linked {} := by
  constructor
  · rintro actor container ⟨this, live, -⟩
    exact nomatch live
  · rintro container children ⟨this, live, -⟩
    exact nomatch live
  · intro container this children live
    exact nomatch live

theorem hasParent_set {this : TidyActor} {child parent : ActorAddress} :
    HasParent (tidy.set address this) child parent ↔
      if child = address then this.parent_ = some parent else HasParent tidy child parent := by
  simp only [HasParent, set, Function.update_apply]
  split
  · simp
  · rfl

theorem holds_set {this : TidyActor} {children : List ActorAddress} :
    Holds (tidy.set address this) container children ↔
      if container = address then this.children_ = some children else Holds tidy container children := by
  simp only [Holds, set, Function.update_apply]
  split
  · simp
  · rfl

theorem Flagged.set {this : TidyActor} (flagged : tidy.Flagged)
    (new : ∀ children, this.children_ = some children → (this.has_children_ = true ↔ children ≠ [])) :
    (tidy.set address this).Flagged := by
  intro container owner children live listed
  simp only [TidyInterface.set, Function.update_apply] at live
  split at live
  · cases live
    exact new children listed
  · exact flagged container owner children live listed

theorem Linked.holds_unique {children others : List ActorAddress} (left : Holds tidy container children)
    (right : Holds tidy container others) : children = others := by
  obtain ⟨this, live, listed⟩ := left
  obtain ⟨that, alive, enumerated⟩ := right
  cases live.symm.trans alive
  exact Option.some.inj (listed.symm.trans enumerated)

theorem Holds.isSome {children : List ActorAddress} (holds : Holds tidy container children) :
    tidy.actors_ container ≠ none := by
  obtain ⟨this, live, -⟩ := holds
  rw [live]
  exact nofun

theorem create_linked {group : Bool} (linked : tidy.Linked) (free : tidy.actors_ address = none) :
    (tidy.set address { children_ := if group then some [] else none }).Linked := by
  constructor
  · intro actor container pointed
    rw [hasParent_set] at pointed
    split at pointed
    · exact nomatch pointed
    · obtain ⟨children, holds, once⟩ := linked.parent actor container pointed
      refine ⟨children, ?_, once⟩
      rw [holds_set, if_neg]
      · exact holds
      · rintro rfl
        exact holds.isSome free
  · intro container children holds actor inside
    rw [holds_set] at holds
    split at holds
    · cases group <;> cases holds
      exact nomatch inside
    · have pointed := linked.child container children holds actor inside
      rw [hasParent_set, if_neg]
      · exact pointed
      · rintro rfl
        obtain ⟨this, live, -⟩ := pointed
        exact nomatch live.symm.trans free
  · apply linked.flag.set
    intro children listed
    cases group <;> cases listed
    simp

/-- An actor without a parent is nobody's child. -/
theorem Linked.not_mem {this : TidyActor} (linked : tidy.Linked) (live : tidy.actors_ actor = some this)
    (orphan : this.parent_ = none) {children : List ActorAddress}
    (holds : Holds tidy container children) : actor ∉ children := by
  intro inside
  obtain ⟨that, alive, parent⟩ := linked.child container children holds actor inside
  cases live.symm.trans alive
  exact nomatch orphan.symm.trans parent

/-- What `AddActor` does when both actors are alive. -/
theorem AddActor_eq_some :
    tidy.AddActor container actor = some next ↔
      ∃ this owner children, tidy.actors_ actor = some this ∧
        (tidy.set actor { this with parent_ := some container }).actors_ container = some owner ∧
        owner.children_ = some children ∧
        next = (tidy.set actor { this with parent_ := some container }).set container
          { owner with children_ := some (actor :: children), has_children_ := true } := by
  simp only [AddActor, Option.bind_eq_bind, Option.bind_eq_some_iff, pure, Option.some.injEq]
  constructor
  · rintro ⟨this, live, owner, alive, children, listed, rfl⟩
    exact ⟨this, owner, children, live, alive, listed, rfl⟩
  · rintro ⟨this, owner, children, live, alive, listed, rfl⟩
    exact ⟨this, live, owner, alive, children, listed, rfl⟩

/-- Pointing an actor to a parent changes no list of children. -/
theorem holds_repointed {this : TidyActor} (live : tidy.actors_ actor = some this)
    (parent : Option ActorAddress) {children : List ActorAddress} :
    Holds (tidy.set actor { this with parent_ := parent }) container children ↔
      Holds tidy container children := by
  rw [holds_set]
  split
  · next same =>
    subst same
    simp [Holds, live]
  · rfl

/-- The parents after a successful `AddActor`. -/
theorem hasParent_added (added : tidy.AddActor container actor = some next)
    {child parent : ActorAddress} :
    HasParent next child parent ↔
      if child = actor then container = parent else HasParent tidy child parent := by
  obtain ⟨this, owner, children, live, alive, listed, rfl⟩ := AddActor_eq_some.mp added
  rw [hasParent_set]
  split
  · next same =>
    subst same
    have repointed : HasParent (tidy.set actor { this with parent_ := some child }) child parent ↔
        owner.parent_ = some parent := by
      simp [HasParent, alive]
    rw [← repointed, hasParent_set]
    simp
  · rw [hasParent_set]
    simp

/-- The children after a successful `AddActor`. -/
theorem holds_added (added : tidy.AddActor container actor = some next) :
    ∃ children, Holds tidy container children ∧ ∀ other others, Holds next other others ↔
      if other = container then actor :: children = others else Holds tidy other others := by
  obtain ⟨this, owner, children, live, alive, listed, rfl⟩ := AddActor_eq_some.mp added
  refine ⟨children, (holds_repointed live (some container)).mp ⟨owner, alive, listed⟩, ?_⟩
  intro other others
  rw [holds_set]
  split
  · simp
  · exact holds_repointed live (some container)

theorem AddActor_linked {this : TidyActor} (linked : tidy.Linked)
    (live : tidy.actors_ actor = some this) (orphan : this.parent_ = none)
    (added : tidy.AddActor container actor = some next) : next.Linked := by
  obtain ⟨children, held, holds⟩ := holds_added added
  have fresh : actor ∉ children := linked.not_mem live orphan held
  constructor
  · intro child parent pointed
    rw [hasParent_added added] at pointed
    split at pointed
    · next same =>
      subst same
      subst pointed
      refine ⟨child :: children, (holds _ _).mpr (by rw [if_pos rfl]), ?_⟩
      rw [List.count_cons_self, List.count_eq_zero.mpr fresh]
    · next differs =>
      obtain ⟨siblings, kept, once⟩ := linked.parent child parent pointed
      by_cases same : parent = container
      · subst same
        obtain rfl := Linked.holds_unique kept held
        refine ⟨actor :: siblings, (holds _ _).mpr (by rw [if_pos rfl]), ?_⟩
        rwa [List.count_cons_of_ne (Ne.symm differs)]
      · exact ⟨siblings, (holds _ _).mpr (by rwa [if_neg same]), once⟩
  · intro parent siblings listed child inside
    rw [hasParent_added added]
    rw [holds] at listed
    split at listed
    · next same =>
      subst listed
      split
      · exact same.symm
      · next differs =>
        rw [same]
        exact linked.child container children held child
          ((List.mem_cons.mp inside).resolve_left differs)
    · next other =>
      have pointed := linked.child parent siblings listed child inside
      rw [if_neg]
      · exact pointed
      · rintro rfl
        exact linked.not_mem live orphan listed inside
  · obtain ⟨this, owner, children, live, alive, listed, rfl⟩ := AddActor_eq_some.mp added
    apply Flagged.set
    · exact linked.flag.set fun siblings => linked.flag actor this siblings live
    · intro siblings same
      cases same
      simp

/-- A call that puts the children of a container in another order keeps parents and children. -/
theorem restack_linked {method : List ActorAddress → List ActorAddress} (linked : tidy.Linked)
    (perm : ∀ children, (method children).Perm children)
    (restacked : tidy.restack actor method = some next) : next.Linked := by
  simp only [restack, Option.bind_eq_bind, Option.bind_eq_some_iff, pure, Option.some.injEq] at restacked
  obtain ⟨this, -, parent_, -, owner, alive, children, listed, rfl⟩ := restacked
  have pointers : ∀ child parent, HasParent (tidy.set parent_
      { owner with children_ := some (method children) }) child parent ↔ HasParent tidy child parent := by
    intro child parent
    rw [hasParent_set]
    split
    · next same => simp [same, HasParent, alive]
    · rfl
  have held : Holds tidy parent_ children := ⟨owner, alive, listed⟩
  constructor
  · intro child parent pointed
    obtain ⟨siblings, holds, once⟩ := linked.parent child parent ((pointers child parent).mp pointed)
    by_cases same : parent = parent_
    · subst same
      obtain rfl := Linked.holds_unique holds held
      refine ⟨method siblings, ?_, ?_⟩
      · rw [holds_set, if_pos rfl]
      · rwa [(perm siblings).count_eq]
    · exact ⟨siblings, by rwa [holds_set, if_neg same], once⟩
  · intro parent siblings holds child inside
    rw [pointers]
    rw [holds_set] at holds
    split at holds
    · next same =>
      cases holds
      rw [same]
      exact linked.child parent_ children held child ((perm children).mem_iff.mp inside)
    · exact linked.child parent siblings holds child inside
  · apply linked.flag.set
    intro siblings same
    cases same
    rw [linked.flag parent_ owner children alive listed, ne_eq, ne_eq, ← List.length_eq_zero_iff,
      ← List.length_eq_zero_iff, (perm children).length_eq]

/-- The actors but one that is gone. -/
def without (tidy : TidyInterface) (actor : ActorAddress) : TidyInterface :=
  { tidy with actors_ := Function.update tidy.actors_ actor none }

theorem hasParent_without {child parent : ActorAddress} :
    HasParent (tidy.without actor) child parent ↔ child ≠ actor ∧ HasParent tidy child parent := by
  simp only [HasParent, without, Function.update_apply]
  split
  · next same => simp [same]
  · next differs => simp [differs]

theorem holds_without {children : List ActorAddress} :
    Holds (tidy.without actor) container children ↔ container ≠ actor ∧ Holds tidy container children := by
  simp only [Holds, without, Function.update_apply]
  split
  · next same => simp [same]
  · next differs => simp [differs]

theorem Flagged.without (flagged : tidy.Flagged) : (tidy.without actor).Flagged := by
  intro container owner children live listed
  simp only [TidyInterface.without, Function.update_apply] at live
  split at live
  · exact nomatch live
  · exact flagged container owner children live listed

/-- A child that leaves its parent by being destroyed. -/
theorem RemoveActor_child {owner : TidyActor} {children : List ActorAddress}
    (alive : tidy.actors_ container = some owner) (listed : owner.children_ = some children)
    (inside : actor ∈ children) :
    tidy.RemoveActor container actor =
      some (tidy.setChildren container owner (children.erase actor)) := by
  simp [RemoveActor, alive, listed, inside]

theorem RemoveActor_stranger {owner : TidyActor} {children : List ActorAddress}
    (alive : tidy.actors_ container = some owner) (listed : owner.children_ = some children)
    (outside : actor ∉ children) : tidy.RemoveActor container actor = some tidy := by
  simp [RemoveActor, alive, listed, outside]

/-- What is left after the destructor: nobody is a child of a different container, and the actor is
gone from the lists. -/
theorem destroy_spec {this : TidyActor} (linked : tidy.Linked) (live : tidy.actors_ actor = some this)
    (apart : this.parent_ ≠ some actor) :
    ∃ next, tidy.destroy actor = some next ∧ next.Flagged ∧
      (∀ child parent, HasParent next child parent ↔ child ≠ actor ∧ HasParent tidy child parent) ∧
      ∀ container children, Holds next container children ↔
        container ≠ actor ∧ ∃ old, Holds tidy container old ∧ children = old.erase actor := by
  cases parented : this.parent_ with
  | none =>
    refine ⟨tidy.without actor, ?_, linked.flag.without, fun child parent => hasParent_without, ?_⟩
    · simp only [destroy, live, Option.bind_eq_bind, Option.bind_some, parented, ne_eq, reduceCtorEq,
        not_false_eq_true, guard_true, Option.elim_none]
      rfl
    · intro container children
      rw [holds_without]
      refine and_congr_right fun _ => ⟨fun holds => ⟨children, holds, ?_⟩, ?_⟩
      · rw [List.erase_of_not_mem (linked.not_mem live parented holds)]
      · rintro ⟨old, holds, rfl⟩
        rwa [List.erase_of_not_mem (linked.not_mem live parented holds)]
  | some parent_ =>
    rw [parented] at apart
    obtain ⟨children, ⟨owner, alive, listed⟩, once⟩ := linked.parent actor parent_ ⟨this, live, parented⟩
    have inside : actor ∈ children := List.count_pos_iff.mp (by omega)
    have removed := RemoveActor_child alive listed inside
    refine ⟨(tidy.setChildren parent_ owner (children.erase actor)).without actor, ?_, ?_, ?_, ?_⟩
    · simp only [destroy, live, Option.bind_eq_bind, Option.bind_some, parented, apart, ne_eq,
        not_false_eq_true, guard_true, Option.elim_some, removed]
      rfl
    · apply Flagged.without
      apply linked.flag.set
      intro siblings same
      cases same
      simp
    · intro child parent
      rw [hasParent_without, setChildren, hasParent_set]
      split
      · next same => simp [same, HasParent, alive]
      · rfl
    · intro container siblings
      rw [holds_without, setChildren, holds_set]
      refine and_congr_right fun _ => ?_
      split
      · next same =>
        subst same
        simp [Holds, alive, listed, eq_comm]
      · next differs =>
        have stranger : ∀ old, Holds tidy container old → actor ∉ old := by
          intro old holds member
          obtain ⟨that, found, pointed⟩ := linked.child container old holds actor member
          cases live.symm.trans found
          exact differs (Option.some.inj (pointed.symm.trans parented))
        refine ⟨fun holds => ⟨siblings, holds, ?_⟩, ?_⟩
        · rw [List.erase_of_not_mem (stranger siblings holds)]
        · rintro ⟨old, holds, rfl⟩
          rwa [List.erase_of_not_mem (stranger old holds)]

theorem destroy_linked {this : TidyActor} (linked : tidy.Linked) (live : tidy.actors_ actor = some this)
    (apart : this.parent_ ≠ some actor)
    (childless : ∀ children, this.children_ = some children → children = []) :
    ∃ next, tidy.destroy actor = some next ∧ next.Linked := by
  obtain ⟨next, destroyed, flagged, pointers, lists⟩ := destroy_spec linked live apart
  refine ⟨next, destroyed, ?_, ?_, flagged⟩
  · intro child parent pointed
    obtain ⟨other, pointed⟩ := (pointers child parent).mp pointed
    obtain ⟨siblings, holds, once⟩ := linked.parent child parent pointed
    refine ⟨siblings.erase actor, (lists _ _).mpr ⟨?_, siblings, holds, rfl⟩, ?_⟩
    · rintro rfl
      obtain ⟨that, found, listed⟩ := holds
      cases live.symm.trans found
      rw [childless siblings listed] at once
      exact nomatch once
    · rwa [List.count_erase_of_ne other]
  · intro parent siblings listed child inside
    obtain ⟨-, old, holds, rfl⟩ := (lists parent siblings).mp listed
    have pointed := linked.child parent old holds child (List.mem_of_mem_erase inside)
    rw [pointers]
    refine ⟨?_, pointed⟩
    rintro rfl
    obtain ⟨children, held, once⟩ := linked.parent child parent pointed
    obtain rfl := Linked.holds_unique held holds
    have left := List.count_pos_iff.mpr inside
    rw [List.count_erase_self] at left
    omega

/-- The calls that keep both sides: an actor is added while it has no parent, it is not removed from
its parent, and a container is destroyed when it has no children. -/
def Orderly (tidy : TidyInterface) : Call → Prop
  | .AddActor container actor => ∀ children, Holds tidy container children →
    ∀ this, tidy.actors_ actor = some this → this.parent_ = none
  | .RemoveActor container actor => ∀ this, tidy.actors_ actor = some this → this.parent_ ≠ some container
  | .destroy actor => ∀ this, tidy.actors_ actor = some this → this.parent_ ≠ some actor →
    ∀ children, this.children_ = some children → children = []
  | _ => True

theorem step_linked (call : Call) (linked : tidy.Linked) (orderly : Orderly tidy call)
    (stepped : tidy.step call = some next) : next.Linked := by
  cases call with
  | create address group =>
    simp only [step, create] at stepped
    split at stepped
    · next free =>
      cases stepped
      exact create_linked linked free
    · exact nomatch stepped
  | AddActor container actor =>
    obtain ⟨this, -, -, live, -⟩ := AddActor_eq_some.mp stepped
    obtain ⟨children, held, -⟩ := holds_added stepped
    exact AddActor_linked linked live (orderly children held this live) stepped
  | RemoveActor container actor =>
    simp only [step, RemoveActor, Option.bind_eq_bind, Option.bind_eq_some_iff] at stepped
    obtain ⟨owner, alive, children, listed, returned⟩ := stepped
    split at returned
    · next inside =>
      obtain ⟨this, live, pointed⟩ := linked.child container children ⟨owner, alive, listed⟩ actor inside
      exact absurd pointed (orderly this live)
    · cases returned
      exact linked
  | Raise actor other => exact restack_linked linked (fun _ => RaiseChild_perm _ _ _) stepped
  | Lower actor other => exact restack_linked linked (fun _ => LowerChild_perm _ _ _) stepped
  | RaiseToTop actor => exact restack_linked linked (fun _ => RaiseChild_perm _ _ _) stepped
  | LowerToBottom actor => exact restack_linked linked (fun _ => LowerChild_perm _ _ _) stepped
  | destroy actor =>
    cases live : tidy.actors_ actor with
    | none =>
      simp only [step, destroy, live, Option.bind_eq_bind, Option.bind_none] at stepped
      exact nomatch stepped
    | some this =>
      by_cases apart : this.parent_ = some actor
      · simp only [step, destroy, live, Option.bind_eq_bind, Option.bind_some, apart, ne_eq,
          not_true_eq_false, guard_false] at stepped
        exact nomatch stepped
      · obtain ⟨reached, destroyed, kept⟩ := destroy_linked linked live apart (orderly this live apart)
        obtain rfl := Option.some.inj (destroyed.symm.trans stepped)
        exact kept

theorem AddActor_unlinked {this : TidyActor} {parent : ActorAddress} {children : List ActorAddress}
    (linked : tidy.Linked) (held : Holds tidy container children)
    (live : tidy.actors_ actor = some this) (pointed : this.parent_ = some parent) :
    ∃ next, tidy.AddActor container actor = some next ∧ ¬ next.Linked := by
  obtain ⟨owner, alive, enumerated⟩ := (holds_repointed live (some container)).mpr held
  obtain ⟨next, added⟩ : ∃ next, tidy.AddActor container actor = some next :=
    ⟨_, AddActor_eq_some.mpr ⟨this, owner, children, live, alive, enumerated, rfl⟩⟩
  refine ⟨next, added, fun kept => ?_⟩
  obtain ⟨others, same, holds⟩ := holds_added added
  obtain rfl := Linked.holds_unique same held
  obtain ⟨siblings, old, once⟩ := linked.parent actor parent ⟨this, live, pointed⟩
  have listed : actor ∈ siblings := List.count_pos_iff.mp (by omega)
  by_cases same : parent = container
  · subst same
    obtain rfl := Linked.holds_unique old held
    obtain ⟨twice, both, single⟩ := kept.parent actor parent
      ((hasParent_added added).mpr (by rw [if_pos rfl]))
    rw [holds, if_pos rfl] at both
    subst both
    rw [List.count_cons_self] at single
    omega
  · have stale := kept.child parent siblings ((holds _ _).mpr (by rwa [if_neg same])) actor listed
    rw [hasParent_added added, if_pos rfl] at stale
    exact same stale.symm

theorem RemoveActor_unlinked {this : TidyActor} (linked : tidy.Linked)
    (live : tidy.actors_ actor = some this) (pointed : this.parent_ = some container) :
    ∃ next, tidy.RemoveActor container actor = some next ∧ ¬ next.Linked := by
  obtain ⟨children, ⟨owner, alive, listed⟩, once⟩ := linked.parent actor container ⟨this, live, pointed⟩
  have inside : actor ∈ children := List.count_pos_iff.mp (by omega)
  refine ⟨_, RemoveActor_child alive listed inside, fun kept => ?_⟩
  obtain ⟨siblings, holds, single⟩ := kept.parent actor container (by
    rw [setChildren, hasParent_set]
    split
    · next same =>
      subst same
      cases live.symm.trans alive
      exact pointed
    · exact ⟨this, live, pointed⟩)
  rw [setChildren, holds_set, if_pos rfl] at holds
  cases holds
  rw [List.count_erase_self] at single
  omega

theorem destroy_unlinked {this : TidyActor} {child : ActorAddress} {children : List ActorAddress}
    (linked : tidy.Linked) (live : tidy.actors_ actor = some this) (apart : this.parent_ ≠ some actor)
    (listed : this.children_ = some (child :: children)) :
    ∃ next, tidy.destroy actor = some next ∧ ¬ next.Linked := by
  obtain ⟨next, destroyed, -, pointers, lists⟩ := destroy_spec linked live apart
  refine ⟨next, destroyed, fun kept => ?_⟩
  have pointed := linked.child actor _ ⟨this, live, listed⟩ child List.mem_cons_self
  have other : child ≠ actor := by
    rintro rfl
    obtain ⟨that, found, parent⟩ := pointed
    cases live.symm.trans found
    exact apart parent
  obtain ⟨siblings, holds, -⟩ := kept.parent child actor ((pointers child actor).mpr ⟨other, pointed⟩)
  exact ((lists actor siblings).mp holds).1 rfl

theorem step_unlinked (call : Call) (linked : tidy.Linked) (disorderly : ¬ Orderly tidy call) :
    ∃ next, tidy.step call = some next ∧ ¬ next.Linked := by
  cases call with
  | AddActor container actor =>
    simp only [Orderly, not_forall] at disorderly
    obtain ⟨children, held, this, live, parented⟩ := disorderly
    obtain ⟨parent, pointed⟩ := Option.ne_none_iff_exists'.mp parented
    exact AddActor_unlinked linked held live pointed
  | RemoveActor container actor =>
    simp only [Orderly, not_forall, not_not] at disorderly
    obtain ⟨this, live, pointed⟩ := disorderly
    exact RemoveActor_unlinked linked live pointed
  | destroy actor =>
    simp only [Orderly, not_forall] at disorderly
    obtain ⟨this, live, apart, children, listed, nonempty⟩ := disorderly
    obtain ⟨child, rest, rfl⟩ := List.exists_cons_of_ne_nil nonempty
    exact destroy_unlinked linked live apart listed
  | create address group => exact absurd trivial disorderly
  | Raise actor other => exact absurd trivial disorderly
  | Lower actor other => exact absurd trivial disorderly
  | RaiseToTop actor => exact absurd trivial disorderly
  | LowerToBottom actor => exact absurd trivial disorderly

/-- Parents and children point to each other all along exactly when every call is orderly. -/
theorem linked_iff (calls : List Call) :
    Always step Linked {} calls ↔ Throughout step Orderly {} calls :=
  always_iff_throughout Linked (fun _ linked => linked)
    (fun _ call _ linked orderly stepped => step_linked call linked orderly stepped)
    (fun _ call linked disorderly => step_unlinked call linked disorderly) initial_linked calls

/-- An actor removed from its container still points to it. -/
theorem removed_actor_keeps_parent :
    ¬ Always step Linked {} [.create 1 true, .create 2 false, .AddActor 1 2, .RemoveActor 1 2] := by
  intro always
  have stale : (run step {} [.create 1 true, .create 2 false, .AddActor 1 2, .RemoveActor 1 2]).any
      (fun tidy => decide (tidy.actors_ 2 = some { parent_ := some 1 }) &&
        decide (tidy.actors_ 1 = some { children_ := some [] })) = true := by decide
  obtain ⟨last, reached, left⟩ := (Option.any_eq_true _ _).mp stale
  rw [Bool.and_eq_true, decide_eq_true_iff, decide_eq_true_iff] at left
  obtain ⟨children, ⟨this, live, listed⟩, once⟩ :=
    (always _ List.prefix_rfl last reached).parent 2 1 ⟨_, left.1, rfl⟩
  cases left.2.symm.trans live
  cases listed
  exact nomatch once

end TidyInterface

end ChromiumOS.WindowManager
