import Mathlib

/-! # Scans that keep one element of a partial order

A scan of a list that keeps one element can go up, to each element that is not below the one kept, or settle, at
each element that the one kept is not below. Going up ends at a maximal element, but depends on the order of the
list; settling ends at the first element that nothing after it fails to exceed, which may not even be minimal. On a
chain the two find the greatest and the least element.
-/

namespace ChromiumOS.GreedyScan

variable {α : Type*} [PartialOrder α] [DecidableLE α]

/-- The elements that are kept one after the other going up. -/
def climb (best : α) : List α → List α
  | [] => [best]
  | current :: rest => if best ≤ current then best :: climb current rest else climb best rest

/-- The element that is kept at the end. -/
def summit (best : α) (list : List α) : α :=
  list.foldl (fun best current => if best ≤ current then current else best) best

def settle (best : α) (list : List α) : α :=
  list.foldl (fun best current => if best ≤ current then best else current) best

theorem summit_cons (best current : α) (rest : List α) :
    summit best (current :: rest) = summit (if best ≤ current then current else best) rest := rfl

theorem settle_cons (best current : α) (rest : List α) :
    settle best (current :: rest) = settle (if best ≤ current then best else current) rest := rfl

variable {best : α} {list : List α}

theorem mem_climb_self (best : α) (list : List α) : best ∈ climb best list := by
  induction list generalizing best with
  | nil => exact List.mem_singleton.mpr rfl
  | cons current rest ih =>
    rw [climb]
    split
    · exact List.mem_cons_self
    · exact ih best

theorem le_of_mem_climb {kept : α} (member : kept ∈ climb best list) : best ≤ kept := by
  induction list generalizing best with
  | nil => exact (List.mem_singleton.mp member).ge
  | cons current rest ih =>
    rw [climb] at member
    split at member
    · next up =>
      rcases List.mem_cons.mp member with rfl | later
      · exact le_rfl
      · exact up.trans (ih later)
    · exact ih member

theorem mem_of_mem_climb {kept : α} (member : kept ∈ climb best list) : kept ∈ best :: list := by
  induction list generalizing best with
  | nil => exact member
  | cons current rest ih =>
    rw [climb] at member
    split at member
    · rcases List.mem_cons.mp member with rfl | later
      · exact List.mem_cons_self
      · exact List.mem_cons_of_mem _ (ih later)
    · rcases List.mem_cons.mp (ih member) with rfl | later
      · exact List.mem_cons_self
      · exact List.mem_cons_of_mem _ (List.mem_cons_of_mem _ later)

/-- What is kept going up is a chain. -/
theorem climb_pairwise (best : α) (list : List α) : (climb best list).Pairwise (· ≤ ·) := by
  induction list generalizing best with
  | nil => exact List.pairwise_singleton _ _
  | cons current rest ih =>
    rw [climb]
    split
    · next up => exact List.pairwise_cons.mpr ⟨fun _ member => up.trans (le_of_mem_climb member), ih current⟩
    · exact ih best

theorem summit_mem_climb (best : α) (list : List α) : summit best list ∈ climb best list := by
  induction list generalizing best with
  | nil => exact List.mem_singleton.mpr rfl
  | cons current rest ih =>
    rw [climb, summit_cons]
    split
    · exact List.mem_cons_of_mem _ (ih current)
    · exact ih best

/-- Nothing exceeds the summit. -/
theorem summit_maximal {other : α} (member : other ∈ best :: list) (above : summit best list ≤ other) :
    other = summit best list := by
  induction list generalizing best with
  | nil => exact List.mem_singleton.mp member
  | cons current rest ih =>
    rw [summit_cons] at above ⊢
    have least := le_of_mem_climb (summit_mem_climb (if best ≤ current then current else best) rest)
    by_cases up : best ≤ current
    · rw [if_pos up] at above least ⊢
      rcases List.mem_cons.mp member with rfl | later
      · exact le_antisymm (up.trans least) above
      · exact ih later above
    · rw [if_neg up] at above least ⊢
      rcases List.mem_cons.mp member with rfl | later
      · exact ih List.mem_cons_self above
      · rcases List.mem_cons.mp later with rfl | later
        · exact absurd (least.trans above) up
        · exact ih (List.mem_cons_of_mem _ later) above

theorem summit_mem (best : α) (list : List α) : summit best list ∈ best :: list :=
  mem_of_mem_climb (summit_mem_climb best list)

/-- The first element of a list that all later ones are at least as large as. -/
def FirstLasting (list before : List α) (lasting : α) : Prop :=
  ∃ after, list = before ++ lasting :: after ∧ (∀ later ∈ after, lasting ≤ later) ∧
    ∀ first middle last, before = first ++ middle :: last → ∃ later ∈ last ++ lasting :: after, ¬ middle ≤ later

namespace FirstLasting

variable {before : List α} {lasting head current : α}

omit [DecidableLE α] in
theorem singleton (head : α) : FirstLasting [head] [] head :=
  ⟨[], rfl, (fun _ member => nomatch member), fun first middle last split => absurd split (by simp)⟩

omit [DecidableLE α] in
/-- An element that something after it fails to exceed does not last. -/
theorem cons (lasts : FirstLasting list before lasting) {later : α} (member : later ∈ list)
    (exceeds : ¬ head ≤ later) : FirstLasting (head :: list) (head :: before) lasting := by
  obtain ⟨after, split, least, others⟩ := lasts
  refine ⟨after, by rw [split]; rfl, least, fun first middle last divided => ?_⟩
  cases first with
  | nil =>
    obtain ⟨rfl, rfl⟩ := List.cons.inj divided
    exact ⟨later, split ▸ member, exceeds⟩
  | cons other first =>
    obtain ⟨-, divided⟩ := List.cons.inj divided
    exact others first middle last divided

omit [DecidableLE α] in
/-- A larger element can be put behind the first one. -/
theorem insert (lasts : FirstLasting (head :: list) before lasting) (below : head ≤ current) :
    ∃ before, FirstLasting (head :: current :: list) before lasting := by
  obtain ⟨after, split, least, others⟩ := lasts
  cases before with
  | nil =>
    obtain ⟨rfl, rfl⟩ := List.cons.inj split
    refine ⟨[], current :: list, rfl, fun later member => ?_, fun first middle last split => absurd split (by simp)⟩
    rcases List.mem_cons.mp member with rfl | member
    · exact below
    · exact least later member
  | cons first before =>
    obtain ⟨rfl, rfl⟩ := List.cons.inj split
    obtain ⟨later, member, exceeds⟩ := others [] head before rfl
    refine ⟨head :: current :: before, after, rfl, least, fun first middle last divided => ?_⟩
    rcases List.cons_eq_append_iff.mp divided with ⟨-, start⟩ | ⟨second, -, parted⟩
    · obtain ⟨rfl, rfl⟩ := List.cons.inj start
      exact ⟨later, List.mem_cons_of_mem _ member, exceeds⟩
    rcases List.cons_eq_append_iff.mp parted with ⟨-, start⟩ | ⟨third, -, parted⟩
    · obtain ⟨rfl, rfl⟩ := List.cons.inj start
      exact ⟨later, member, fun above => exceeds (below.trans above)⟩
    · exact others (head :: third) middle last (by rw [parted]; rfl)

end FirstLasting

/-- Settling ends there. -/
theorem settle_spec (best : α) (list : List α) : ∃ before, FirstLasting (best :: list) before (settle best list) := by
  induction list generalizing best with
  | nil => exact ⟨[], .singleton best⟩
  | cons current rest ih =>
    rw [settle_cons]
    split
    · next below =>
      obtain ⟨before, lasts⟩ := ih best
      exact lasts.insert below
    · next exceeds =>
      obtain ⟨before, lasts⟩ := ih current
      exact ⟨best :: before, lasts.cons List.mem_cons_self exceeds⟩

theorem settle_mem (best : α) (list : List α) : settle best list ∈ best :: list := by
  obtain ⟨before, after, split, -⟩ := settle_spec best list
  exact split ▸ List.mem_append_right _ List.mem_cons_self

omit [DecidableLE α] in
/-- There is one such element. -/
theorem FirstLasting.unique {before other : List α} {lasting kept : α} (first : FirstLasting list before lasting)
    (second : FirstLasting list other kept) : before = other ∧ lasting = kept := by
  obtain ⟨after, split, least, others⟩ := first
  obtain ⟨rest, divided, lowest, remaining⟩ := second
  rcases List.append_eq_append_iff.mp (split.symm.trans divided) with ⟨middle, rfl, same⟩ | ⟨middle, rfl, same⟩
  · cases middle with
    | nil => exact ⟨(List.append_nil _).symm, (List.cons.inj same).1⟩
    | cons head middle =>
      obtain ⟨rfl, rfl⟩ := List.cons.inj same
      obtain ⟨later, member, exceeds⟩ := remaining before lasting middle rfl
      exact absurd (least later member) exceeds
  · cases middle with
    | nil => exact ⟨List.append_nil _, (List.cons.inj same).1.symm⟩
    | cons head middle =>
      obtain ⟨rfl, rfl⟩ := List.cons.inj same
      obtain ⟨later, member, exceeds⟩ := others other kept middle rfl
      exact absurd (lowest later member) exceeds

/-- On a chain settling finds the least element. -/
theorem settle_le_of_chain (chain : ∀ first ∈ best :: list, ∀ second ∈ best :: list, first ≤ second ∨ second ≤ first)
    {other : α} (member : other ∈ best :: list) : settle best list ≤ other := by
  induction list generalizing best other with
  | nil => exact (List.mem_singleton.mp member).ge
  | cons current rest ih =>
    rw [settle_cons]
    have order := chain best List.mem_cons_self current (List.mem_cons_of_mem _ List.mem_cons_self)
    have kept (head : α) (listed : head ∈ best :: current :: rest) :
        ∀ first ∈ head :: rest, ∀ second ∈ head :: rest, first ≤ second ∨ second ≤ first := by
      have inside : ∀ first ∈ head :: rest, first ∈ best :: current :: rest := by
        intro first from_head
        rcases List.mem_cons.mp from_head with rfl | later
        · exact listed
        · exact List.mem_cons_of_mem _ (List.mem_cons_of_mem _ later)
      exact fun first one second two => chain first (inside first one) second (inside second two)
    by_cases below : best ≤ current
    · rw [if_pos below]
      have lower : ∀ third ∈ best :: rest, settle best rest ≤ third := fun _ => ih (kept best List.mem_cons_self)
      rcases List.mem_cons.mp member with rfl | member
      · exact lower _ List.mem_cons_self
      · rcases List.mem_cons.mp member with rfl | member
        · exact (lower _ List.mem_cons_self).trans below
        · exact lower _ (List.mem_cons_of_mem _ member)
    · rw [if_neg below]
      have lower : ∀ third ∈ current :: rest, settle current rest ≤ third :=
        fun _ => ih (kept current (List.mem_cons_of_mem _ List.mem_cons_self))
      rcases List.mem_cons.mp member with rfl | member
      · exact (lower _ List.mem_cons_self).trans (order.resolve_left below)
      · exact lower _ member

/-- On a chain going up finds the greatest element. -/
theorem le_summit_of_chain (chain : ∀ first ∈ best :: list, ∀ second ∈ best :: list, first ≤ second ∨ second ≤ first)
    {other : α} (member : other ∈ best :: list) : other ≤ summit best list := by
  rcases chain other member (summit best list) (summit_mem best list) with below | above
  · exact below
  · exact (summit_maximal member above).le

end ChromiumOS.GreedyScan
