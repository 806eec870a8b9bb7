import ChromiumOS.ToMathlib.ListOrder

/-! # The stacker

`Stacker` in `util.h`: items from top to bottom, with an index that finds the place of each. There is
one place for an item, so the index is given by the list, which has no duplicates.
-/

namespace ChromiumOS.WindowManager

structure Stacker (T : Type) where
  items : List T
  nodup : items.Nodup
  deriving DecidableEq

namespace Stacker

variable {T : Type} [DecidableEq T]

def empty : Stacker T := ⟨[], List.nodup_nil⟩

def Contains (stacker : Stacker T) (item : T) : Bool := item ∈ stacker.items

/-- The item under another one. -/
def GetUnder (stacker : Stacker T) (item : T) : Option T := ListOrder.next item stacker.items

omit [DecidableEq T] in
theorem nodup_cons {stacker : Stacker T} {item : T} (absent : item ∉ stacker.items) :
    (item :: stacker.items).Nodup :=
  List.nodup_cons.mpr ⟨absent, stacker.nodup⟩

def AddOnTop (stacker : Stacker T) (item : T) : Stacker T :=
  if present : item ∈ stacker.items then stacker else ⟨item :: stacker.items, nodup_cons present⟩

omit [DecidableEq T] in
theorem nodup_append {stacker : Stacker T} {item : T} (absent : item ∉ stacker.items) :
    (stacker.items ++ [item]).Nodup :=
  (List.perm_append_singleton item stacker.items).nodup_iff.mpr (nodup_cons absent)

def AddOnBottom (stacker : Stacker T) (item : T) : Stacker T :=
  if present : item ∈ stacker.items then stacker else ⟨stacker.items ++ [item], nodup_append present⟩

theorem nodup_insertBefore {stacker : Stacker T} {item other : T} (absent : item ∉ stacker.items)
    (present : other ∈ stacker.items) : (ListOrder.insertBefore item other stacker.items).Nodup :=
  (ListOrder.insertBefore_perm item present).nodup_iff.mpr (nodup_cons absent)

def AddAbove (stacker : Stacker T) (item other_item : T) : Stacker T :=
  if member : item ∈ stacker.items then stacker
  else if present : other_item ∈ stacker.items then
    ⟨ListOrder.insertBefore item other_item stacker.items, nodup_insertBefore member present⟩
  else stacker

theorem nodup_insertAfter {stacker : Stacker T} {item other : T} (absent : item ∉ stacker.items)
    (present : other ∈ stacker.items) : (ListOrder.insertAfter item other stacker.items).Nodup :=
  (ListOrder.insertAfter_perm item present).nodup_iff.mpr (nodup_cons absent)

def AddBelow (stacker : Stacker T) (item other_item : T) : Stacker T :=
  if member : item ∈ stacker.items then stacker
  else if present : other_item ∈ stacker.items then
    ⟨ListOrder.insertAfter item other_item stacker.items, nodup_insertAfter member present⟩
  else stacker

def Remove (stacker : Stacker T) (item : T) : Stacker T :=
  ⟨stacker.items.erase item, stacker.nodup.erase item⟩

variable {stacker : Stacker T} {item other : T}

theorem items_AddOnTop (absent : item ∉ stacker.items) :
    (stacker.AddOnTop item).items = item :: stacker.items := by
  rw [AddOnTop, dif_neg absent]

theorem items_AddOnBottom (absent : item ∉ stacker.items) :
    (stacker.AddOnBottom item).items = stacker.items ++ [item] := by
  rw [AddOnBottom, dif_neg absent]

theorem items_AddAbove (absent : item ∉ stacker.items) (present : other ∈ stacker.items) :
    (stacker.AddAbove item other).items = ListOrder.insertBefore item other stacker.items := by
  rw [AddAbove, dif_neg absent, dif_pos present]

theorem items_AddBelow (absent : item ∉ stacker.items) (present : other ∈ stacker.items) :
    (stacker.AddBelow item other).items = ListOrder.insertAfter item other stacker.items := by
  rw [AddBelow, dif_neg absent, dif_pos present]

@[simp] theorem items_Remove : (stacker.Remove item).items = stacker.items.erase item := rfl

theorem mem_Remove {member : T} :
    member ∈ (stacker.Remove item).items ↔ member ≠ item ∧ member ∈ stacker.items :=
  stacker.nodup.mem_erase_iff

theorem mem_AddOnTop {member : T} :
    member ∈ (stacker.AddOnTop item).items ↔ member = item ∨ member ∈ stacker.items := by
  by_cases present : item ∈ stacker.items
  · rw [AddOnTop, dif_pos present]
    exact ⟨Or.inr, fun either => either.elim (fun same => same ▸ present) id⟩
  · rw [items_AddOnTop present, List.mem_cons]

end Stacker

end ChromiumOS.WindowManager
