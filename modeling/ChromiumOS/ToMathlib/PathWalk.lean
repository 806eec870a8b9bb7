import Mathlib

/-! # Directory trees and the walk along a path

A finite tree of directories, files and symbolic links, with a location the list of names from the root. A
walk goes through the components of a path and follows links up to a number of times. Removing entries makes a
walk end where it ended before, or find something missing.
-/

namespace ChromiumOS.PathWalk

abbrev Name := List Char

abbrev Location := List Name

inductive Node where
  | directory
  | file
  | symlink (target : List Char)
deriving DecidableEq

/-- A name that an entry can have. -/
def IsName (name : Name) : Prop := name ≠ [] ∧ name ≠ ['.'] ∧ name ≠ ['.', '.'] ∧ '/' ∉ name

instance (name : Name) : Decidable (IsName name) :=
  inferInstanceAs (Decidable (name ≠ [] ∧ name ≠ ['.'] ∧ name ≠ ['.', '.'] ∧ '/' ∉ name))

/-- The entries below the root, each in a directory. -/
structure Tree where
  entries : List (Location × Node)
  distinct : (entries.map Prod.fst).Nodup
  rooted : ∀ entry ∈ entries, ∃ parent name, entry.1 = parent ++ [name] ∧ IsName name ∧
    (parent = [] ∨ (parent, Node.directory) ∈ entries)

namespace Tree

variable (tree : Tree)

def lookup (location : Location) : Option Node :=
  if location = [] then some .directory
  else (tree.entries.find? fun entry => entry.1 = location).map Prod.snd

/-- The names of the entries in a directory. -/
def names (location : Location) : List Name :=
  tree.entries.filterMap fun entry => if entry.1.dropLast = location then entry.1.getLast? else none

variable {tree}

theorem ne_nil_of_mem {entry : Location × Node} (member : entry ∈ tree.entries) : entry.1 ≠ [] := by
  obtain ⟨parent, name, same, -⟩ := tree.rooted entry member
  rw [same]
  simp

theorem lookup_eq_some {location : Location} (below : location ≠ []) {node : Node} :
    tree.lookup location = some node ↔ (location, node) ∈ tree.entries := by
  rw [lookup, if_neg below, Option.map_eq_some_iff]
  constructor
  · rintro ⟨entry, found, rfl⟩
    have same := List.find?_some found
    rw [decide_eq_true_eq] at same
    rw [← same]
    exact List.mem_of_find?_eq_some found
  · intro member
    cases found : tree.entries.find? fun entry => entry.1 = location with
    | none => simpa using List.find?_eq_none.mp found _ member
    | some entry =>
      have same := List.find?_some found
      rw [decide_eq_true_eq] at same
      have unique := List.inj_on_of_nodup_map tree.distinct (List.mem_of_find?_eq_some found) member same
      exact ⟨entry, rfl, congrArg Prod.snd unique⟩

theorem mem_names {location : Location} {name : Name} :
    name ∈ tree.names location ↔ ∃ node, (location ++ [name], node) ∈ tree.entries := by
  rw [names, List.mem_filterMap]
  constructor
  · rintro ⟨⟨other, node⟩, member, listed⟩
    split at listed
    · next same =>
      refine ⟨node, ?_⟩
      rw [← same, List.dropLast_append_getLast? name listed]
      exact member
    · cases listed
  · rintro ⟨node, member⟩
    exact ⟨_, member, by simp⟩

/-- The directory of an entry is there. -/
theorem lookup_parent {location : Location} {name : Name} (found : tree.lookup (location ++ [name]) ≠ none) :
    tree.lookup location = some .directory := by
  obtain ⟨node, found⟩ := Option.ne_none_iff_exists'.mp found
  rw [lookup_eq_some (by simp)] at found
  obtain ⟨parent, last, same, -, root | member⟩ := tree.rooted _ found
  · rw [(List.append_inj' same rfl).1, root]
    rfl
  · rw [(List.append_inj' same rfl).1]
    exact (lookup_eq_some (ne_nil_of_mem member)).mpr member

theorem isName_of_mem_names {location : Location} {name : Name} (member : name ∈ tree.names location) :
    IsName name := by
  obtain ⟨node, member⟩ := mem_names.mp member
  obtain ⟨parent, last, same, isName, -⟩ := tree.rooted _ member
  rwa [List.singleton_inj.mp (List.append_inj' same rfl).2]

/-- Every location above an entry is a directory. -/
theorem lookup_of_isPrefix {location : Location} {node : Node} (member : (location, node) ∈ tree.entries)
    {above : Location} (before : above <+: location) (strict : above ≠ location) :
    tree.lookup above = some .directory := by
  induction location using List.reverseRecOn generalizing node with
  | nil => exact absurd rfl (ne_nil_of_mem member)
  | append_singleton location name ih =>
    have found : tree.lookup (location ++ [name]) ≠ none := by
      rw [(lookup_eq_some (by simp)).mpr member]
      exact nofun
    rcases List.prefix_concat_iff.mp before with same | before
    · exact absurd same strict
    · by_cases same : above = location
      · exact same ▸ lookup_parent found
      · have directory := lookup_parent found
        rcases eq_or_ne location [] with rfl | below
        · exact absurd (List.prefix_nil.mp before) same
        · exact ih ((lookup_eq_some below).mp directory) before same

end Tree

section Within

/-- What is left of a tree after some entries have been removed. -/
def Within (after tree : Tree) : Prop := after.entries.Sublist tree.entries

theorem Within.refl (tree : Tree) : Within tree tree := List.Sublist.refl _

theorem Within.trans {last after tree : Tree} (later : Within last after) (within : Within after tree) :
    Within last tree := List.Sublist.trans later within

variable {after tree : Tree} (within : Within after tree)

include within

theorem Within.lookup_eq (location : Location) :
    after.lookup location = tree.lookup location ∨ after.lookup location = none := by
  rcases eq_or_ne location [] with rfl | below
  · exact .inl rfl
  · cases found : after.lookup location with
    | none => exact .inr rfl
    | some node =>
      rw [Tree.lookup_eq_some below] at found
      exact .inl ((Tree.lookup_eq_some below).mpr (within.subset found)).symm

end Within

namespace Tree

/-- The tree without an entry that nothing is below of. -/
def remove (tree : Tree) (location : Location) : Tree :=
  if childless : tree.names location = [] then
    { entries := tree.entries.filter fun entry => entry.1 ≠ location
      distinct := tree.distinct.sublist ((List.filter_sublist).map _)
      rooted := by
        intro entry member
        have there := (List.mem_filter.mp member).1
        obtain ⟨parent, name, same, isName, above⟩ := tree.rooted entry there
        refine ⟨parent, name, same, isName, above.imp_right fun listed => List.mem_filter.mpr ⟨listed, ?_⟩⟩
        rw [decide_eq_true_eq]
        intro removed
        have child : name ∈ tree.names parent := mem_names.mpr ⟨entry.2, by rwa [← same]⟩
        rw [show parent = location from removed, childless] at child
        cases child }
  else tree

variable {tree : Tree}

theorem remove_within (location : Location) : Within (tree.remove location) tree := by
  rw [remove]
  split
  · exact List.filter_sublist
  · exact .refl tree

theorem mem_remove {location : Location} (childless : tree.names location = []) {entry : Location × Node} :
    entry ∈ (tree.remove location).entries ↔ entry ∈ tree.entries ∧ entry.1 ≠ location := by
  rw [remove, dif_pos childless, List.mem_filter, decide_eq_true_eq]

/-- Nothing is below a location that no entry is in. -/
theorem eq_of_isPrefix {location : Location} (childless : tree.names location = []) {entry : Location × Node}
    (member : entry ∈ tree.entries) (below : location <+: entry.1) : entry.1 = location := by
  obtain ⟨rest, same⟩ := below
  cases rest with
  | nil => rw [← same, List.append_nil]
  | cons name rest =>
    have child : tree.lookup (location ++ [name]) ≠ none := by
      rcases eq_or_ne rest [] with rfl | more
      · rw [(lookup_eq_some (by simp)).mpr (show (location ++ [name], entry.2) ∈ tree.entries from same ▸ member)]
        exact nofun
      · have strict : location ++ [name] ≠ entry.1 := by
          rw [← same]
          simpa using more.symm
        rw [lookup_of_isPrefix member ⟨rest, by simp [same]⟩ strict]
        exact nofun
    obtain ⟨node, found⟩ := Option.ne_none_iff_exists'.mp child
    have listed := mem_names.mpr ⟨node, (lookup_eq_some (by simp)).mp found⟩
    rw [childless] at listed
    cases listed

/-- Nothing is at or below a location that an entry was removed from. -/
theorem not_isPrefix_of_mem_remove {location : Location} (childless : tree.names location = [])
    {entry : Location × Node} (left : entry ∈ (tree.remove location).entries) : ¬ location <+: entry.1 := by
  obtain ⟨member, other⟩ := (mem_remove childless).mp left
  exact fun below => other (eq_of_isPrefix childless member below)

theorem lookup_remove {location : Location} (below : location ≠ []) (childless : tree.names location = []) :
    (tree.remove location).lookup location = none := by
  by_contra found
  obtain ⟨node, found⟩ := Option.ne_none_iff_exists'.mp found
  exact not_isPrefix_of_mem_remove childless ((lookup_eq_some below).mp found) List.prefix_rfl

/-- Nothing is below something other than a directory. -/
theorem names_eq_nil {location : Location} (noDirectory : tree.lookup location ≠ some .directory) :
    tree.names location = [] := by
  rw [List.eq_nil_iff_forall_not_mem]
  intro name member
  obtain ⟨node, inside⟩ := mem_names.mp member
  apply noDirectory
  refine lookup_parent (?_ : tree.lookup (location ++ [name]) ≠ none)
  rw [(lookup_eq_some (by simp)).mpr inside]
  exact nofun

end Tree

/-- What stops a walk. -/
inductive WalkError where
  | missing
  | notDirectory
  | tooManyLinks
deriving DecidableEq

section Walk

variable (tree : Tree)

/-- A walk from a location along the components of a path; `next` goes on with the target of a link. A link
at the end is followed or not. -/
def walk (follow : Bool) (next : Location → List Name → Except WalkError Location) :
    Location → List Name → Except WalkError Location
  | current, [] => .ok current
  | current, component :: rest =>
    if component = [] ∨ component = ['.'] then walk follow next current rest
    else if component = ['.', '.'] then walk follow next current.dropLast rest
    else match tree.lookup (current ++ [component]) with
      | none => .error .missing
      | some .directory => walk follow next (current ++ [component]) rest
      | some .file => if rest = [] then .ok (current ++ [component]) else .error .notDirectory
      | some (.symlink target) =>
        if rest = [] ∧ follow = false then .ok (current ++ [component])
        else next (if target.head? = some '/' then [] else current) (target.splitOn '/' ++ rest)

/-- The walk that follows at most a number of links. -/
def resolve (follow : Bool) : ℕ → Location → List Name → Except WalkError Location
  | 0 => walk tree follow fun _ _ => .error .tooManyLinks
  | links + 1 => walk tree follow (resolve follow links)

variable {tree}

section Within

variable {after : Tree} (within : Within after tree)

include within

theorem walk_within {follow : Bool} {nextAfter next : Location → List Name → Except WalkError Location}
    (nexts : ∀ current rest, nextAfter current rest = next current rest ∨ nextAfter current rest = .error .missing)
    (current : Location) (components : List Name) :
    walk after follow nextAfter current components = walk tree follow next current components ∨
      walk after follow nextAfter current components = .error .missing := by
  induction components generalizing current with
  | nil => exact .inl rfl
  | cons component rest ih =>
    rw [walk, walk]
    by_cases here : component = [] ∨ component = ['.']
    · rw [if_pos here, if_pos here]
      exact ih current
    rw [if_neg here, if_neg here]
    by_cases up : component = ['.', '.']
    · rw [if_pos up, if_pos up]
      exact ih current.dropLast
    rw [if_neg up, if_neg up]
    rcases within.lookup_eq (current ++ [component]) with same | gone
    · rw [same]
      cases tree.lookup (current ++ [component]) with
      | none => exact .inl rfl
      | some node =>
        cases node with
        | directory => exact ih _
        | file => exact .inl rfl
        | symlink target =>
          dsimp only
          split
          · exact .inl rfl
          · exact nexts _ _
    · rw [gone]
      exact .inr rfl

/-- A walk in what is left of a tree ends where it ended before, or finds something missing. -/
theorem resolve_within (follow : Bool) (links : ℕ) (current : Location) (components : List Name) :
    resolve after follow links current components = resolve tree follow links current components ∨
      resolve after follow links current components = .error .missing := by
  induction links generalizing current components with
  | zero => exact walk_within within (fun _ _ => .inl rfl) current components
  | succ links ih => exact walk_within within ih current components

end Within

/-- No location on the way to one is something other than a directory. -/
def Descends (tree : Tree) (current : Location) : Prop :=
  ∀ above, above <+: current → tree.lookup above = none ∨ tree.lookup above = some .directory

theorem descends_root : Descends tree [] := by
  intro above before
  rw [List.prefix_nil.mp before]
  exact .inr rfl

theorem Descends.dropLast {current : Location} (descends : Descends tree current) :
    Descends tree current.dropLast :=
  fun above before => descends above (before.trans (List.dropLast_prefix _))

theorem Descends.child {current : Location} (descends : Descends tree current) {name : Name}
    (directory : tree.lookup (current ++ [name]) = some .directory) : Descends tree (current ++ [name]) := by
  intro above before
  rcases List.prefix_concat_iff.mp before with rfl | before
  · exact .inr directory
  · exact descends above before

theorem Descends.within {after : Tree} (within : Within after tree) {current : Location}
    (descends : Descends tree current) : Descends after current := by
  intro above before
  rcases within.lookup_eq above with same | gone
  · rw [same]
    exact descends above before
  · exact .inl gone

/-- The last step of a walk, to an entry that is not followed. -/
def lastStep (tree : Tree) (name : Name) (location : Location) : Except WalkError Location :=
  if tree.lookup location = none ∨ tree.lookup location = some .directory then
    if tree.lookup (location ++ [name]) = none then .error .missing else .ok (location ++ [name])
  else .error .notDirectory

theorem walk_concat {name : Name} (isName : IsName name)
    {nextLast next : Location → List Name → Except WalkError Location}
    (nexts : ∀ current rest, Descends tree current →
      nextLast current (rest ++ [name]) = (next current rest).bind (lastStep tree name))
    {current : Location} (descends : Descends tree current) (components : List Name) :
    walk tree false nextLast current (components ++ [name]) =
      (walk tree true next current components).bind (lastStep tree name) := by
  obtain ⟨notEmpty, notHere, notUp, -⟩ := isName
  induction components generalizing current with
  | nil =>
    have step : lastStep tree name current =
        if tree.lookup (current ++ [name]) = none then .error .missing else .ok (current ++ [name]) := by
      rw [lastStep, if_pos (descends current List.prefix_rfl)]
    rw [List.nil_append, walk, walk, if_neg (not_or.mpr ⟨notEmpty, notHere⟩), if_neg notUp, Except.bind, step]
    cases tree.lookup (current ++ [name]) with
    | none => rfl
    | some node => cases node <;> rfl
  | cons component rest ih =>
    rw [List.cons_append, walk, walk]
    by_cases here : component = [] ∨ component = ['.']
    · rw [if_pos here, if_pos here]
      exact ih descends
    rw [if_neg here, if_neg here]
    by_cases up : component = ['.', '.']
    · rw [if_pos up, if_pos up]
      exact ih descends.dropLast
    rw [if_neg up, if_neg up]
    have more : rest ++ [name] ≠ [] := by simp
    cases found : tree.lookup (current ++ [component]) with
    | none => rfl
    | some node =>
      cases node with
      | directory => exact ih (descends.child found)
      | file =>
        dsimp only
        rw [if_neg more]
        split
        · rw [Except.bind, lastStep, found, if_neg (by simp)]
        · rfl
      | symlink target =>
        dsimp only
        have followed : ¬ (rest = [] ∧ true = false) := fun both => nomatch both.2
        rw [if_neg (fun both => more both.1), if_neg followed, ← List.append_assoc]
        apply nexts
        split
        · exact descends_root
        · exact descends

/-- A walk to an entry is one to its directory and a last step. -/
theorem resolve_concat {name : Name} (isName : IsName name) (links : ℕ) {current : Location}
    (descends : Descends tree current) (components : List Name) :
    resolve tree false links current (components ++ [name]) =
      (resolve tree true links current components).bind (lastStep tree name) := by
  induction links generalizing current components with
  | zero => exact walk_concat isName (fun _ _ _ => rfl) descends components
  | succ links ih => exact walk_concat isName (fun _ rest descends => ih descends rest) descends components

theorem walk_followed {nextLast next : Location → List Name → Except WalkError Location} {location : Location}
    (noLink : ∀ target, tree.lookup location ≠ some (.symlink target))
    (nexts : ∀ current rest, nextLast current rest = .ok location → next current rest = .ok location)
    {current : Location} {components : List Name}
    (walked : walk tree false nextLast current components = .ok location) :
    walk tree true next current components = .ok location := by
  induction components generalizing current with
  | nil => exact walked
  | cons component rest ih =>
    rw [walk] at walked ⊢
    by_cases here : component = [] ∨ component = ['.']
    · rw [if_pos here] at walked ⊢
      exact ih walked
    rw [if_neg here] at walked ⊢
    by_cases up : component = ['.', '.']
    · rw [if_pos up] at walked ⊢
      exact ih walked
    rw [if_neg up] at walked ⊢
    cases found : tree.lookup (current ++ [component]) with
    | none =>
      rw [found] at walked
      cases walked
    | some node =>
      rw [found] at walked
      cases node with
      | directory => exact ih walked
      | file => exact walked
      | symlink target =>
        dsimp only at walked ⊢
        have followed : ¬ (rest = [] ∧ true = false) := fun both => nomatch both.2
        rw [if_neg followed]
        split at walked
        · cases walked
          exact absurd found (noLink target)
        · exact nexts _ _ walked

/-- A walk that does not end at a link is the same when links at the end are followed. -/
theorem resolve_followed {location : Location} (noLink : ∀ target, tree.lookup location ≠ some (.symlink target))
    (links : ℕ) {current : Location} {components : List Name}
    (resolved : resolve tree false links current components = .ok location) :
    resolve tree true links current components = .ok location := by
  induction links generalizing current components with
  | zero =>
    rw [resolve] at resolved ⊢
    refine walk_followed noLink (fun _ _ stopped => ?_) resolved
    cases stopped
  | succ links ih => exact walk_followed noLink (fun _ _ => ih) resolved

end Walk

end ChromiumOS.PathWalk
