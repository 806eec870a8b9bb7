import ChromiumOS.ToMathlib.ListOrder

/-! # Lists with iterators

A linked list as a sequence of nodes with addresses. An iterator stands at a node or past the last one and
keeps its place while other nodes come and go; what needs a node that is not there is `none`. New nodes get
their addresses from an allocator, which may depend on everything that was allocated before and only has to
avoid addresses in use.
-/

namespace ChromiumOS

/-- Where the next node is put, given the number of allocations before and the addresses in use. -/
structure Allocator where
  allocate : ℕ → List ℕ → ℕ
  fresh : ∀ count used, allocate count used ∉ used

/-- An iterator at a node or past the last one. -/
inductive Iterator where
  | node (address : ℕ)
  | finish
deriving DecidableEq

structure NodeList (α : Type*) where
  nodes : List (ℕ × α) := []
  allocations : ℕ := 0

namespace NodeList

variable {α : Type*}

def values (list : NodeList α) : List α := list.nodes.map Prod.snd

def addresses (list : NodeList α) : List ℕ := list.nodes.map Prod.fst

/-- The node at an address. -/
def find (list : NodeList α) (address : ℕ) : Option (ℕ × α) :=
  list.nodes.find? fun entry => entry.1 == address

def dereference (list : NodeList α) : Iterator → Option α
  | .node address => (list.find address).map Prod.snd
  | .finish => none

/-- The iterator at the first node. -/
def begin (list : NodeList α) : Iterator := list.nodes.head?.elim .finish fun entry => .node entry.1

/-- The iterator before the end. -/
def beforeEnd (list : NodeList α) : Option Iterator := list.nodes.getLast?.map fun entry => .node entry.1

def newNode (allocator : Allocator) (list : NodeList α) : ℕ :=
  allocator.allocate list.allocations list.addresses

/-- The list with one more node. -/
def grow (list : NodeList α) (nodes : List (ℕ × α)) : NodeList α := ⟨nodes, list.allocations + 1⟩

def pushFront (allocator : Allocator) (list : NodeList α) (value : α) : NodeList α :=
  list.grow ((list.newNode allocator, value) :: list.nodes)

def pushBack (allocator : Allocator) (list : NodeList α) (value : α) : NodeList α :=
  list.grow (list.nodes ++ [(list.newNode allocator, value)])

variable [DecidableEq α]

/-- A new node before an iterator, and the iterator at it. -/
def insert (allocator : Allocator) (list : NodeList α) (position : Iterator) (value : α) :
    Option (NodeList α × Iterator) :=
  let entry := (list.newNode allocator, value)
  match position with
  | .node address =>
    (list.find address).map fun other =>
      (list.grow (ListOrder.insertBefore entry other list.nodes), .node entry.1)
  | .finish => some (list.grow (list.nodes ++ [entry]), .node entry.1)

def erase (list : NodeList α) : Iterator → Option (NodeList α)
  | .node address => (list.find address).map fun entry => { list with nodes := list.nodes.erase entry }
  | .finish => none

/-- The iterator one node further. -/
def advance (list : NodeList α) : Iterator → Option Iterator
  | .node address =>
    (list.find address).map fun entry =>
      (ListOrder.next entry list.nodes).elim .finish fun after => .node after.1
  | .finish => none

variable {list : NodeList α} {allocator : Allocator} {address : ℕ} {value : α}

omit [DecidableEq α] in
theorem newNode_fresh : list.newNode allocator ∉ list.addresses := allocator.fresh _ _

omit [DecidableEq α] in
theorem newNode_absent : (list.newNode allocator, value) ∉ list.nodes :=
  fun member => newNode_fresh (List.mem_map.mpr ⟨_, member, rfl⟩)

omit [DecidableEq α] in
theorem find_of_mem (nodup : list.addresses.Nodup) (member : (address, value) ∈ list.nodes) :
    list.find address = some (address, value) := by
  cases found : list.find address with
  | none => exact absurd (List.find?_eq_none.mp found _ member) (by simp)
  | some entry =>
    have same := List.find?_some found
    have inside := List.mem_of_find?_eq_some found
    rw [List.inj_on_of_nodup_map nodup inside member (eq_of_beq same)]

end NodeList

end ChromiumOS
