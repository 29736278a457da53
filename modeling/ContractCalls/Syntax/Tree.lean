/-!
Contract: concrete syntax trees.

Owns:
- nodes with their kind, field name and children, over any kind of extent;
- children as handles: a handle is a slot of its parent, so that two handles
  are equal exactly if they are the same child;
- the search for children by field, by kind and by position.

Does not own: any grammar.
-/

set_option autoImplicit false

namespace ContractCalls.Syntax

/-- A node.  Named nodes are those the grammar gives a name; the others are bare
tokens, whose kind is their text.  `field` is the role the node has in its
parent.  A missing node was invented where the text lacked it. -/
structure Tree (ε : Type) where
  kind : String
  extent : ε
  named : Bool := true
  field : Option String := none
  missing : Bool := false
  children : List (Tree ε) := []
  deriving Repr

/-- A range of a source: the offset of its first byte and of the byte after its
last. -/
structure Span where
  start : Nat
  stop : Nat
  deriving Repr, DecidableEq, Inhabited

/-- A place in a source: the number of line feeds before it, and the number of
bytes since the last of them. -/
structure Position where
  row : Nat
  column : Nat
  deriving Repr, DecidableEq, Inhabited

/-- What a node covers: its text, and where it starts. -/
structure Excerpt where
  text : String
  start : Position
  deriving Repr, DecidableEq, Inhabited

namespace Tree

variable {ε : Type}

instance [Inhabited ε] : Inhabited (Tree ε) := ⟨{ kind := "", extent := default }⟩

/-- A child of a node, known by its slot. -/
structure Child (tree : Tree ε) where
  slot : Fin tree.children.length
  deriving DecidableEq

namespace Child

variable {tree : Tree ε}

/-- The node in a child's slot. -/
def node (child : Child tree) : Tree ε := tree.children.get child.slot

theorem node_mem (child : Child tree) : child.node ∈ tree.children :=
  List.get_mem tree.children child.slot

/-- A child is smaller than its parent, so recursion into children ends. -/
theorem sizeOf_node_lt [SizeOf ε] (child : Child tree) : sizeOf child.node < sizeOf tree := by
  have member : sizeOf child.node < sizeOf tree.children :=
    List.sizeOf_lt_of_mem child.node_mem
  cases tree with
  | mk kind extent named field missing children =>
    simp only [Tree.mk.sizeOf_spec] at member ⊢
    omega

end Child

/-- All children, from left to right. -/
def slots (tree : Tree ε) : List (Child tree) :=
  (List.finRange tree.children.length).map Child.mk

/-- The children that the grammar names, from left to right. -/
def namedSlots (tree : Tree ε) : List (Child tree) :=
  tree.slots.filter fun child => child.node.named

/-- The first child with a field name. -/
def fieldSlot? (tree : Tree ε) (field : String) : Option (Child tree) :=
  tree.slots.find? fun child => child.node.field == some field

/-- The first named child of a kind. -/
def kindSlot? (tree : Tree ε) (kind : String) : Option (Child tree) :=
  tree.namedSlots.find? fun child => child.node.kind == kind

/-- The only named child, if there is exactly one. -/
def soleSlot? (tree : Tree ε) : Option (Child tree) :=
  match tree.namedSlots with
  | [only] => some only
  | _ => none

mutual

/-- Change what the nodes of a tree are said to cover. -/
def mapExtent {δ : Type} (change : ε → δ) : Tree ε → Tree δ
  | ⟨kind, extent, named, field, missing, children⟩ =>
    ⟨kind, change extent, named, field, missing, mapExtents change children⟩

def mapExtents {δ : Type} (change : ε → δ) : List (Tree ε) → List (Tree δ)
  | [] => []
  | tree :: rest => tree.mapExtent change :: mapExtents change rest

end

mutual

/-- A tree's nodes, each before its children. -/
def preorder : Tree ε → List (Tree ε)
  | ⟨kind, extent, named, field, missing, children⟩ =>
    ⟨kind, extent, named, field, missing, children⟩ :: preorders children

def preorders : List (Tree ε) → List (Tree ε)
  | [] => []
  | tree :: rest => tree.preorder ++ preorders rest

end

theorem map_node_slots (tree : Tree ε) : tree.slots.map Child.node = tree.children := by
  apply List.ext_getElem
  · simp [slots]
  · intro index _ _
    simp [slots, Child.node]

end Tree

end ContractCalls.Syntax
