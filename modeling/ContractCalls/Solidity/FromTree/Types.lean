import ContractCalls.Solidity.Lexical
import ContractCalls.Solidity.TypeName
import ContractCalls.Syntax.Tree

/-!
Contract: declared types read from syntax trees.

Owns the reading of collections by the tokens they start with or hold, the
search for the value type of a mapping, and the names of all other types.

Does not own: what a variable of a type holds.
-/

set_option autoImplicit false

namespace ContractCalls.Solidity.FromTree

open ContractCalls.Syntax

/-- A node with the text it covers. -/
abbrev Node := Syntax.Tree Excerpt

/-- The text of a node. -/
def textOf (node : Node) : String := node.extent.text

/-- The line a node starts on, counted from one. -/
def lineOf (node : Node) : Nat := node.extent.start.row + 1

/-- The value type of a mapping: the child in that role, or else the first named
child after the arrow. -/
def mappingValue? (node : Node) : Option (Syntax.Tree.Child node) :=
  let arrow := (node.children.findIdx? fun child => child.kind == "=>").getD 0
  (node.fieldSlot? "value_type").or
    ((node.slots.drop (arrow + 1)).find? fun child => child.node.named)

/-- The type that a node names with its text. -/
def namedType (node : Node) : TypeName :=
  let text := Text.squeeze (textOf node)
  if node.kind == "primitive_type" || Lexical.isElementaryType text then .elementary text
  else .userDefined (Text.compact (textOf node))

/-- The kind of the first child. -/
def leadingKind? (node : Node) : Option String :=
  (node.children.head?).map fun child => child.kind

/-- The type a node stands for. -/
def typeName (node : Node) : TypeName :=
  if node.kind == "type_name" then
    if leadingKind? node == some "mapping" then
      match mappingValue? node with
      | some value => .mapping (typeName value.node)
      | none => .mapping .function
    else if leadingKind? node == some "function" then .function
    else if node.children.any fun child => child.kind == "[" then
      match node.slots.head? with
      | some element => .array (typeName element.node)
      | none => .array .function
    else
      match node.soleSlot? with
      | some only => typeName only.node
      | none => namedType node
  else namedType node
termination_by sizeOf node
decreasing_by all_goals exact Syntax.Tree.Child.sizeOf_node_lt _

/-- The type of a declaration; one that gives none counts as a function. -/
def declaredType (node : Node) : TypeName :=
  match (node.fieldSlot? "type").or (node.kindSlot? "type_name") with
  | some type => typeName type.node
  | none => .function

end ContractCalls.Solidity.FromTree
