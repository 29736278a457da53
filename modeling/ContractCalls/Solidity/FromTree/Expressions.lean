import ContractCalls.Solidity.Expression
import ContractCalls.Solidity.FromTree.Types

/-!
Contract: expressions read from syntax trees.

Owns the unwrapping of transparent nodes, the calls in their several written
forms, member accesses, and the fallback for forms that are not looked into.

Children are found by their role first and by their position second, so that a
tree without field names is read in the same way.
-/

set_option autoImplicit false

namespace ContractCalls.Solidity.FromTree

open ContractCalls.Syntax

/-- Why a tree cannot be read. -/
inductive Defect where
  /-- A node that has to be there is absent. -/
  | absentNode
  /-- A node has none of the named children one of which is needed. -/
  | noNamedChild
  deriving Repr, DecidableEq

/-- The child in a role, or else the first named child. -/
def roleOrFirst (node : Node) (role : String) : Except Defect (Syntax.Tree.Child node) :=
  match (node.fieldSlot? role).or node.namedSlots.head? with
  | some child => .ok child
  | none => .error .noNamedChild

/-- The child in a role, or else the last named child. -/
def roleOrLast (node : Node) (role : String) : Except Defect (Syntax.Tree.Child node) :=
  match (node.fieldSlot? role).or node.namedSlots.getLast? with
  | some child => .ok child
  | none => .error .noNamedChild

/-- The child that a transparent node stands for. -/
def transparent? (node : Node) : Option (Syntax.Tree.Child node) :=
  if node.kind == "expression" || node.kind == "parenthesized_expression" then node.soleSlot?
  else none

/-- The child that an argument stands for. -/
def argumentValue? (node : Node) : Option (Syntax.Tree.Child node) :=
  if node.kind == "call_argument" then node.soleSlot? else none

/-- The named children that are not comments. -/
def operandSlots (node : Node) : List (Syntax.Tree.Child node) :=
  node.namedSlots.filter fun child => child.node.kind != "comment"

/-- Number literals, by kind or, for a leaf, by text. -/
def isNumberNode (node : Node) : Bool :=
  node.kind == "number_literal" ||
    (node.namedSlots.isEmpty && Lexical.isNumber (textOf node))

/-- Identifiers, by kind or, for a leaf, by text. -/
def isIdentifierNode (node : Node) : Bool :=
  node.kind == "identifier" ||
    (node.namedSlots.isEmpty && Lexical.isIdentifier (textOf node))

/-- The name of the elementary type that a node writes. -/
def elementaryName (node : Node) : String := Text.squeeze (textOf node)

/-- A node leaves room for its child and for the arguments of that child. -/
theorem twice_sizeOf_node_lt {node : Node} (child : Syntax.Tree.Child node) :
    2 * sizeOf child.node + 1 < 2 * sizeOf node := by
  have smaller := Syntax.Tree.Child.sizeOf_node_lt child
  omega

mutual

/-- The expression a node stands for. -/
def expression (node : Node) : Except Defect Expression :=
  match transparent? node with
  | some inner => expression inner.node
  | none =>
    if node.kind == "call_expression" then do
      let callee ← roleOrFirst node "function"
      let called ← expression callee.node
      return .call called (← arguments node (some callee)) (lineOf node)
    else if node.kind == "type_cast_expression" then
      match node.namedSlots.head? with
      | none => .error .noNamedChild
      | some type => do
        return .call (.elementaryType (elementaryName type.node))
          (← arguments node (some type)) (lineOf node)
    else if node.kind == "payable_conversion_expression" then do
      return .call (.elementaryType "address payable") (← arguments node none) (lineOf node)
    else if node.kind == "member_expression" then do
      let object ← roleOrFirst node "object"
      let member ← roleOrLast node "property"
      return .member (← expression object.node) (textOf member.node)
    else if node.kind == "primitive_type" then .ok (.elementaryType (elementaryName node))
    else if isNumberNode node then .ok (.number (textOf node))
    else if isIdentifierNode node then .ok (.identifier (textOf node))
    else do
      return .other (textOf node)
        (← (operandSlots node).mapM fun operand => expression operand.node)
termination_by 2 * sizeOf node + 1
decreasing_by
  all_goals first
    | exact Nat.lt_succ_of_lt (twice_sizeOf_node_lt _)
    | exact Nat.lt_succ_self _

/-- The arguments of a call: all operands but the one that is called. -/
def arguments (node : Node) (called : Option (Syntax.Tree.Child node)) :
    Except Defect (List Expression) :=
  ((operandSlots node).filter fun child => some child ≠ called).mapM fun child =>
    match argumentValue? child.node with
    | some value => expression value.node
    | none => expression child.node
termination_by 2 * sizeOf node
decreasing_by
  · exact Nat.lt_trans (twice_sizeOf_node_lt _) (Nat.lt_of_succ_lt (twice_sizeOf_node_lt _))
  · exact twice_sizeOf_node_lt _

end

end ContractCalls.Solidity.FromTree
