import ContractCalls.Solidity.FromTree.Expressions
import ContractCalls.Solidity.SourceUnit

/-!
Contract: callables read from syntax trees.

Owns the parameters of a definition, and the flattening of its body into local
declarations and the expressions that hold its calls, in source order.
-/

set_option autoImplicit false

namespace ContractCalls.Solidity.FromTree

open ContractCalls.Syntax

/-- A parameter or local variable.  Without a child in the role of the name, the
last identifier is the name. -/
def variableOf (node : Node) : Variable :=
  let name := (node.fieldSlot? "name").or
    (node.namedSlots.filter fun child => child.node.kind == "identifier").getLast?
  { name := name.map fun child => textOf child.node
    type := declaredType node }

/-- The parameters inside a node.  Those of a function type belong to the type. -/
def parametersIn (node : Node) : List Variable :=
  if node.kind == "parameter" then [variableOf node]
  else if node.kind == "type_name" then []
  else node.slots.flatMap fun child => parametersIn child.node
termination_by sizeOf node
decreasing_by exact Syntax.Tree.Child.sizeOf_node_lt _

/-- The parameters of a definition, named results included, but not those of its
body and of the modifiers it invokes. -/
def parametersOf (node : Node) : List Variable :=
  let body := node.fieldSlot? "body"
  let header := node.slots.filter fun child =>
    some child ≠ body && child.node.kind != "function_body" &&
      child.node.kind != "modifier_invocation"
  header.flatMap fun child => parametersIn child.node

/-- An emitted event counts as a call of the event. -/
def emission (node : Node) : Except Defect Expression := do
  let event ← roleOrFirst node "name"
  let called ← expression event.node
  return .call called (← arguments node (some event)) (lineOf node)

/-- The declarations and calls inside a node, in source order. -/
def bodyItems (node : Node) : Except Defect (List BodyItem) := do
  let items ← node.namedSlots.mapM fun child =>
    let kind := child.node.kind
    if kind == "variable_declaration" || kind == "parameter" then
      .ok [.declaration (variableOf child.node)]
    else if kind == "call_expression" || kind == "type_cast_expression" then
      (expression child.node).map fun call => [.expression call]
    else if kind == "emit_statement" then
      (emission child.node).map fun call => [.expression call]
    else bodyItems child.node
  return items.flatten
termination_by sizeOf node
decreasing_by exact Syntax.Tree.Child.sizeOf_node_lt _

/-- The body of a definition, if it has one. -/
def bodyOf (node : Node) : Except Defect (Option (List BodyItem)) :=
  match (node.fieldSlot? "body").or (node.kindSlot? "function_body") with
  | none => .ok none
  | some body => (bodyItems body.node).map some

/-- The parameters and the body of a definition. -/
def callableOf (node : Node) : Except Defect Callable :=
  (bodyOf node).map fun body => { parameters := parametersOf node, body }

end ContractCalls.Solidity.FromTree
