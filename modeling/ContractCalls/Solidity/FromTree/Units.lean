import ContractCalls.Solidity.FromTree.Bodies
import ContractCalls.Solidity.SyntaxError

/-!
Contract: source units read from syntax trees.

Owns the reading of contracts and their members, of libraries attached to
types, of imports, and the report of the first error in a tree that has one.
-/

set_option autoImplicit false

namespace ContractCalls.Solidity.FromTree

open ContractCalls.Syntax

/-- Why a source gives no unit. -/
inductive Rejection where
  | malformed (error : SyntaxError)
  | unreadable (defect : Defect)
  deriving Repr, DecidableEq

/-- The name of a definition. -/
def nameOf (node : Node) : Except Defect String :=
  match (node.fieldSlot? "name").or (node.kindSlot? "identifier") with
  | some name => .ok (textOf name.node)
  | none => .error .absentNode

/-- A type as the key of an attached library: its name, or its text if it has
none. -/
def attachedType (node : Node) : String :=
  let name := match typeName node with
    | .elementary name => name
    | .userDefined name => name
    | _ => ""
  if name.isEmpty then Text.compact (textOf node) else name

/-- A library attached to a type, read by position around the word that stands
between them. -/
def usingForOf? (node : Node) : Option Member := do
  let divider ← node.children.findIdx? fun child => child.kind == "for"
  let source ← (node.children.take divider).tail.find? fun child => child.named
  let library := Text.compact (textOf source)
  guard (!library.toList.head? == some '\x7b')
  let target := (node.children.drop (divider + 1)).find? fun child =>
    textOf child != "global" && textOf child != ";"
  return .usingFor library <| target.bind fun type =>
    if Text.trim (textOf type).toList == ['*'] then none else some (attachedType type)

/-- The member a node defines, if it is one that the graph looks at. -/
def memberOf? (node : Node) : Except Defect (Option Member) :=
  match node.kind with
  | "state_variable_declaration" => do
    return some (.stateVariable (← nameOf node) (declaredType node))
  | "function_definition" => do
    return some (.function (some (← nameOf node)) .function (← callableOf node))
  | "constructor_definition" => do
    return some (.function none .constructor (← callableOf node))
  | "fallback_receive_definition" => do
    let kind := if node.children.any fun child => child.kind == "receive" then
      FunctionKind.receive else .fallback
    return some (.function none kind { parameters := [], body := ← bodyOf node })
  | "modifier_definition" => do
    return some (.modifier (← nameOf node) (← callableOf node))
  | "event_definition" => do return some (.event (← nameOf node))
  | "struct_declaration" => do return some (.struct (← nameOf node))
  | "using_directive" => .ok (usingForOf? node)
  | _ => .ok none

/-- The kind of contract that a node declares. -/
def contractKind? (node : Node) : Option ContractKind :=
  match node.kind with
  | "contract_declaration" => some .contract
  | "interface_declaration" => some .interface
  | "library_declaration" => some .library
  | _ => none

/-- The base that an inheritance specifier names. -/
def baseOf (node : Node) : Except Defect String :=
  (roleOrFirst node "ancestor").map fun ancestor => Text.compact (textOf ancestor.node)

/-- The contract a node declares. -/
def contractOf (kind : ContractKind) (node : Node) : Except Defect Contract := do
  let name ← nameOf node
  let specifiers := node.namedSlots.filter fun child =>
    child.node.kind == "inheritance_specifier"
  let bases ← specifiers.mapM fun specifier => baseOf specifier.node
  let members ← match (node.fieldSlot? "body").or (node.kindSlot? "contract_body") with
    | none => .ok []
    | some body => body.node.namedSlots.mapM fun child => memberOf? child.node
  return { name, kind, bases, members := members.filterMap id }

/-- Add what one node at the top of a source holds. -/
def addTopLevel (unit : SourceUnit) (node : Node) : Except Defect SourceUnit :=
  match contractKind? node with
  | some kind =>
    (contractOf kind node).map fun contract =>
      { unit with contracts := unit.contracts ++ [contract] }
  | none =>
    if node.kind == "import_directive" then
      .ok { unit with imports := unit.imports ++ (Lexical.importPath? (textOf node)).toList }
    else .ok unit

/-- The unit that an error-free tree holds. -/
def unitOf (root : Node) : Except Defect SourceUnit :=
  (root.children.filter fun child => child.named).foldlM addTopLevel {}

/-- Nodes that mark an error in the text. -/
def marksError (node : Node) : Bool := node.kind == "ERROR" || node.missing

/-- The error of a tree that has one: at its first marked node, if any. -/
def syntaxErrorOf (path : Option String) (root : Node) : SyntaxError :=
  match root.preorder.find? marksError with
  | some node =>
    { path
      line := some (node.extent.start.row + 1 : Nat)
      column := some (node.extent.start.column + 1 : Nat) }
  | none => { path }

/-- Read a tree: its first error, or else its unit. -/
def sourceUnit (path : Option String) (hasError : Bool) (root : Node) :
    Except Rejection SourceUnit :=
  if hasError then .error (.malformed (syntaxErrorOf path root))
  else (unitOf root).mapError .unreadable

end ContractCalls.Solidity.FromTree
