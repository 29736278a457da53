import ContractCalls.Solidity.Expression
import ContractCalls.Solidity.TypeName

/-!
Contract: source files reduced to what a call graph needs.

Owns the contracts of a file with their bases and members, the bodies of
functions and modifiers as declarations and expressions in source order, and
the paths of the file's imports.
-/

set_option autoImplicit false

namespace ContractCalls.Solidity

/-- A parameter, return parameter or local variable.  Parameters may have no
name. -/
structure Variable where
  name : Option String
  type : TypeName
  deriving Repr, Inhabited

/-- A body is kept as its local declarations and the expressions that hold its
calls. -/
inductive BodyItem where
  | declaration (declared : Variable)
  | expression (expression : Expression)
  deriving Repr, Inhabited

/-- What can be called: parameters, named results among them, and a body unless
the definition has no implementation. -/
structure Callable where
  parameters : List Variable := []
  body : Option (List BodyItem) := none
  deriving Repr, Inhabited

inductive FunctionKind where
  | function
  | constructor
  | fallback
  | receive
  deriving Repr, DecidableEq, Inhabited

inductive Member where
  | stateVariable (name : String) (type : TypeName)
  | function (name : Option String) (kind : FunctionKind) (callable : Callable)
  | modifier (name : String) (callable : Callable)
  | event (name : String)
  | struct (name : String)
  /-- A library attached to a type; no type means every type. -/
  | usingFor (library : String) (type : Option String)
  deriving Repr, Inhabited

inductive ContractKind where
  | contract
  | interface
  | library
  deriving Repr, DecidableEq, Inhabited

structure Contract where
  name : String
  kind : ContractKind := .contract
  bases : List String := []
  members : List Member := []
  deriving Repr, Inhabited

structure SourceUnit where
  contracts : List Contract := []
  imports : List String := []
  deriving Repr, Inhabited

/-- The bodies in which a member makes calls. -/
def Member.callable? : Member → Option Callable
  | function _ _ callable => some callable
  | modifier _ callable => some callable
  | _ => none

end ContractCalls.Solidity
