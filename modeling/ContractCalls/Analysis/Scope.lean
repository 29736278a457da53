import ContractCalls.Analysis.Declaration

/-!
Contract: where a call stands, and which variables are seen there.

Owns:
- what is known before bodies are read: declarations and ancestor orders;
- entering and leaving contracts and bodies;
- the variables of a body, which hide those of its contract;
- the variables of a contract, gathered from its most basic ancestor to the
  contract itself, so that the nearest declaration wins among those with plain
  types and among those with user-defined ones.

Bodies do not nest, so one current contract and one current body are enough.
-/

set_option autoImplicit false

namespace ContractCalls.Analysis

open ContractCalls.Solidity

/-- What calls are resolved against. -/
structure Context where
  declarations : Declarations
  /-- Ancestor orders by contract, the contract itself first. -/
  orders : Table String (List String) := {}
  /-- Whether calls that go to an attached library are left out. -/
  omitLibraries : Bool := false
  deriving Repr, DecidableEq

/-- The ancestor order of a contract; only itself if none is known. -/
def Context.order (context : Context) (contract : String) : List String :=
  (context.orders.find? contract).getD [contract]

/-- The place of a call: its contract, the contract whose body holds it, and the
variables that are seen there, with their types. -/
structure Scope where
  current : Option String := none
  /-- The contract of the current body; none outside bodies. -/
  calling : Option String := none
  plainLocals : Table String String := {}
  userDefinedLocals : Table String String := {}
  plainState : Table String String := {}
  userDefinedState : Table String String := {}
  deriving Repr, DecidableEq, Inhabited

namespace Scope

/-- Add the state variables that a contract itself declares. -/
def addState (context : Context) (scope : Scope) (contract : String) : Scope :=
  match context.declarations.find? contract with
  | none => scope
  | some declaration =>
    { scope with
      plainState := scope.plainState.merge declaration.plainVariables
      userDefinedState := scope.userDefinedState.merge declaration.userDefinedVariables }

/-- Enter a contract.  The variables already there stay unless they are hidden. -/
def enterContract (context : Context) (scope : Scope) (contract : String) : Scope :=
  (context.order contract).reverse.foldl (addState context)
    { scope with current := some contract }

def leaveContract (scope : Scope) : Scope :=
  { scope with current := none, plainState := {}, userDefinedState := {} }

/-- Enter a body of the current contract. -/
def enterBody (scope : Scope) : Scope := { scope with calling := scope.current }

def leaveBody (scope : Scope) : Scope :=
  { scope with calling := none, plainLocals := {}, userDefinedLocals := {} }

/-- A named variable of a body, which hides an earlier one of that name. -/
def addLocal (scope : Scope) (name : String) : Holding → Scope
  | .userDefined type =>
    { scope with
      userDefinedLocals := scope.userDefinedLocals.insert name type
      plainLocals := scope.plainLocals.erase name }
  | .plain type =>
    { scope with
      plainLocals := scope.plainLocals.insert name type
      userDefinedLocals := scope.userDefinedLocals.erase name }

/-- Declare a variable.  Outside bodies, without a name or without a type that
is tracked it changes nothing. -/
def declare (scope : Scope) (declared : Variable) : Scope :=
  match scope.calling, declared.name, declared.type.holding? with
  | some _, some name, some holding =>
    if name.isEmpty then scope else scope.addLocal name holding
  | _, _, _ => scope

/-- The ancestor order of the current contract. -/
def order (context : Context) (scope : Scope) : List String :=
  match scope.current with
  | none => []
  | some contract => context.order contract

/-- Whether a name is that of a plain variable: a local one, or one of the
contract that no variable of a user-defined type hides. -/
def isPlain (scope : Scope) (name : String) : Bool :=
  if scope.plainLocals.contains name then true
  else if scope.userDefinedLocals.contains name then false
  else if scope.userDefinedState.contains name then false
  else scope.plainState.contains name

/-- The type of a variable of a user-defined type, locals first. -/
def userDefinedType? (scope : Scope) (name : String) : Option String :=
  match scope.userDefinedLocals.find? name with
  | some type => some type
  | none => scope.userDefinedState.find? name

end Scope

end ContractCalls.Analysis
