/-!
Contract: declared types and the part of them that decides where a call goes.

Owns:
- the shapes of a declared type;
- the canonical spelling of elementary types;
- the classification of variables into plain values and values of a
  user-defined type.

Does not own: how a type is read from a syntax tree.
-/

set_option autoImplicit false

namespace ContractCalls.Solidity

/-- A declared type.  `unclassified` is a type of no tracked kind, known at most
by a name. -/
inductive TypeName where
  | elementary (name : String)
  | userDefined (name : String)
  | array (element : TypeName)
  | mapping (value : TypeName)
  | function
  | unclassified (name : String)
  deriving Repr, DecidableEq, Inhabited

/-- The canonical spelling of an elementary type: the two short integer names
stand for the widest integers. -/
def canonicalType (name : String) : String :=
  if name = "uint" then "uint256" else if name = "int" then "int256" else name

/-- Canonical spellings are their own canonical spelling. -/
@[simp]
theorem canonicalType_canonicalType (name : String) :
    canonicalType (canonicalType name) = canonicalType name := by
  by_cases unsigned : name = "uint"
  · simp [canonicalType, unsigned]
  · by_cases signed : name = "int"
    · simp [canonicalType, signed]
    · simp [canonicalType, unsigned, signed]

theorem canonicalType_eq_empty_iff (name : String) : canonicalType name = "" ↔ name = "" := by
  unfold canonicalType
  split
  next unsigned => simp [unsigned]
  next => split <;> simp_all

/-- What a variable holds, as far as calls on it are concerned. -/
inductive Holding where
  /-- A plain value of the named canonical type. -/
  | plain (type : String)
  /-- A value of the named user-defined type. -/
  | userDefined (type : String)
  deriving Repr, DecidableEq

namespace TypeName

/-- The innermost element or value type. -/
def leaf : TypeName → TypeName
  | array element => element.leaf
  | mapping value => value.leaf
  | other => other

/-- The name of a type that is neither an array nor a mapping; empty if it has
none. -/
def leafName : TypeName → String
  | elementary name => name
  | userDefined name => name
  | unclassified name => name
  | _ => ""

/-- A plain value of a type with a name. -/
def plainOf (name : String) : Option Holding :=
  if name.isEmpty then none else some (.plain (canonicalType name))

/-- What a variable of this type holds.  Collections count as plain values of
their innermost type; a type without a usable name is not tracked. -/
def holding? : TypeName → Option Holding
  | userDefined name => if name.isEmpty then none else some (.userDefined name)
  | elementary name => plainOf name
  | array element => plainOf element.leaf.leafName
  | mapping value => plainOf value.leaf.leafName
  | function => none
  | unclassified _ => none

end TypeName

end ContractCalls.Solidity
