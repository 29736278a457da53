import ContractCalls.Log
import ContractCalls.Solidity.SourceUnit
import ContractCalls.Table

/-!
Contract: what is known of each contract before any call is looked at.

Owns:
- the declaration of one contract, built from its members in source order;
- the libraries attached to types, with those for one type before those for
  every type;
- the report of names that are declared more than once.

Does not own: inherited members.
-/

set_option autoImplicit false

namespace ContractCalls.Analysis

open ContractCalls.Solidity

/-- The names a contract declares.  Its bases are as written; state variables
are split by what they hold, with their types. -/
structure Declaration where
  name : String
  kind : ContractKind
  bases : List String := []
  plainVariables : Table String String := {}
  userDefinedVariables : Table String String := {}
  functions : List String := []
  events : List String := []
  structs : List String := []
  /-- Libraries by the canonical type they are attached to. -/
  attached : Table String (List String) := {}
  deriving Repr, DecidableEq

/-- Declarations by name, in the order in which the names first came. -/
abbrev Declarations := Table String Declaration

namespace Declaration

/-- The key under which libraries for every type are kept. -/
def everyType : String := "*"

/-- The key of a type that a library is attached to. -/
def attachmentKey (type : Option String) : String :=
  match type with
  | none => everyType
  | some name => if name.isEmpty then everyType else canonicalType name

/-- The libraries under a key. -/
def librariesAt (declaration : Declaration) (key : String) : List String :=
  (declaration.attached.find? key).getD []

/-- Attach a library to a type, or to every type; a second time changes nothing. -/
def attachLibrary (declaration : Declaration) (library : String) (type : Option String) :
    Declaration :=
  let key := attachmentKey type
  let before := declaration.librariesAt key
  let after := if before.contains library then before else before ++ [library]
  { declaration with attached := declaration.attached.insert key after }

/-- The libraries whose functions values of a type have: those attached to the
type, and then those attached to every type. -/
def librariesFor (declaration : Declaration) (type : String) : List String :=
  declaration.librariesAt type ++ declaration.librariesAt everyType

/-- Record what a member declares. -/
def addMember (declaration : Declaration) : Member → Declaration
  | .stateVariable name type =>
    match type.holding? with
    | none => declaration
    | some (.userDefined held) =>
      { declaration with
        userDefinedVariables := declaration.userDefinedVariables.insert name held }
    | some (.plain held) =>
      { declaration with plainVariables := declaration.plainVariables.insert name held }
  | .function name _ _ =>
    match name with
    | none => declaration
    | some given =>
      if given.isEmpty then declaration
      else { declaration with functions := declaration.functions ++ [given] }
  | .modifier _ _ => declaration
  | .event name => { declaration with events := declaration.events ++ [name] }
  | .struct name => { declaration with structs := declaration.structs ++ [name] }
  | .usingFor library type => declaration.attachLibrary library type

/-- The declaration of a contract. -/
def ofContract (contract : Contract) : Declaration :=
  contract.members.foldl addMember
    { name := contract.name, kind := contract.kind, bases := contract.bases }

end Declaration

namespace Declarations

/-- Record a declaration; it replaces an earlier one of the same name. -/
def add (declarations : Declarations) (declaration : Declaration) : Declarations :=
  declarations.insert declaration.name declaration

/-- The direct bases of every declared contract, as written. -/
def baseLists (declarations : Declarations) : Table String (List String) :=
  ⟨declarations.entries.map fun (name, declaration) => (name, declaration.bases)⟩

/-- The message for a name that is declared again. -/
def repeatedMessage (name : String) : Log.Entry :=
  { level := .warning, origin := .declarations
    text := "Contract " ++ name ++ " declared more than once" }

/-- One message for each name that is already known when it is declared. -/
def repeatedMessages (known : List String) : List String → List Log.Entry
  | [] => []
  | name :: later =>
    if known.contains name then repeatedMessage name :: repeatedMessages known later
    else repeatedMessages (known ++ [name]) later

end Declarations

end ContractCalls.Analysis
