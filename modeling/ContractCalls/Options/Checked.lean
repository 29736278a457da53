import ContractCalls.Options.Value
import ContractCalls.Table

/-!
Contract: reading values as the types that options have.

Owns:
- what can be wrong with a value, where, and its wording;
- readers of flags, texts, tables of texts and records, which report every
  fault and not only the first.

Does not own: which options there are.
-/

set_option autoImplicit false

namespace ContractCalls.Options

/-- What is wrong with a value. -/
inductive Fault where
  /-- A text or number that stands for no truth value. -/
  | flagForm
  /-- A value of a kind that is no truth value. -/
  | flagKind
  | textKind
  | tableKind
  /-- A value that is no record of the named kind. -/
  | recordKind (record : String)
  deriving Repr, DecidableEq

/-- The short name of a fault. -/
def Fault.code : Fault → String
  | flagForm => "bool_parsing"
  | flagKind => "bool_type"
  | textKind => "string_type"
  | tableKind => "dict_type"
  | recordKind _ => "model_type"

def Fault.message : Fault → String
  | flagForm => "Input should be a valid boolean, unable to interpret input"
  | flagKind => "Input should be a valid boolean"
  | textKind => "Input should be a valid string"
  | tableKind => "Input should be a valid dictionary"
  | recordKind record => "Input should be a valid dictionary or instance of " ++ record

/-- One step into a value. -/
inductive Step where
  | name (key : String)
  | number (key : Int)
  deriving Repr, DecidableEq

/-- A fault and where it is, from the outermost step inward. -/
structure Problem where
  location : List Step
  fault : Fault
  deriving Repr, DecidableEq

/-- A value that was read, with the problems met on the way.  It counts only if
there are none. -/
structure Checked (α : Type) where
  value : α
  problems : List Problem := []
  deriving Repr

namespace Checked

variable {α : Type}

instance : Monad Checked where
  pure value := { value }
  bind first next :=
    let second := next first.value
    { value := second.value, problems := first.problems ++ second.problems }

/-- A stand-in for a value that has a fault. -/
def fail (standIn : α) (fault : Fault) : Checked α :=
  { value := standIn, problems := [{ location := [], fault }] }

/-- Problems one step further in. -/
def within (step : Step) (checked : Checked α) : Checked α :=
  { checked with
    problems := checked.problems.map fun problem =>
      { problem with location := step :: problem.location } }

end Checked

/-- The largest magnitude of a number that can be compared with a truth value. -/
def wordLimit : Nat := Nat.pow 2 63

/-- A text as a truth value, in any case. -/
def flagOfText? (text : String) : Option Bool :=
  let lower := String.ofList (text.toList.map Char.toLower)
  if ["0", "off", "f", "false", "n", "no"].contains lower then some false
  else if ["1", "on", "t", "true", "y", "yes"].contains lower then some true
  else none

def readFlagText (text : String) : Checked Bool :=
  match flagOfText? text with
  | some value => pure value
  | none => .fail false .flagForm

/-- A whole number as a truth value: nought or one. -/
def readFlagInteger (value : Int) : Checked Bool :=
  if value = 0 then pure false
  else if value = 1 then pure true
  else if -(wordLimit : Int) ≤ value ∧ value < wordLimit then .fail false .flagForm
  else .fail false .flagKind

/-- Read a truth value. -/
def readFlag : Value → Checked Bool
  | .boolean value => pure value
  | .integer value => readFlagInteger value
  | .real value =>
    if value.floor == value && value.abs < Float.ofNat wordLimit then
      if value == 0.0 then pure false
      else if value == 1.0 then pure true
      else .fail false .flagForm
    else .fail false .flagKind
  | .text value => readFlagText value
  | .binary (some value) => readFlagText value
  | _ => .fail false .flagKind

/-- Read a text. -/
def readText : Value → Checked String
  | .text value => pure value
  | .binary (some value) => pure value
  | _ => .fail "" .textKind

/-- Read a text that may be absent. -/
def readTextOption : Value → Checked (Option String)
  | .null => pure none
  | value => do return some (← readText value)

/-- A key as a step into its table. -/
def Value.step : Value → Step
  | .text key => .name key
  | .boolean key => .number (if key then 1 else 0)
  | .integer key =>
    if -(wordLimit : Int) ≤ key ∧ key < wordLimit then .number key else .name (toString key)
  | .null => .name "None"
  | .real key => .name (Text.shortest key)
  | .binary decoded => .name (decoded.getD "")
  | .other written _ => .name written
  | .list _ => .name ""
  | .mapping _ => .name ""

/-- Read the entries of a table of texts.  The key of an entry is read before
its value. -/
def readEntries (table : Table String String) :
    List (Value × Value) → Checked (Table String String)
  | [] => pure table
  | (key, value) :: rest => do
    let name ← ((readText key).within (.name "[key]")).within key.step
    let content ← (readText value).within key.step
    readEntries (table.insert name content) rest

/-- Read a table of texts. -/
def readTable : Value → Checked (Table String String)
  | .mapping entries => readEntries {} entries
  | _ => .fail {} .tableKind

/-- Read a record of a kind from its fields. -/
def readRecord {α : Type} (kind : String) (standIn : α)
    (fields : List (Value × Value) → Checked α) : Value → Checked α
  | .mapping entries => fields entries
  | _ => .fail standIn (.recordKind kind)

/-- Read a field under the first of its names that is there. -/
def readField {α : Type} (entries : List (Value × Value)) (names : List String) (absent : α)
    (read : Value → Checked α) : Checked α :=
  match names.findSome? fun name => (Value.entry? entries name).map fun value => (name, value) with
  | some (name, value) => (read value).within (.name name)
  | none => pure absent

end ContractCalls.Options
