import ContractCalls.Text.Shortest

/-!
Contract: values as option files hold them.

Owns the kinds of values, which of them count as nothing, and which keys of a
mapping are the same.

Does not own: the options that values stand for.
-/

set_option autoImplicit false

namespace ContractCalls.Options

/-- A value of an option file.  Mappings keep the order of their entries. -/
inductive Value where
  | null
  | boolean (value : Bool)
  | integer (value : Int)
  | real (value : Float)
  | text (value : String)
  /-- Raw bytes, with the text that they encode, if any. -/
  | binary (decoded : Option String)
  | list (items : List Value)
  | mapping (entries : List (Value × Value))
  /-- A value of a kind that no option takes, as it is written in messages. -/
  | other (written : String) (isNothing : Bool)
  deriving Repr, Inhabited

namespace Value

/-- Whether a value counts as nothing. -/
def isNothing : Value → Bool
  | null => true
  | boolean value => !value
  | integer value => value == 0
  | real value => value == 0.0
  | text value => value.isEmpty
  | binary decoded => decoded == some ""
  | list items => items.isEmpty
  | mapping entries => entries.isEmpty
  | other _ nothing => nothing

/-- The number that a value equals. -/
def number? : Value → Option Float
  | boolean value => some (if value then 1.0 else 0.0)
  | integer value => some (Float.ofInt value)
  | real value => some value
  | _ => none

/-- Whether two values are the same key.  Numbers are compared by value, with
truth as one and falsehood as nought. -/
def sameKey : Value → Value → Bool
  | null, null => true
  | text left, text right => left == right
  | binary left, binary right => left.isSome && left == right
  | integer left, integer right => left == right
  | other left _, other right _ => left == right
  | left, right =>
    match left.number?, right.number? with
    | some leftNumber, some rightNumber => leftNumber == rightNumber
    | _, _ => false

/-- Entries with a key set: at its old place, or at the end. -/
def setEntry (key value : Value) : List (Value × Value) → List (Value × Value)
  | [] => [(key, value)]
  | (present, old) :: rest =>
    if present.sameKey key then (present, value) :: rest
    else (present, old) :: setEntry key value rest

/-- The value under a name. -/
def entry? (entries : List (Value × Value)) (name : String) : Option Value :=
  match entries with
  | [] => none
  | (text key, value) :: rest => if key == name then some value else entry? rest name
  | _ :: rest => entry? rest name

end Value

end ContractCalls.Options
