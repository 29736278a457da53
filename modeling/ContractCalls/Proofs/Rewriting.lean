import ContractCalls.Solidity.SourceUnit

/-!
Contract: changes that a source undergoes in its types and expressions only.

Owns the change of a whole source unit, given the change of a type, of an
expression, and of the type that a library is attached to.  Names, kinds, bases and
imports stay, and so does the order of everything.
-/

set_option autoImplicit false

namespace ContractCalls.Solidity

structure Rewriting where
  type : TypeName → TypeName := id
  expression : Expression → Expression := id
  /-- The type of a directive. -/
  attached : Option String → Option String := id

namespace Rewriting

variable (rewriting : Rewriting)

def onVariable (declared : Variable) : Variable :=
  { declared with type := rewriting.type declared.type }

def onItem : BodyItem → BodyItem
  | .declaration declared => .declaration (rewriting.onVariable declared)
  | .expression whole => .expression (rewriting.expression whole)

def onCallable (callable : Callable) : Callable :=
  { parameters := callable.parameters.map rewriting.onVariable
    body := callable.body.map fun items => items.map rewriting.onItem }

def onMember : Member → Member
  | .stateVariable name type => .stateVariable name (rewriting.type type)
  | .function name kind callable => .function name kind (rewriting.onCallable callable)
  | .modifier name callable => .modifier name (rewriting.onCallable callable)
  | .usingFor library type => .usingFor library (rewriting.attached type)
  | .event name => .event name
  | .struct name => .struct name

def onContract (contract : Contract) : Contract :=
  { contract with members := contract.members.map rewriting.onMember }

def onUnit (unit : SourceUnit) : SourceUnit :=
  { unit with contracts := unit.contracts.map rewriting.onContract }

theorem callable?_onMember (member : Member) :
    (rewriting.onMember member).callable? = member.callable?.map rewriting.onCallable := by
  cases member <;> rfl

end Rewriting

end ContractCalls.Solidity
