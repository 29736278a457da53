import ContractCalls.Analysis.CallGraph

/-!
Contract: the calls of a program, each with all that its resolution depends on.

Owns:
- the calls of an expression as the calls among its subexpressions, each
  before its parts;
- the calls of bodies, contracts and source units in source order, each with
  its contract and the variables that are declared before it;
- the scope of a single call, built from nothing, and the edge it asks for,
  which starts at the contract of the call.

Nothing here is carried from one call to the next.

Does not own: the walk that draws calls one after the other.
-/

set_option autoImplicit false

namespace ContractCalls.Solidity

namespace Expression

mutual

/-- An expression and all expressions in it, each before its parts and the
parts from left to right. -/
def subexpressions : Expression → List Expression
  | identifier name => [identifier name]
  | number literal => [number literal]
  | elementaryType name => [elementaryType name]
  | member object name => member object name :: object.subexpressions
  | call callee arguments line =>
      call callee arguments line :: (callee.subexpressions ++ subexpressionsOf arguments)
  | other text operands => other text operands :: subexpressionsOf operands

def subexpressionsOf : List Expression → List Expression
  | [] => []
  | expression :: rest => expression.subexpressions ++ subexpressionsOf rest

end

/-- The call that an expression itself is. -/
def callSite? : Expression → Option CallSite
  | call callee arguments line => some { callee, arguments, line }
  | _ => none

mutual

theorem callSites_eq_filterMap :
    ∀ expression : Expression,
      expression.callSites = expression.subexpressions.filterMap callSite?
  | identifier _ => rfl
  | number _ => rfl
  | elementaryType _ => rfl
  | member object _ => by
      rw [callSites, subexpressions, List.filterMap_cons_none rfl]
      exact callSites_eq_filterMap object
  | call callee arguments line => by
      have isCall : callSite? (call callee arguments line) = some ⟨callee, arguments, line⟩ := rfl
      rw [callSites, subexpressions, List.filterMap_cons_some isCall, List.filterMap_append,
        callSites_eq_filterMap callee, callSitesOf_eq_filterMap arguments]
  | other _ operands => by
      rw [callSites, subexpressions, List.filterMap_cons_none rfl]
      exact callSitesOf_eq_filterMap operands

theorem callSitesOf_eq_filterMap :
    ∀ expressions : List Expression,
      callSitesOf expressions = (subexpressionsOf expressions).filterMap callSite?
  | [] => rfl
  | expression :: rest => by
      rw [callSitesOf, subexpressionsOf, List.filterMap_append,
        callSites_eq_filterMap expression, callSitesOf_eq_filterMap rest]

end

end Expression

namespace BodyItem

def declared? : BodyItem → Option Variable
  | declaration declared => some declared
  | expression _ => none

def calls : BodyItem → List CallSite
  | declaration _ => []
  | expression whole => whole.subexpressions.filterMap Expression.callSite?

end BodyItem

end ContractCalls.Solidity

namespace ContractCalls.Analysis

open ContractCalls.Solidity

/-- A call with its place: the contract whose body holds it, and the parameters
and local variables that are declared before it, in order. -/
structure PlacedCall where
  contract : String
  declared : List Variable
  site : CallSite

/-- The calls of the item at a position of a body. -/
def itemCalls (contract : String) (parameters : List Variable) (body : List BodyItem)
    (item : BodyItem × Nat) : List PlacedCall :=
  item.1.calls.map fun site =>
    { contract
      declared := parameters ++ (body.take item.2).filterMap BodyItem.declared?
      site }

def callableCalls (contract : String) (callable : Callable) : List PlacedCall :=
  let body := callable.body.getD []
  body.zipIdx.flatMap (itemCalls contract callable.parameters body)

def contractCalls (contract : Contract) : List PlacedCall :=
  (contract.members.filterMap Member.callable?).flatMap (callableCalls contract.name)

def unitCalls (units : List SourceUnit) : List PlacedCall :=
  units.flatMap fun unit => unit.contracts.flatMap contractCalls

theorem contract_of_mem_contractCalls {contract : Contract} {call : PlacedCall}
    (member : call ∈ contractCalls contract) : call.contract = contract.name := by
  obtain ⟨callable, _, inCallable⟩ := List.mem_flatMap.mp member
  obtain ⟨item, _, inItem⟩ := List.mem_flatMap.mp inCallable
  obtain ⟨site, _, rfl⟩ := List.mem_map.mp inItem
  rfl

theorem contract_mem_of_mem_unitCalls {units : List SourceUnit} {call : PlacedCall}
    (member : call ∈ unitCalls units) : call.contract ∈ Collection.contractNames units := by
  obtain ⟨unit, isUnit, inUnit⟩ := List.mem_flatMap.mp member
  obtain ⟨contract, isContract, inContract⟩ := List.mem_flatMap.mp inUnit
  rw [contract_of_mem_contractCalls inContract]
  exact List.mem_flatMap.mpr ⟨unit, isUnit, List.mem_map_of_mem isContract⟩

/-- The scope in a body behind some declarations: a new one, in which only the
contract and the body were entered and the variables declared. -/
def bodyScope (context : Context) (contract : String) (declared : List Variable) : Scope :=
  declared.foldl Scope.declare (Scope.enterContract context {} contract).enterBody

namespace PlacedCall

def scope (context : Context) (call : PlacedCall) : Scope :=
  bodyScope context call.contract call.declared

/-- The edge that a call asks for, if it has a target. -/
def edge? (context : Context) (call : PlacedCall) : Option (Link × CallKind) :=
  match CallTarget.resolve context (call.scope context) call.site with
  | .drawn kind callee _ => some ((call.contract, callee), kind)
  | .omitted _ => none

theorem caller_of_edge? {context : Context} {call : PlacedCall} {edge : Link × CallKind}
    (asked : call.edge? context = some edge) : edge.1.1 = call.contract := by
  unfold edge? at asked
  split at asked
  next => rw [← Option.some.inj asked]
  next => contradiction

end PlacedCall

/-- The edges that the calls of source units ask for, in source order. -/
def callEdges (context : Context) (units : List SourceUnit) : List (Link × CallKind) :=
  (unitCalls units).filterMap (PlacedCall.edge? context)

end ContractCalls.Analysis
