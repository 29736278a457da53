import ContractCalls.Proofs.CallGraph.PlacedCalls

/-!
Contract: resolution reads its context through look-ups alone.

Owns the agreement of two contexts on every look-up, and the fact that calls
then have the same scopes, targets and edges in both, one statement for each
function that reads the context.
-/

set_option autoImplicit false

namespace ContractCalls.Analysis

open ContractCalls.Solidity

/-- Two contexts that answer every question alike, whatever the order of their
entries. -/
structure Context.Agrees (left right : Context) : Prop where
  declarations : ∀ name, left.declarations.find? name = right.declarations.find? name
  orders : ∀ name, left.orders.find? name = right.orders.find? name
  omitLibraries : left.omitLibraries = right.omitLibraries

section Agreement

variable {left right : Context} (agrees : left.Agrees right)

include agrees

theorem contains_congr (name : String) :
    left.declarations.contains name = right.declarations.contains name := by
  unfold Table.contains
  rw [agrees.declarations]

theorem order_congr (contract : String) : left.order contract = right.order contract := by
  unfold Context.order
  rw [agrees.orders]

theorem scopeOrder_congr (scope : Scope) : scope.order left = scope.order right := by
  unfold Scope.order
  split
  · rfl
  · exact order_congr agrees _

/-! ### Scopes -/

theorem addState_congr : Scope.addState left = Scope.addState right := by
  funext scope contract
  unfold Scope.addState
  rw [agrees.declarations]

theorem bodyScope_congr (contract : String) (declared : List Variable) :
    bodyScope left contract declared = bodyScope right contract declared := by
  unfold bodyScope Scope.enterContract
  rw [order_congr agrees, addState_congr agrees]

/-! ### Targets -/

namespace CallTarget

theorem declaresEventOrStruct_congr (name : String) :
    declaresEventOrStruct left name = declaresEventOrStruct right name := by
  funext contract
  unfold declaresEventOrStruct
  rw [agrees.declarations]

theorem isDirect_congr (scope : Scope) (site : CallSite) :
    isDirect left scope site = isDirect right scope site := by
  unfold isDirect
  split
  · rw [contains_congr agrees, scopeOrder_congr agrees, declaresEventOrStruct_congr agrees]
  · rfl

theorem objectName?_congr (receiver : Expression) :
    objectName? left receiver = objectName? right receiver := by
  unfold objectName?
  simp only [contains_congr agrees]

theorem libraryHas_congr (member : String) : libraryHas left member = libraryHas right member := by
  funext library
  unfold libraryHas
  rw [agrees.declarations]

theorem attachedLibrary?_congr (scope : Scope) (type member : String) :
    attachedLibrary? left scope type member = attachedLibrary? right scope type member := by
  unfold attachedLibrary?
  simp only [agrees.declarations, libraryHas_congr agrees]

theorem ofObject_congr (scope : Scope) (object member : String) :
    ofObject left scope object member = ofObject right scope object member := by
  unfold ofObject
  rw [scopeOrder_congr agrees]

theorem ofTypedObject_congr (scope : Scope) (object type : Option String) (member : String) :
    ofTypedObject left scope object type member = ofTypedObject right scope object type member := by
  unfold ofTypedObject
  simp only [attachedLibrary?_congr agrees, ofObject_congr agrees, agrees.omitLibraries]

theorem ofMember_congr (scope : Scope) (receiver : Expression) (member : String) :
    ofMember left scope receiver member = ofMember right scope receiver member := by
  unfold ofMember
  simp only [objectName?_congr agrees, ofTypedObject_congr agrees]

theorem resolve_congr (scope : Scope) (site : CallSite) :
    resolve left scope site = resolve right scope site := by
  unfold resolve ofSite
  simp only [isDirect_congr agrees, ofMember_congr agrees]

end CallTarget

/-- Calls ask for the same edges in contexts that agree. -/
theorem edge?_congr : PlacedCall.edge? left = PlacedCall.edge? right := by
  funext call
  unfold PlacedCall.edge? PlacedCall.scope
  rw [bodyScope_congr agrees, CallTarget.resolve_congr agrees]

end Agreement

end ContractCalls.Analysis
