import ContractCalls.Proofs.CallGraph.PlacedCalls

/-!
Contract: the walk over source units draws each call in a scope of its own.

Owns:
- what entering, leaving and declaring leave alone in a scope;
- the two states in which a walk rests: the empty scope between contracts, and
  the scope of a contract that was just entered between its bodies;
- the simulation: a walk that rests, and the run over the placed calls, draw
  the same.
-/

set_option autoImplicit false

namespace ContractCalls.Analysis

open ContractCalls.Solidity

/-! ### What scopes forget -/

namespace Scope

/-- Declarations touch only the variables of the body. -/
theorem foldl_declare_frame (scope : Scope) (declared : List Variable) :
    ∃ plain userDefined, declared.foldl declare scope =
      { scope with plainLocals := plain, userDefinedLocals := userDefined } := by
  induction declared generalizing scope with
  | nil => exact ⟨scope.plainLocals, scope.userDefinedLocals, rfl⟩
  | cons first later inductionHypothesis =>
      obtain ⟨plain, userDefined, finished⟩ := inductionHypothesis (scope.declare first)
      refine ⟨plain, userDefined, ?_⟩
      rw [List.foldl_cons, finished]
      unfold declare
      split
      next name holding _ _ _ =>
        split
        · rfl
        · cases holding <;> rfl
      next => rfl

/-- State variables touch only the variables of the contract. -/
theorem foldl_addState_frame (context : Context) (contracts : List String) (scope : Scope) :
    ∃ plain userDefined, contracts.foldl (addState context) scope =
      { scope with plainState := plain, userDefinedState := userDefined } := by
  induction contracts generalizing scope with
  | nil => exact ⟨scope.plainState, scope.userDefinedState, rfl⟩
  | cons contract later inductionHypothesis =>
      obtain ⟨plain, userDefined, finished⟩ := inductionHypothesis (addState context scope contract)
      refine ⟨plain, userDefined, ?_⟩
      rw [List.foldl_cons, finished]
      unfold addState
      split <;> rfl

theorem enterContract_frame (context : Context) (contract : String) :
    ∃ plain userDefined, enterContract context {} contract =
      { current := some contract, plainState := plain, userDefinedState := userDefined } :=
  foldl_addState_frame context _ _

theorem leaveContract_enterContract (context : Context) (contract : String) :
    (enterContract context {} contract).leaveContract = {} := by
  obtain ⟨plain, userDefined, entered⟩ := enterContract_frame context contract
  rw [entered]
  rfl

end Scope

/-- A body is entered for its contract, and differs from it only in its own
variables. -/
theorem bodyScope_frame (context : Context) (contract : String) (declared : List Variable) :
    ∃ plain userDefined, bodyScope context contract declared =
      { Scope.enterContract context {} contract with
        calling := some contract, plainLocals := plain, userDefinedLocals := userDefined } := by
  obtain ⟨_, _, entered⟩ := Scope.enterContract_frame context contract
  unfold bodyScope
  rw [entered]
  exact Scope.foldl_declare_frame _ declared

theorem calling_bodyScope (context : Context) (contract : String) (declared : List Variable) :
    (bodyScope context contract declared).calling = some contract := by
  obtain ⟨_, _, inside⟩ := bodyScope_frame context contract declared
  exact congrArg Scope.calling inside

theorem leaveBody_bodyScope (context : Context) (contract : String) (declared : List Variable) :
    (bodyScope context contract declared).leaveBody = Scope.enterContract context {} contract := by
  obtain ⟨_, _, entered⟩ := Scope.enterContract_frame context contract
  obtain ⟨_, _, inside⟩ := bodyScope_frame context contract declared
  rw [inside, entered]
  rfl

/-! ### The walk and the placed calls -/

def Drawing.addPlaced (context : Context) (drawing : Drawing) (call : PlacedCall) : Drawing :=
  drawing.addCall context (call.scope context) call.site

namespace Walk

theorem foldl_declare (declared : List Variable) (scope : Scope) (drawing : Drawing) :
    declared.foldl declare { scope, drawing } =
      { scope := declared.foldl Scope.declare scope, drawing } := by
  induction declared generalizing scope with
  | nil => rfl
  | cons first later inductionHypothesis =>
      rw [List.foldl_cons, List.foldl_cons]
      exact inductionHypothesis (scope.declare first)

theorem addItem_eq (context : Context) (contract : String) (parameters : List Variable)
    (before later : List BodyItem) (item : BodyItem) (drawing : Drawing) :
    addItem context
        { scope := bodyScope context contract (parameters ++ before.filterMap BodyItem.declared?)
          drawing } item =
      { scope := bodyScope context contract
          (parameters ++ (before ++ [item]).filterMap BodyItem.declared?)
        drawing := (itemCalls contract parameters (before ++ item :: later)
          (item, before.length)).foldl (Drawing.addPlaced context) drawing } := by
  have here : (before ++ item :: later).take before.length = before := List.take_left
  -- A declaration is seen from then on, and the calls of an expression are
  -- drawn in the scope it stands in.
  cases item with
  | declaration declared =>
      unfold bodyScope
      rw [List.filterMap_append, ← List.append_assoc,
        List.foldl_append (l := parameters ++ before.filterMap BodyItem.declared?)]
      rfl
  | expression whole =>
      rw [itemCalls, List.foldl_map, BodyItem.calls, ← Expression.callSites_eq_filterMap, here,
        List.filterMap_append]
      simp only [List.filterMap_cons, List.filterMap_nil, BodyItem.declared?, List.append_nil]
      rfl

theorem foldl_addItem (context : Context) (contract : String) (parameters : List Variable)
    (before rest : List BodyItem) (drawing : Drawing) :
    rest.foldl (addItem context)
        { scope := bodyScope context contract (parameters ++ before.filterMap BodyItem.declared?)
          drawing } =
      { scope := bodyScope context contract
          (parameters ++ (before ++ rest).filterMap BodyItem.declared?)
        drawing := ((rest.zipIdx before.length).flatMap
          (itemCalls contract parameters (before ++ rest))).foldl
            (Drawing.addPlaced context) drawing } := by
  -- What has been walked over moves to `before`, so the whole body stays the same.
  induction rest generalizing before drawing with
  | nil => simp
  | cons item later inductionHypothesis =>
      have whole : before ++ item :: later = (before ++ [item]) ++ later := by simp
      have next : before.length + 1 = (before ++ [item]).length := by simp
      rw [List.foldl_cons, List.zipIdx_cons, List.flatMap_cons, List.foldl_append,
        addItem_eq context contract parameters before later item drawing, inductionHypothesis,
        ← next, ← whole]

/-- A body is left as it was entered, with its calls drawn. -/
theorem addCallable_eq (context : Context) (contract : String) (callable : Callable)
    (drawing : Drawing) :
    addCallable context { scope := Scope.enterContract context {} contract, drawing } callable =
      { scope := Scope.enterContract context {} contract
        drawing :=
          (callableCalls contract callable).foldl (Drawing.addPlaced context) drawing } := by
  have inside : callable.parameters.foldl declare
      { scope := (Scope.enterContract context {} contract).enterBody, drawing } =
        { scope := bodyScope context contract callable.parameters, drawing } :=
    foldl_declare _ _ _
  have finished :=
    foldl_addItem context contract callable.parameters [] (callable.body.getD []) drawing
  simp only [List.filterMap_nil, List.append_nil, List.nil_append, List.length_nil] at finished
  unfold addCallable
  dsimp only
  rw [inside, finished, leaveBody_bodyScope]
  rfl

theorem foldl_addMember (context : Context) (contract : String) (members : List Member)
    (drawing : Drawing) :
    members.foldl (addMember context)
        { scope := Scope.enterContract context {} contract, drawing } =
      { scope := Scope.enterContract context {} contract
        drawing := ((members.filterMap Member.callable?).flatMap (callableCalls contract)).foldl
          (Drawing.addPlaced context) drawing } := by
  induction members generalizing drawing with
  | nil => rfl
  | cons member later inductionHypothesis =>
      rw [List.foldl_cons, addMember]
      cases found : member.callable? with
      | none => rw [List.filterMap_cons_none found, inductionHypothesis]
      | some callable =>
          dsimp only
          rw [List.filterMap_cons_some found, List.flatMap_cons, List.foldl_append,
            addCallable_eq, inductionHypothesis]

theorem addContract_eq (context : Context) (contract : Contract) (drawing : Drawing) :
    addContract context { scope := {}, drawing } contract =
      { scope := {}
        drawing := (contractCalls contract).foldl (Drawing.addPlaced context) drawing } := by
  have finished := foldl_addMember context contract.name contract.members drawing
  unfold addContract
  dsimp only
  rw [finished, Scope.leaveContract_enterContract]
  rfl

theorem foldl_addContract (context : Context) (contracts : List Contract) (drawing : Drawing) :
    contracts.foldl (addContract context) { scope := {}, drawing } =
      { scope := {}
        drawing :=
          (contracts.flatMap contractCalls).foldl (Drawing.addPlaced context) drawing } := by
  induction contracts generalizing drawing with
  | nil => rfl
  | cons contract later inductionHypothesis =>
      rw [List.foldl_cons, List.flatMap_cons, List.foldl_append, addContract_eq,
        inductionHypothesis]

end Walk

theorem drawUnit_eq (context : Context) (graph : Graph) (unit : SourceUnit) :
    drawUnit context graph unit =
      (unit.contracts.flatMap contractCalls).foldl (Drawing.addPlaced context) { graph } := by
  unfold drawUnit
  rw [Walk.foldl_addContract]

end ContractCalls.Analysis
