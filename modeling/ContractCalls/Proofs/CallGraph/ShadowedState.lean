import ContractCalls.Proofs.CallGraph.EdgeKinds
import ContractCalls.Proofs.CallGraph.StateVariables

/-!
Contract: which variables of a body hide the state variables of their name.

Owns:
- programs without the state variables of one name, which have the same calls,
  the same bases and, variables aside, the same declarations;
- the variables of a body as look-ups in what it declares: the last declaration
  of a name counts among those whose type is tracked;
- the exact condition under which the declarations of a body hide a state
  variable from a member call on its name.

A declaration whose type is not tracked hides nothing, whatever it is called.
The type of `now` is fixed, so that a plain variable of this name is overlooked
and a state variable behind it is still found.
-/

set_option autoImplicit false

namespace ContractCalls.Table

variable {κ α β : Type} [DecidableEq κ]

theorem map_assign (key : κ) (value : α) (change : α → β) (entries : List (κ × α)) :
    (assign key value entries).map (fun entry => (entry.1, change entry.2)) =
      assign key (change value) (entries.map fun entry => (entry.1, change entry.2)) := by
  induction entries with
  | nil => rfl
  | cons entry rest inductionHypothesis =>
      obtain ⟨present, old⟩ := entry
      by_cases same : present = key
      · simp [assign, same]
      · simp [assign, same, inductionHypothesis]

end ContractCalls.Table

namespace ContractCalls.Solidity

/-! ### Programs without a state variable -/

/-- A contract without its state variables of a name. -/
def Contract.withoutState (name : String) (contract : Contract) : Contract :=
  { contract with
    members := contract.members.filter fun member => decide (member.variableName? ≠ some name) }

/-- A source unit without the state variables of a name. -/
def SourceUnit.withoutState (name : String) (unit : SourceUnit) : SourceUnit :=
  { unit with contracts := unit.contracts.map (Contract.withoutState name) }

theorem Member.callable?_of_variable {member : Member} {name : String}
    (isVariable : member.variableName? = some name) : member.callable? = none := by
  cases member with
  | stateVariable _ _ => rfl
  | _ => contradiction

/-- State variables hold no bodies. -/
theorem Contract.callables_withoutState (name : String) (contract : Contract) :
    (contract.withoutState name).members.filterMap Member.callable? =
      contract.members.filterMap Member.callable? := by
  unfold withoutState
  induction contract.members with
  | nil => rfl
  | cons member later inductionHypothesis =>
      by_cases isRemoved : member.variableName? = some name
      · rw [List.filter_cons_of_neg (by simp [isRemoved]), inductionHypothesis,
          List.filterMap_cons_none (Member.callable?_of_variable isRemoved)]
      · rw [List.filter_cons_of_pos (by simp [isRemoved]), List.filterMap_cons,
          List.filterMap_cons, inductionHypothesis]

/-- What a declaration makes of a name: the holding of a variable of this name
whose type is tracked.  The empty name is never that of a variable. -/
def Variable.tracked? (sought : String) (declared : Variable) : Option Holding :=
  if declared.name = some sought ∧ sought ≠ "" then declared.type.holding? else none

end ContractCalls.Solidity

namespace ContractCalls.Analysis

open ContractCalls.Solidity

theorem unitContracts_withoutState (name : String) (units : List SourceUnit) :
    unitContracts (units.map (SourceUnit.withoutState name)) =
      (unitContracts units).map (Contract.withoutState name) := by
  simp only [unitContracts, List.flatMap_map, List.map_flatMap, SourceUnit.withoutState]

theorem unitCalls_withoutState (name : String) (units : List SourceUnit) :
    unitCalls (units.map (SourceUnit.withoutState name)) = unitCalls units := by
  have sameCalls : ∀ contract : Contract,
      contractCalls (contract.withoutState name) = contractCalls contract := by
    intro contract
    unfold contractCalls
    rw [Contract.callables_withoutState]
    rfl
  simp only [unitCalls, List.flatMap_map, SourceUnit.withoutState, sameCalls]

/-! ### Declarations, variables aside -/

/-- A declaration without its variables. -/
def Declaration.withoutVariables (declaration : Declaration) : Declaration :=
  { declaration with plainVariables := {}, userDefinedVariables := {} }

namespace Declaration

theorem withoutVariables_addMember (declaration : Declaration) (member : Member) :
    (declaration.addMember member).withoutVariables =
      (declaration.withoutVariables.addMember member).withoutVariables := by
  cases member with
  | stateVariable name type =>
      dsimp only [addMember]
      split <;> rfl
  | function name kind callable =>
      dsimp only [addMember]
      split
      · rfl
      · split <;> rfl
  | _ => rfl

theorem withoutVariables_addVariable (declaration : Declaration) {member : Member} {name : String}
    (isVariable : member.variableName? = some name) :
    (declaration.addMember member).withoutVariables = declaration.withoutVariables := by
  cases member with
  | stateVariable _ _ =>
      dsimp only [addMember]
      split <;> rfl
  | _ => contradiction

theorem withoutVariables_foldl_filter (name : String) (members : List Member)
    {left right : Declaration} (same : left.withoutVariables = right.withoutVariables) :
    ((members.filter fun member => decide (member.variableName? ≠ some name)).foldl addMember
        left).withoutVariables = (members.foldl addMember right).withoutVariables := by
  induction members generalizing left right with
  | nil => exact same
  | cons member later inductionHypothesis =>
      rw [List.foldl_cons]
      by_cases isRemoved : member.variableName? = some name
      · rw [List.filter_cons_of_neg (by simp [isRemoved])]
        apply inductionHypothesis
        rw [withoutVariables_addVariable right isRemoved, same]
      · rw [List.filter_cons_of_pos (by simp [isRemoved]), List.foldl_cons]
        apply inductionHypothesis
        rw [withoutVariables_addMember left, withoutVariables_addMember right, same]

theorem withoutVariables_ofContract (name : String) (contract : Contract) :
    (ofContract (contract.withoutState name)).withoutVariables =
      (ofContract contract).withoutVariables :=
  withoutVariables_foldl_filter name contract.members rfl

end Declaration

/-- All declarations without their variables. -/
def Declarations.withoutVariables (declarations : Declarations) : Declarations :=
  ⟨declarations.entries.map fun entry => (entry.1, entry.2.withoutVariables)⟩

namespace Declarations

theorem find?_withoutVariables (declarations : Declarations) (name : String) :
    declarations.withoutVariables.find? name =
      (declarations.find? name).map Declaration.withoutVariables :=
  Table.lookup_map name Declaration.withoutVariables declarations.entries

theorem contains_withoutVariables (declarations : Declarations) (name : String) :
    declarations.withoutVariables.contains name = declarations.contains name := by
  rw [Table.contains, find?_withoutVariables, Option.isSome_map]
  rfl

theorem withoutVariables_add (declarations : Declarations) (declaration : Declaration) :
    (declarations.add declaration).withoutVariables =
      declarations.withoutVariables.add declaration.withoutVariables :=
  congrArg Table.mk (Table.map_assign _ _ Declaration.withoutVariables _)

theorem baseLists_withoutVariables (declarations : Declarations) :
    declarations.withoutVariables.baseLists = declarations.baseLists := by
  unfold baseLists withoutVariables
  rw [List.map_map]
  rfl

end Declarations

namespace Collection

theorem withoutVariables_foldl_addContract (name : String) (contracts : List Contract)
    {left right : Collection}
    (same : left.declarations.withoutVariables = right.declarations.withoutVariables) :
    ((contracts.map (Contract.withoutState name)).foldl addContract
        left).declarations.withoutVariables =
      (contracts.foldl addContract right).declarations.withoutVariables := by
  induction contracts generalizing left right with
  | nil => exact same
  | cons contract later inductionHypothesis =>
      apply inductionHypothesis
      unfold addContract
      rw [Declarations.withoutVariables_add, Declarations.withoutVariables_add,
        Declaration.withoutVariables_ofContract, same]

theorem withoutVariables_addUnits (name : String) (units : List SourceUnit) :
    (addUnits {} (units.map (SourceUnit.withoutState name))).declarations.withoutVariables =
      (addUnits {} units).declarations.withoutVariables := by
  rw [addUnits_eq_foldl, addUnits_eq_foldl, unitContracts_withoutState]
  exact withoutVariables_foldl_addContract name (unitContracts units) rfl

end Collection

theorem unitBases_withoutState (name : String) (units : List SourceUnit) :
    unitBases (units.map (SourceUnit.withoutState name)) = unitBases units := by
  unfold unitBases
  rw [← Declarations.baseLists_withoutVariables, Collection.withoutVariables_addUnits,
    Declarations.baseLists_withoutVariables]

/-! ### Calls see variables through their scope only -/

/-- A context without the variables of its declarations. -/
def Context.withoutVariables (context : Context) : Context :=
  { context with declarations := context.declarations.withoutVariables }

theorem unitContext_withoutState (omitLibraries : Bool) (name : String) (units : List SourceUnit)
    (orders : Linearization.Orders) :
    (unitContext omitLibraries (units.map (SourceUnit.withoutState name)) orders).withoutVariables =
      (unitContext omitLibraries units orders).withoutVariables := by
  unfold Context.withoutVariables unitContext
  dsimp only
  rw [Collection.withoutVariables_addUnits]

namespace CallTarget

section Variables

variable (context : Context) (scope : Scope)

theorem isDirect_withoutVariables (site : CallSite) :
    isDirect context.withoutVariables scope site = isDirect context scope site := by
  have sameNames : declaresEventOrStruct context.withoutVariables =
      declaresEventOrStruct context := by
    funext name contract
    unfold declaresEventOrStruct Context.withoutVariables
    rw [Declarations.find?_withoutVariables]
    cases context.declarations.find? contract <;> rfl
  have sameOrder : scope.order context.withoutVariables = scope.order context := rfl
  unfold isDirect
  rw [sameNames, sameOrder]
  simp only [Context.withoutVariables, Declarations.contains_withoutVariables]

theorem objectName?_withoutVariables (receiver : Expression) :
    objectName? context.withoutVariables receiver = objectName? context receiver := by
  unfold objectName?
  simp only [Context.withoutVariables, Declarations.contains_withoutVariables]

theorem attachedLibrary?_withoutVariables (type member : String) :
    attachedLibrary? context.withoutVariables scope type member =
      attachedLibrary? context scope type member := by
  have sameFunctions : libraryHas context.withoutVariables = libraryHas context := by
    funext member library
    unfold libraryHas Context.withoutVariables
    rw [Declarations.find?_withoutVariables]
    cases context.declarations.find? library <;> rfl
  unfold attachedLibrary?
  rw [sameFunctions]
  cases scope.current with
  | none => rfl
  | some contract =>
      simp only [Context.withoutVariables, Declarations.find?_withoutVariables,
        Option.bind_eq_bind, Option.bind_some, Option.bind_map]
      rfl

theorem ofTypedObject_withoutVariables (object type : Option String) (member : String) :
    ofTypedObject context.withoutVariables scope object type member =
      ofTypedObject context scope object type member := by
  unfold ofTypedObject
  simp only [attachedLibrary?_withoutVariables]
  rfl

theorem resolve_withoutVariables (site : CallSite) :
    resolve context.withoutVariables scope site = resolve context scope site := by
  unfold resolve ofSite ofMember
  simp only [isDirect_withoutVariables, objectName?_withoutVariables,
    ofTypedObject_withoutVariables]

end Variables

/-! ### Calls on a name -/

/-- Two scopes of one contract in which a member call on a name finds the same.
A plain variable decides by itself, unless the type of the name is fixed. -/
structure AlikeFor (name : String) (left right : Scope) : Prop where
  calling : left.calling = right.calling
  current : left.current = right.current
  plain : name ≠ "now" → left.isPlain name = right.isPlain name
  type : left.isPlain name = false ∨ name = "now" →
    left.userDefinedType? name = right.userDefinedType? name

theorem ofTypedObject_congr_scope (context : Context) {left right : Scope} {name : String}
    (sameCurrent : left.current = right.current)
    (sameType : left.userDefinedType? name = right.userDefinedType? name)
    (type : Option String) (member : String) :
    ofTypedObject context left (some name) type member =
      ofTypedObject context right (some name) type member := by
  have sameLibrary : attachedLibrary? context left = attachedLibrary? context right := by
    unfold attachedLibrary?
    rw [sameCurrent]
  have sameObject : ofObject context left name member = ofObject context right name member := by
    unfold ofObject Scope.order
    rw [sameCurrent, sameType]
  unfold ofTypedObject
  dsimp only
  rw [sameLibrary, sameObject]

theorem resolve_of_alikeFor (context : Context) {left right : Scope} {name : String}
    (alike : AlikeFor name left right) {site : CallSite} {member : String}
    (onName : site.callee = .member (.identifier name) member) :
    resolve context left site = resolve context right site := by
  have sameMember : ofMember context left (.identifier name) member =
      ofMember context right (.identifier name) member := by
    unfold ofMember
    by_cases isNow : name = "now"
    · have sameType := ofTypedObject_congr_scope context alike.current (alike.type (.inr isNow))
      simp only [fixedType?, objectName?, isNow, beq_self_eq_true, if_true]
      exact isNow ▸ sameType (some "uint256") member
    · have notFixed : fixedType? (.identifier name) = none := by simp [fixedType?, isNow]
      simp only [notFixed, objectName?]
      rw [← alike.plain isNow]
      cases isPlain : left.isPlain name with
      | true => rfl
      | false =>
          have sameType := alike.type (.inl isPlain)
          rw [← sameType]
          exact ofTypedObject_congr_scope context alike.current sameType _ member
  unfold resolve ofSite
  rw [alike.calling, onName]
  simp only [sameMember]

end CallTarget

/-! ### What a body declares -/

/-- What the last tracked declaration of a name holds. -/
def lastTracked? (declared : List Variable) (sought : String) : Option Holding :=
  declared.reverse.findSome? (Variable.tracked? sought)

/-- The declarations of a body hide state variables of a name: one of them is
tracked, and for the name with a fixed type the last of these is user-defined. -/
def Shadows (declared : List Variable) (sought : String) : Prop :=
  ∃ held, lastTracked? declared sought = some held ∧
    (sought = "now" → ∃ type, held = .userDefined type)

theorem lastTracked?_cons (first : Variable) (later : List Variable) (sought : String) :
    lastTracked? (first :: later) sought =
      (lastTracked? later sought).or (first.tracked? sought) := by
  unfold lastTracked?
  rw [List.reverse_cons, List.findSome?_append]
  simp

theorem lastTracked?_of_others {declared : List Variable} {sought : String}
    (others : ∀ each ∈ declared, each.name ≠ some sought) :
    lastTracked? declared sought = none := by
  apply List.findSome?_eq_none_iff.mpr
  intro each listed
  have other := others each (List.mem_reverse.mp listed)
  simp [Variable.tracked?, other]

namespace Scope

theorem find?_addLocal (scope : Scope) (name : String) (held : Holding) (sort : VariableSort) :
    ((scope.addLocal name held).localTable sort).find? name = sort.type? held := by
  cases held <;> cases sort <;> simp [addLocal, localTable, VariableSort.type?, Table.find?_erase]

/-- A tracked declaration takes the name out of the table of the other sort. -/
theorem find?_declare {scope : Scope} {contract : String} (inBody : scope.calling = some contract)
    (declared : Variable) (sought : String) (sort : VariableSort) :
    ((scope.declare declared).localTable sort).find? sought =
      (declared.tracked? sought).elim ((scope.localTable sort).find? sought)
        sort.type? := by
  by_cases named : declared.name = some sought
  · unfold declare Variable.tracked?
    rw [inBody, named]
    cases declared.type.holding? with
    | none => simp
    | some held =>
        by_cases isEmpty : sought = ""
        · simp [isEmpty]
        · have notEmpty : ¬ sought.isEmpty = true := fun empty =>
            isEmpty (String.isEmpty_iff.mp empty)
          dsimp only
          rw [if_neg notEmpty, if_pos ⟨rfl, isEmpty⟩]
          exact find?_addLocal scope sought held sort
  · have untracked : declared.tracked? sought = none := by
      simp [Variable.tracked?, named]
    rw [untracked]
    exact find?_declare_of_other scope named sort

theorem calling_declare (scope : Scope) (declared : Variable) :
    (scope.declare declared).calling = scope.calling := by
  obtain ⟨_, _, changed⟩ := foldl_declare_frame scope [declared]
  exact (congrArg Scope.calling changed :)

theorem find?_foldl_declare {scope : Scope} {contract : String}
    (inBody : scope.calling = some contract) (declared : List Variable) (sought : String)
    (sort : VariableSort) :
    ((declared.foldl declare scope).localTable sort).find? sought =
      (lastTracked? declared sought).elim ((scope.localTable sort).find? sought) sort.type? := by
  induction declared generalizing scope with
  | nil => rfl
  | cons first later inductionHypothesis =>
      have stillInBody := (calling_declare scope first).trans inBody
      rw [List.foldl_cons, inductionHypothesis stillInBody, find?_declare inBody,
        lastTracked?_cons]
      cases lastTracked? later sought <;> rfl

end Scope

/-- The variables of a body are found by its last tracked declarations alone. -/
theorem find?_localTable_bodyScope (context : Context) (contract : String)
    (declared : List Variable) (sought : String) (sort : VariableSort) :
    ((bodyScope context contract declared).localTable sort).find? sought =
      (lastTracked? declared sought).bind sort.type? := by
  obtain ⟨_, _, entered⟩ := Scope.enterContract_frame context contract
  have inBody : (Scope.enterContract context {} contract).enterBody.calling = some contract := by
    rw [entered]
    rfl
  have noneYet : ((Scope.enterContract context {} contract).enterBody.localTable sort).find?
      sought = none := by
    rw [entered]
    cases sort <;> rfl
  unfold bodyScope
  rw [Scope.find?_foldl_declare inBody, noneYet]
  cases lastTracked? declared sought <;> rfl

/-- A name has the user-defined type of its last tracked declaration or, if that
gives none, the one it has as a state variable. -/
theorem userDefinedType?_bodyScope (context : Context) (contract : String)
    (declared : List Variable) (sought : String) :
    (bodyScope context contract declared).userDefinedType? sought =
      ((lastTracked? declared sought).bind VariableSort.userDefined.type?).or
        ((Scope.enterContract context {} contract).userDefinedState.find? sought) := by
  have userDefinedLocal := find?_localTable_bodyScope context contract declared sought .userDefined
  obtain ⟨_, _, inside⟩ := bodyScope_frame context contract declared
  have sameState : (bodyScope context contract declared).userDefinedState =
      (Scope.enterContract context {} contract).userDefinedState := by rw [inside]
  dsimp only [Scope.localTable] at userDefinedLocal
  unfold Scope.userDefinedType?
  rw [userDefinedLocal, sameState]
  cases (lastTracked? declared sought).bind VariableSort.userDefined.type? <;> rfl

/-- A name is plain as its last tracked declaration is or, without one, as it is
among the state variables. -/
theorem isPlain_bodyScope (context : Context) (contract : String) (declared : List Variable)
    (sought : String) :
    (bodyScope context contract declared).isPlain sought =
      (lastTracked? declared sought).elim
        ((Scope.enterContract context {} contract).isPlain sought)
        fun held => (VariableSort.plain.type? held).isSome := by
  have plainLocal := find?_localTable_bodyScope context contract declared sought .plain
  have userDefinedLocal := find?_localTable_bodyScope context contract declared sought .userDefined
  obtain ⟨_, _, entered⟩ := Scope.enterContract_frame context contract
  obtain ⟨_, _, inside⟩ := bodyScope_frame context contract declared
  dsimp only [Scope.localTable] at plainLocal userDefinedLocal
  unfold Scope.isPlain Table.contains
  rw [plainLocal, userDefinedLocal, inside, entered]
  cases lastTracked? declared sought with
  | none => rfl
  | some held => cases held <;> rfl

/-! ### Shadowing -/

namespace PlacedCall

/-- The target of a call in its place. -/
def target (context : Context) (call : PlacedCall) : CallTarget :=
  CallTarget.resolve context (call.scope context) call.site

/-- A call in front of which nothing of a name is declared. -/
def undeclaring (name : String) (call : PlacedCall) : PlacedCall :=
  { call with declared := call.declared.filter fun each => decide (each.name ≠ some name) }

end PlacedCall

section Shadowing

variable {name : String} {declared : List Variable}

/-- Declarations that hide a name decide what it is, whatever state variables
there are. -/
theorem alikeFor_of_shadows (left right : Context) (contract : String)
    (shadows : Shadows declared name) :
    CallTarget.AlikeFor name (bodyScope left contract declared)
      (bodyScope right contract declared) := by
  obtain ⟨held, isLast, ofNow⟩ := shadows
  constructor
  case calling => rw [calling_bodyScope, calling_bodyScope]
  case current => rw [current_bodyScope, current_bodyScope]
  case plain =>
    intro _
    rw [isPlain_bodyScope, isPlain_bodyScope, isLast]
    rfl
  case type =>
    intro needed
    rw [isPlain_bodyScope, isLast] at needed
    rw [userDefinedType?_bodyScope, userDefinedType?_bodyScope, isLast]
    cases held with
    | userDefined type => rfl
    | plain type =>
        -- The type of a plain variable is not asked for, as the name has no fixed type.
        rcases needed with notPlain | isNow
        · contradiction
        · obtain ⟨_, isUserDefined⟩ := ofNow isNow
          contradiction

/-- Declarations that do not hide a name are as good as none of that name. -/
theorem alikeFor_of_not_shadows (context : Context) (contract : String)
    (notShadows : ¬ Shadows declared name) :
    CallTarget.AlikeFor name (bodyScope context contract declared)
      (bodyScope context contract
        (declared.filter fun each => decide (each.name ≠ some name))) := by
  have noneLeft : lastTracked? (declared.filter fun each => decide (each.name ≠ some name)) name =
      none := by
    apply lastTracked?_of_others
    intro each kept
    simpa using (List.mem_filter.mp kept).2
  -- Only a plain variable with the fixed name can be tracked without hiding.
  have overlooked : ∀ held, lastTracked? declared name = some held →
      name = "now" ∧ VariableSort.userDefined.type? held = none := by
    intro held isLast
    cases held with
    | plain type =>
        refine ⟨?_, rfl⟩
        by_contra notNow
        exact notShadows ⟨_, isLast, fun isNow => absurd isNow notNow⟩
    | userDefined type => exact absurd ⟨_, isLast, fun _ => ⟨type, rfl⟩⟩ notShadows
  constructor
  case calling => rw [calling_bodyScope, calling_bodyScope]
  case current => rw [current_bodyScope, current_bodyScope]
  case plain =>
    intro notNow
    rw [isPlain_bodyScope, isPlain_bodyScope, noneLeft]
    cases isLast : lastTracked? declared name with
    | none => rfl
    | some held => exact absurd (overlooked held isLast).1 notNow
  case type =>
    intro _
    rw [userDefinedType?_bodyScope, userDefinedType?_bodyScope, noneLeft]
    cases isLast : lastTracked? declared name with
    | none => rfl
    | some held =>
        rw [Option.bind_some, (overlooked held isLast).2]
        rfl

end Shadowing

/-- Take the state variables of a name out of a fresh program whose base map is
linearized.  Its calls stay, and a member call on that name keeps its target if
the declarations in front of it hide the name.  If they do not, the target is the
one that the call has without any of these declarations. -/
theorem analyze_local_shadows_state {units : List SourceUnit} {orders : Linearization.Orders}
    (linearized : Linearization.linearize (unitBases units) = .ok orders) (omitLibraries : Bool)
    (name : String) :
    ∃ analysis bareAnalysis context bareContext,
      analyze {} omitLibraries units = .ok analysis ∧
      analyze {} omitLibraries (units.map (SourceUnit.withoutState name)) = .ok bareAnalysis ∧
      context = { declarations := analysis.collection.declarations
                  orders := analysis.orders
                  omitLibraries } ∧
      bareContext = { declarations := bareAnalysis.collection.declarations
                      orders := bareAnalysis.orders
                      omitLibraries } ∧
      unitCalls (units.map (SourceUnit.withoutState name)) = unitCalls units ∧
      ∀ call ∈ unitCalls units, ∀ member,
        call.site.callee = .member (.identifier name) member →
          (Shadows call.declared name → call.target context = call.target bareContext) ∧
            (¬ Shadows call.declared name →
              call.target context = (call.undeclaring name).target context) := by
  have bareLinearized : Linearization.linearize
      (unitBases (units.map (SourceUnit.withoutState name))) = .ok orders := by
    rw [unitBases_withoutState]
    exact linearized
  refine ⟨_, _, unitContext omitLibraries units orders,
    unitContext omitLibraries (units.map (SourceUnit.withoutState name)) orders,
    analyze_of_linearize linearized omitLibraries,
    analyze_of_linearize bareLinearized omitLibraries, rfl, rfl, unitCalls_withoutState name units,
    ?_⟩
  intro call _ member onName
  constructor
  · intro shadows
    have alike := alikeFor_of_shadows (unitContext omitLibraries units orders)
      (unitContext omitLibraries (units.map (SourceUnit.withoutState name)) orders) call.contract
      shadows
    unfold PlacedCall.target
    rw [← CallTarget.resolve_withoutVariables (unitContext omitLibraries units orders),
      ← unitContext_withoutState omitLibraries name, CallTarget.resolve_withoutVariables]
    exact CallTarget.resolve_of_alikeFor _ alike onName
  · intro notShadows
    have alike := alikeFor_of_not_shadows (unitContext omitLibraries units orders) call.contract
      notShadows
    exact CallTarget.resolve_of_alikeFor _ alike onName

/-- A call `object.send()` in a contract, behind some declarations. -/
def sendCall (object : String) (declared : List Variable) : PlacedCall :=
  { contract := "Till"
    declared
    site := { callee := .member (.identifier object) "send", arguments := [], line := 3 } }

/-- Inherited state variables, a modifier that declares the name of one first with
a function type and then with a user-defined type, a function that does only the
first, and a function that declares the other name with a plain type. -/
def tillUnits : List SourceUnit :=
  [{ contracts := [
      { name := "Base"
        members := [
          .stateVariable "pay" (.userDefined "Token"),
          .stateVariable "now" (.userDefined "Clock")] },
      { name := "Till"
        bases := ["Base"]
        members := [
          .modifier "paid"
            { parameters := [{ name := some "pay", type := .function }]
              body := some [
                .declaration { name := some "pay", type := .userDefined "Vault" },
                .expression (.call (.member (.identifier "pay") "send") [] 3)] },
          .function (some "charge") .function
            { parameters := [{ name := some "pay", type := .function }]
              body := some [
                .expression (.call (.member (.identifier "pay") "send") [] 3)] },
          .function (some "wait") .function
            { parameters := [{ name := some "now", type := .elementary "uint" }]
              body := some [
                .expression (.call (.member (.identifier "now") "send") [] 3)] }] }] }]

def tillOrders : Linearization.Orders :=
  ⟨[("Base", ["Base"]), ("Till", ["Till", "Base"])]⟩

/-- The call in the modifier. -/
def paidCall : PlacedCall :=
  sendCall "pay" [{ name := some "pay", type := .function },
    { name := some "pay", type := .userDefined "Vault" }]

/-- The call behind a parameter of a function type. -/
def chargeCall : PlacedCall := sendCall "pay" [{ name := some "pay", type := .function }]

/-- The call behind a plain parameter whose name has a fixed type. -/
def waitCall : PlacedCall := sendCall "now" [{ name := some "now", type := .elementary "uint" }]

theorem unitCalls_tillUnits : unitCalls tillUnits = [paidCall, chargeCall, waitCall] := rfl

-- The proviso for `now` is needed: the plain parameter is tracked, and the state variable is seen.
example :
    waitCall.target (unitContext false tillUnits tillOrders) =
        .drawn .external (some "Clock") "send" ∧
      waitCall.target
          (unitContext false (tillUnits.map (SourceUnit.withoutState "now")) tillOrders) =
        .drawn .external (some "now") "send" :=
  ⟨rfl, rfl⟩

theorem analyze_local_shadows_state_till :
    Linearization.linearize (unitBases tillUnits) = .ok tillOrders ∧
      Shadows paidCall.declared "pay" ∧ ¬ Shadows chargeCall.declared "pay" ∧
      ∃ analysis bareAnalysis context bareContext,
        analyze {} false tillUnits = .ok analysis ∧
        analyze {} false (tillUnits.map (SourceUnit.withoutState "pay")) = .ok bareAnalysis ∧
        context = { declarations := analysis.collection.declarations
                    orders := analysis.orders
                    omitLibraries := false } ∧
        bareContext = { declarations := bareAnalysis.collection.declarations
                        orders := bareAnalysis.orders
                        omitLibraries := false } ∧
        paidCall ∈ unitCalls tillUnits ∧ chargeCall ∈ unitCalls tillUnits ∧
        paidCall.target context = paidCall.target bareContext ∧
        chargeCall.target context = (sendCall "pay" []).target context := by
  have linearized : Linearization.linearize (unitBases tillUnits) = .ok tillOrders := by decide +kernel
  have shadows : Shadows paidCall.declared "pay" := ⟨.userDefined "Vault", rfl, fun _ => ⟨_, rfl⟩⟩
  have notShadows : ¬ Shadows chargeCall.declared "pay" := by
    rintro ⟨held, isLast, _⟩
    contradiction
  have isPaid : paidCall ∈ unitCalls tillUnits := by
    rw [unitCalls_tillUnits]
    exact .head _
  have isCharge : chargeCall ∈ unitCalls tillUnits := by
    rw [unitCalls_tillUnits]
    exact .tail _ (.head _)
  obtain ⟨analysis, bareAnalysis, context, bareContext, success, bareSuccess, isContext,
    isBareContext, _, targets⟩ := analyze_local_shadows_state linearized false "pay"
  exact ⟨linearized, shadows, notShadows, analysis, bareAnalysis, context, bareContext, success,
    bareSuccess, isContext, isBareContext, isPaid, isCharge,
    (targets paidCall isPaid "send" rfl).1 shadows,
    (targets chargeCall isCharge "send" rfl).2 notShadows⟩

/-- A parameter of a function type does not hide the state variable of its name. -/
theorem state_seen_through_parameter_till :
    ∃ analysis bareAnalysis context bareContext,
      analyze {} false tillUnits = .ok analysis ∧
      analyze {} false (tillUnits.map (SourceUnit.withoutState "pay")) = .ok bareAnalysis ∧
      context = { declarations := analysis.collection.declarations
                  orders := analysis.orders
                  omitLibraries := false } ∧
      bareContext = { declarations := bareAnalysis.collection.declarations
                      orders := bareAnalysis.orders
                      omitLibraries := false } ∧
      chargeCall ∈ unitCalls tillUnits ∧
      (∃ declared ∈ chargeCall.declared, declared.name = some "pay") ∧
      chargeCall.target context = .drawn .external (some "Token") "send" ∧
      chargeCall.target bareContext = .drawn .external (some "pay") "send" := by
  have linearized : Linearization.linearize (unitBases tillUnits) = .ok tillOrders := by decide +kernel
  have bareLinearized : Linearization.linearize
      (unitBases (tillUnits.map (SourceUnit.withoutState "pay"))) = .ok tillOrders := by decide +kernel
  have isCharge : chargeCall ∈ unitCalls tillUnits := by
    rw [unitCalls_tillUnits]
    exact .tail _ (.head _)
  exact ⟨_, _, unitContext false tillUnits tillOrders,
    unitContext false (tillUnits.map (SourceUnit.withoutState "pay")) tillOrders,
    analyze_of_linearize linearized false, analyze_of_linearize bareLinearized false, rfl, rfl,
    isCharge, ⟨_, .head _, rfl⟩, rfl, rfl⟩

end ContractCalls.Analysis
