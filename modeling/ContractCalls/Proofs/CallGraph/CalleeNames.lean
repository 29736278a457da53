import ContractCalls.Proofs.CallGraph.EdgeKinds
import ContractCalls.Proofs.CallGraph.StateVariables

/-!
Contract: where the names of the nodes of a call graph come from.

Owns:
- the spellings of a program: the names of its contracts, bases, identifiers and
  user-defined types, and its number literals;
- the variables and expressions that a placed call takes from its contract;
- the object behind a call to another contract;
- the names of nodes: a spelling, an address in figures, or flattened arguments.

Nothing is said of the names of members, events, structs, attached types and elementary
types, or of the texts of other expressions.  They decide which calls are drawn, but no
node is named after them.
-/

set_option autoImplicit false

namespace ContractCalls.Solidity

/-! ### The spellings of a program -/

/-- The user-defined types that a type mentions. -/
def TypeName.userDefinedNames : TypeName → List String
  | userDefined name => [name]
  | array element => element.userDefinedNames
  | mapping value => value.userDefinedNames
  | _ => []

namespace Expression

/-- The text of a name or a number. -/
def spelling? : Expression → Option String
  | identifier name => some name
  | number literal => some literal
  | _ => none

/-- The names and numbers in an expression, at any depth. -/
def spellings (expression : Expression) : List String :=
  expression.subexpressions.filterMap spelling?

end Expression

def BodyItem.spellings : BodyItem → List String
  | declaration declared => declared.type.userDefinedNames
  | expression whole => whole.spellings

def Callable.spellings (callable : Callable) : List String :=
  callable.parameters.flatMap (fun parameter => parameter.type.userDefinedNames) ++
    (callable.body.getD []).flatMap BodyItem.spellings

def Member.spellings : Member → List String
  | stateVariable _ type => type.userDefinedNames
  | function _ _ callable => callable.spellings
  | modifier _ callable => callable.spellings
  | _ => []

def Contract.spellings (contract : Contract) : List String :=
  contract.name :: (contract.bases ++ contract.members.flatMap Member.spellings)

/-! ### Spellings of parts -/

namespace Expression

mutual

theorem subexpressions_subset {part : Expression} :
    ∀ {whole : Expression}, part ∈ whole.subexpressions →
      part.subexpressions ⊆ whole.subexpressions
  | identifier _, isPart | number _, isPart | elementaryType _, isPart => by
      rw [List.mem_singleton.mp isPart]
      exact List.Subset.refl _
  | member object _, isPart => by
      rw [subexpressions] at isPart
      rcases List.mem_cons.mp isPart with rfl | inObject
      · exact List.Subset.refl _
      · exact List.subset_cons_of_subset _ (subexpressions_subset inObject)
  | call callee arguments _, isPart => by
      rw [subexpressions] at isPart
      rcases List.mem_cons.mp isPart with rfl | inParts
      · exact List.Subset.refl _
      · apply List.subset_cons_of_subset
        rcases List.mem_append.mp inParts with inCallee | inArguments
        · exact List.subset_append_of_subset_left _ (subexpressions_subset inCallee)
        · exact List.subset_append_of_subset_right _ (subexpressionsOf_subset inArguments)
  | other _ operands, isPart => by
      rw [subexpressions] at isPart
      rcases List.mem_cons.mp isPart with rfl | inOperands
      · exact List.Subset.refl _
      · exact List.subset_cons_of_subset _ (subexpressionsOf_subset inOperands)

theorem subexpressionsOf_subset {part : Expression} :
    ∀ {expressions : List Expression}, part ∈ subexpressionsOf expressions →
      part.subexpressions ⊆ subexpressionsOf expressions
  | [], isPart => absurd isPart List.not_mem_nil
  | expression :: rest, isPart => by
      rw [subexpressionsOf] at isPart ⊢
      rcases List.mem_append.mp isPart with inFirst | inRest
      · exact List.subset_append_of_subset_left _ (subexpressions_subset inFirst)
      · exact List.subset_append_of_subset_right _ (subexpressionsOf_subset inRest)

end

theorem mem_subexpressions_self (expression : Expression) :
    expression ∈ expression.subexpressions := by
  cases expression <;> simp [subexpressions]

@[simp]
theorem spellings_identifier (name : String) : (identifier name).spellings = [name] := rfl

@[simp]
theorem spellings_number (literal : String) : (number literal).spellings = [literal] := rfl

theorem spellings_subset {part whole : Expression} (isPart : part ∈ whole.subexpressions) :
    part.spellings ⊆ whole.spellings :=
  List.filterMap_subset spelling? (subexpressions_subset isPart)

theorem mem_subexpressionsOf {expression : Expression} {expressions : List Expression}
    (member : expression ∈ expressions) : expression ∈ subexpressionsOf expressions := by
  induction expressions with
  | nil => contradiction
  | cons first rest inductionHypothesis =>
      rw [subexpressionsOf]
      rcases List.mem_cons.mp member with rfl | inRest
      · exact List.mem_append_left _ (mem_subexpressions_self expression)
      · exact List.mem_append_right _ (inductionHypothesis inRest)

theorem eq_call_of_callSite? {expression : Expression} {site : CallSite}
    (isCall : expression.callSite? = some site) :
    expression = call site.callee site.arguments site.line := by
  cases expression with
  | call callee arguments line =>
      obtain rfl := Option.some.inj isCall
      rfl
  | _ => contradiction

end Expression

/-- Only a type that is itself user-defined makes a variable hold one. -/
theorem TypeName.eq_userDefined_of_holding? {type : TypeName} {name : String}
    (holds : type.holding? = some (.userDefined name)) : type = .userDefined name := by
  have neverPlain : ∀ text, plainOf text ≠ some (.userDefined name) := by
    intro text
    unfold plainOf
    split <;> simp
  cases type with
  | userDefined given =>
      dsimp only [holding?] at holds
      split at holds
      · contradiction
      · simpa using holds
  | elementary given => exact absurd holds (neverPlain given)
  | array element => exact absurd holds (neverPlain _)
  | mapping value => exact absurd holds (neverPlain _)
  | function => contradiction
  | unclassified given => contradiction

end ContractCalls.Solidity

namespace ContractCalls.Analysis

open ContractCalls.Solidity

/-- A text that some contract of a program spells. -/
def Spelled (units : List SourceUnit) (text : String) : Prop :=
  ∃ contract ∈ unitContracts units, text ∈ contract.spellings

section Contracts

variable {units : List SourceUnit} {contract : Contract} {member : Member} {text : String}

theorem spelled_of_contractName (isName : text ∈ Collection.contractNames units) :
    Spelled units text := by
  rw [contractNames_eq_map] at isName
  obtain ⟨contract, isContract, rfl⟩ := List.mem_map.mp isName
  exact ⟨contract, isContract, by simp [Contract.spellings]⟩

theorem spelled_of_base (isContract : contract ∈ unitContracts units)
    (isBase : text ∈ contract.bases) : Spelled units text :=
  ⟨contract, isContract, by simp [Contract.spellings, isBase]⟩

theorem spelled_of_member (isContract : contract ∈ unitContracts units)
    (isMember : member ∈ contract.members) (spells : text ∈ member.spellings) :
    Spelled units text := by
  refine ⟨contract, isContract, ?_⟩
  have inMembers : text ∈ contract.members.flatMap Member.spellings :=
    List.mem_flatMap.mpr ⟨member, isMember, spells⟩
  simp [Contract.spellings, inMembers]

end Contracts

/-! ### What a placed call takes from its contract -/

theorem spellings_of_callable? {member : Member} {callable : Callable}
    (found : member.callable? = some callable) : member.spellings = callable.spellings := by
  cases member <;> simp_all [Member.callable?, Member.spellings]

/-- The contract of a call spells the user-defined types of the variables that are declared
before the call, and the names and numbers in the call. -/
theorem spelled_of_mem_unitCalls {units : List SourceUnit} {call : PlacedCall}
    (isCall : call ∈ unitCalls units) :
    (∀ declared ∈ call.declared, ∀ name ∈ declared.type.userDefinedNames, Spelled units name) ∧
      ∀ text ∈ (Expression.call call.site.callee call.site.arguments call.site.line).spellings,
        Spelled units text := by
  obtain ⟨unit, isUnit, inUnit⟩ := List.mem_flatMap.mp isCall
  obtain ⟨contract, isContract, inContract⟩ := List.mem_flatMap.mp inUnit
  obtain ⟨callable, isCallable, inCallable⟩ := List.mem_flatMap.mp inContract
  obtain ⟨item, isItem, inItem⟩ := List.mem_flatMap.mp inCallable
  obtain ⟨site, isSite, rfl⟩ := List.mem_map.mp inItem
  obtain ⟨member, isMember, found⟩ := List.mem_filterMap.mp isCallable
  have spelled : ∀ text ∈ callable.spellings, Spelled units text := by
    intro text spells
    have listed : contract ∈ unitContracts units := List.mem_flatMap.mpr ⟨unit, isUnit, isContract⟩
    exact spelled_of_member listed isMember (spellings_of_callable? found ▸ spells)
  have spelledInBody : ∀ each ∈ callable.body.getD [], ∀ text ∈ each.spellings,
      Spelled units text := by
    intro each isEach text spells
    apply spelled
    exact List.mem_append_right _ (List.mem_flatMap.mpr ⟨each, isEach, spells⟩)
  constructor
  · intro declared isDeclared name mentioned
    rcases List.mem_append.mp isDeclared with isParameter | isLocal
    · apply spelled
      exact List.mem_append_left _ (List.mem_flatMap.mpr ⟨declared, isParameter, mentioned⟩)
    · obtain ⟨each, isEach, declares⟩ := List.mem_filterMap.mp isLocal
      cases each with
      | declaration given =>
          obtain rfl := Option.some.inj declares
          exact spelledInBody _ (List.mem_of_mem_take isEach) name mentioned
      | expression _ => contradiction
  · intro text spells
    obtain ⟨each, position⟩ := item
    have isEach : each ∈ callable.body.getD [] := List.fst_mem_of_mem_zipIdx isItem
    cases each with
    | declaration _ => contradiction
    | expression whole =>
        obtain ⟨part, isPart, isSite⟩ := List.mem_filterMap.mp isSite
        rw [← Expression.eq_call_of_callSite? isSite] at spells
        exact spelledInBody _ isEach text (Expression.spellings_subset isPart spells)

/-! ### Bases -/

namespace Declaration

theorem addMember_bases (declaration : Declaration) (member : Member) :
    (declaration.addMember member).bases = declaration.bases := by
  unfold addMember
  split
  next => split <;> rfl
  next =>
    split
    · rfl
    · split <;> rfl
  all_goals rfl

theorem foldl_addMember_bases (declaration : Declaration) (members : List Member) :
    (members.foldl addMember declaration).bases = declaration.bases := by
  induction members generalizing declaration with
  | nil => rfl
  | cons member later inductionHypothesis =>
      rw [List.foldl_cons, inductionHypothesis, addMember_bases]

theorem ofContract_bases (contract : Contract) : (ofContract contract).bases = contract.bases :=
  foldl_addMember_bases _ contract.members

end Declaration

/-! ### The types of variables -/

namespace Scope

theorem type_of_declare {scope : Scope} {declared : Variable} {sought type : String}
    (found : (scope.declare declared).userDefinedLocals.find? sought = some type) :
    declared.type = .userDefined type ∨ scope.userDefinedLocals.find? sought = some type := by
  unfold declare at found
  split at found
  next name holding _ _ holds =>
    split at found
    next => exact Or.inr found
    next =>
      cases holding with
      | plain held =>
          dsimp only [addLocal] at found
          rw [Table.find?_erase] at found
          split at found
          next => contradiction
          next => exact Or.inr found
      | userDefined held =>
          dsimp only [addLocal] at found
          rw [Table.find?_insert] at found
          split at found
          next =>
            rw [← Option.some.inj found]
            exact Or.inl (TypeName.eq_userDefined_of_holding? holds)
          next => exact Or.inr found
  next => exact Or.inr found

theorem type_of_foldl_declare {scope : Scope} {declared : List Variable} {sought type : String}
    (found : (declared.foldl declare scope).userDefinedLocals.find? sought = some type) :
    (∃ each ∈ declared, each.type = .userDefined type) ∨
      scope.userDefinedLocals.find? sought = some type := by
  induction declared generalizing scope with
  | nil => exact Or.inr found
  | cons first later inductionHypothesis =>
      rcases inductionHypothesis found with ⟨each, isLater, hasType⟩ | earlier
      · exact Or.inl ⟨each, List.mem_cons_of_mem first isLater, hasType⟩
      · rcases type_of_declare earlier with ofFirst | before
        · exact Or.inl ⟨first, List.mem_cons_self, ofFirst⟩
        · exact Or.inr before

end Scope

theorem type_mem_spellings {contract : Contract} {sought type : String}
    (found : (Declaration.ofContract contract).userDefinedVariables.find? sought = some type) :
    ∃ member ∈ contract.members, type ∈ member.spellings := by
  have recorded := Declaration.find?_foldl_addMember
    { name := contract.name, kind := contract.kind, bases := contract.bases } contract.members
    .userDefined sought
  have declared := recorded.symm.trans found
  rw [Option.or_eq_some_iff] at declared
  rcases declared with ofMembers | ⟨_, before⟩
  · obtain ⟨held, listed, ofSort⟩ := List.exists_of_findSome?_eq_some ofMembers
    obtain ⟨member, isMember, holds⟩ := List.mem_filterMap.mp (List.mem_reverse.mp listed)
    refine ⟨member, isMember, ?_⟩
    cases held with
    | plain _ => contradiction
    | userDefined given =>
        obtain rfl : given = type := Option.some.inj ofSort
        cases member with
        | stateVariable name declaredType =>
            dsimp only [Member.holds?] at holds
            split at holds
            next =>
              rw [TypeName.eq_userDefined_of_holding? holds]
              exact List.mem_singleton.mpr rfl
            next => contradiction
        | _ => contradiction
  · contradiction

theorem spelled_of_stateType {units : List SourceUnit} {orders : Linearization.Orders}
    {omitLibraries : Bool} {contract sought type : String}
    (found : (Scope.enterContract (unitContext omitLibraries units orders) {}
      contract).userDefinedState.find? sought = some type) : Spelled units type := by
  have tablesDistinct := tablesDistinct_unitContext omitLibraries units orders
  have gathered := Scope.find?_enterContract tablesDistinct contract .userDefined sought
  obtain ⟨ancestor, _, declares⟩ := List.exists_of_findSome?_eq_some (gathered.symm.trans found)
  obtain ⟨declaration, declared, held⟩ := Option.bind_eq_some_iff.mp declares
  obtain ⟨definition, isDefinition, _, rfl⟩ := exists_definition_of_declared declared
  obtain ⟨member, isMember, spells⟩ := type_mem_spellings held
  exact spelled_of_member isDefinition isMember spells

theorem spelled_of_userDefinedType? {units : List SourceUnit} {orders : Linearization.Orders}
    {omitLibraries : Bool} {call : PlacedCall} (isCall : call ∈ unitCalls units)
    {object type : String}
    (found : (call.scope (unitContext omitLibraries units orders)).userDefinedType? object =
      some type) : Spelled units type := by
  obtain ⟨_, _, entered⟩ :=
    Scope.enterContract_frame (unitContext omitLibraries units orders) call.contract
  obtain ⟨_, _, inside⟩ :=
    bodyScope_frame (unitContext omitLibraries units orders) call.contract call.declared
  unfold Scope.userDefinedType? at found
  split at found
  next held isLocal =>
    obtain rfl := Option.some.inj found
    rcases Scope.type_of_foldl_declare isLocal with ⟨each, isDeclared, hasType⟩ | before
    · apply (spelled_of_mem_unitCalls isCall).1 each isDeclared
      simp [hasType, TypeName.userDefinedNames]
    · rw [entered] at before
      contradiction
  next =>
    have sameState : (call.scope (unitContext omitLibraries units orders)).userDefinedState =
        (Scope.enterContract (unitContext omitLibraries units orders) {}
          call.contract).userDefinedState := by
      unfold PlacedCall.scope
      rw [inside]
    rw [sameState] at found
    exact spelled_of_stateType found

/-! ### The object behind a call -/

namespace CallTarget

/-- A call to another contract goes to the type of the object or, if it has none, to the
object itself. -/
def NamesObject (scope : Scope) (object : Option String) : CallTarget → Prop
  | .drawn .external callee _ =>
      ∃ name, object = some name ∧ callee = some ((scope.userDefinedType? name).getD name)
  | _ => True

section Objects

variable (context : Context) (scope : Scope)

theorem namesObject_ofObject (object member : String) :
    NamesObject scope (some object) (ofObject context scope object member) := by
  unfold ofObject
  split
  next => trivial
  next =>
    split
    next => split <;> trivial
    next => exact ⟨object, rfl, rfl⟩

theorem namesObject_ofTypedObject (object type : Option String) (member : String) :
    NamesObject scope object (ofTypedObject context scope object type member) := by
  unfold ofTypedObject
  split
  next => split <;> trivial
  next =>
    split
    next => trivial
    next name => exact namesObject_ofObject context scope name member

theorem namesObject_ofMember (receiver : Expression) (member : String) :
    NamesObject scope (objectName? context receiver) (ofMember context scope receiver member) := by
  have typed := namesObject_ofTypedObject context scope (objectName? context receiver)
  unfold ofMember
  dsimp only
  split
  next => exact typed _ member
  next =>
    split
    next noObject =>
      rw [noObject] at typed ⊢
      exact typed none member
    next name isObject =>
      split
      next => trivial
      next =>
        rw [isObject] at typed ⊢
        exact typed _ member

end Objects

theorem exists_receiver_of_external {context : Context} {scope : Scope} {site : CallSite}
    {callee : Option String} {member : String}
    (resolved : resolve context scope site = .drawn .external callee member) :
    ∃ receiver name object, site.callee = .member receiver name ∧
      objectName? context receiver = some object ∧
      callee = some ((scope.userDefinedType? object).getD object) := by
  unfold resolve at resolved
  split at resolved
  next => contradiction
  next =>
    unfold ofSite at resolved
    split at resolved
    next => split at resolved <;> simp at resolved
    next receiver name isMember =>
      split at resolved
      next =>
        have named := namesObject_ofMember context scope receiver name
        rw [resolved] at named
        obtain ⟨object, isObject, isCallee⟩ := named
        exact ⟨receiver, name, object, isMember, isObject, isCallee⟩
      next => contradiction
    next => contradiction

end CallTarget

/-! ### The names of nodes -/

/-- What the name of a node can be made of. -/
inductive NodeSource (units : List SourceUnit) : String → Prop where
  | spelled {text : String} (spells : Spelled units text) : NodeSource units text
  | address {literal : String} (spells : Spelled units literal) :
      NodeSource units ("address(" ++ literal ++ ")")
  | arguments (expressions : List Expression) : NodeSource units (flattenArguments expressions)

theorem nodeSource_of_convertedObject? {units : List SourceUnit} {arguments : List Expression}
    {object : String}
    (spells : ∀ argument ∈ arguments, ∀ text ∈ argument.spellings, Spelled units text)
    (found : CallTarget.convertedObject? arguments = some object) : NodeSource units object := by
  unfold CallTarget.convertedObject? at found
  split at found
  next => contradiction
  next name _ =>
    obtain rfl := Option.some.inj found
    exact .spelled (spells (.identifier name) (by simp) name (by simp))
  next literal _ =>
    obtain rfl := Option.some.inj found
    exact .address (spells (.number literal) (by simp) literal (by simp))
  next =>
    obtain rfl := Option.some.inj found
    exact .arguments _

theorem nodeSource_of_objectName? {units : List SourceUnit} {context : Context}
    {receiver : Expression} {object : String}
    (spells : ∀ text ∈ receiver.spellings, Spelled units text)
    (found : CallTarget.objectName? context receiver = some object) : NodeSource units object := by
  unfold CallTarget.objectName? at found
  split at found
  next name =>
    obtain rfl := Option.some.inj found
    exact .spelled (spells name (by simp))
  next type arguments line =>
    split at found
    next =>
      refine nodeSource_of_convertedObject? ?_ found
      intro argument isArgument text spelled
      have isPart : argument ∈
          (Expression.call (.elementaryType type) arguments line).subexpressions := by
        have inArguments := Expression.mem_subexpressionsOf isArgument
        simp [Expression.subexpressions, inArguments]
      exact spells text (Expression.spellings_subset isPart spelled)
    next => contradiction
  next name arguments line =>
    split at found
    next =>
      obtain rfl := Option.some.inj found
      exact .spelled (spells name (by simp [Expression.spellings, Expression.subexpressions,
        Expression.spelling?]))
    next => contradiction
  next => contradiction

theorem nodeSource_of_external {units : List SourceUnit} {orders : Linearization.Orders}
    {omitLibraries : Bool} {call : PlacedCall} (isCall : call ∈ unitCalls units)
    {callee member : String}
    (resolved : CallTarget.resolve (unitContext omitLibraries units orders)
      (call.scope (unitContext omitLibraries units orders)) call.site =
        .drawn .external (some callee) member) :
    NodeSource units callee := by
  obtain ⟨receiver, name, object, isMember, isObject, isCallee⟩ :=
    CallTarget.exists_receiver_of_external resolved
  obtain rfl := Option.some.inj isCallee
  cases hasType :
      (call.scope (unitContext omitLibraries units orders)).userDefinedType? object with
  | some type => exact .spelled (spelled_of_userDefinedType? isCall hasType)
  | none =>
      refine nodeSource_of_objectName? ?_ isObject
      intro text spells
      have isPart : receiver ∈ (Expression.call call.site.callee call.site.arguments
          call.site.line).subexpressions := by
        have inMember := receiver.mem_subexpressions_self
        simp [isMember, Expression.subexpressions, inMember]
      exact (spelled_of_mem_unitCalls isCall).2 text (Expression.spellings_subset isPart spells)

theorem nodeSource_of_mem_callEdges {units : List SourceUnit} {orders : Linearization.Orders}
    (linearized : Linearization.linearize (unitBases units) = .ok orders) {omitLibraries : Bool}
    {edge : Link × CallKind}
    (asked : edge ∈ callEdges (unitContext omitLibraries units orders) units) {callee : String}
    (isCallee : edge.1.2 = some callee) : NodeSource units callee := by
  have justified := kindJustified_of_mem_callEdges linearized omitLibraries asked
  have callerSpelled := spelled_of_contractName (ends_of_mem_callEdges asked).1
  obtain ⟨⟨caller, _⟩, kind⟩ := edge
  obtain rfl := isCallee
  cases kind with
  | noTarget => exact justified.elim
  | internal => exact .spelled (Option.some.inj justified ▸ callerSpelled)
  | this => exact .spelled (Option.some.inj justified ▸ callerSpelled)
  | super =>
      obtain ⟨declaration, base, found, last, isBase, _⟩ := justified
      obtain rfl := Option.some.inj isBase
      obtain ⟨definition, isDefinition, _, rfl⟩ := exists_definition_of_declared found
      rw [Declaration.ofContract_bases] at last
      exact .spelled (spelled_of_base isDefinition (List.mem_of_getLast? last))
  | library =>
      obtain ⟨_, _, _, library, libraryDeclaration, _, _, _, found, _, isLibrary⟩ := justified
      obtain rfl := Option.some.inj isLibrary
      obtain ⟨definition, isDefinition, rfl, _⟩ := exists_definition_of_declared found
      exact .spelled ⟨definition, isDefinition, by simp [Contract.spellings]⟩
  | external =>
      obtain ⟨call, isCall, asks⟩ := List.mem_filterMap.mp asked
      unfold PlacedCall.edge? at asks
      split at asks
      next resolved =>
        obtain ⟨⟨_, rfl⟩, rfl⟩ : (_ ∧ _) ∧ _ := by simpa using asks
        exact nodeSource_of_external isCall resolved
      next => contradiction

/-- Every node of a fresh program whose base map is linearized has such a name. -/
theorem nodeSource_of_mem_nodes {units : List SourceUnit} {orders : Linearization.Orders}
    (linearized : Linearization.linearize (unitBases units) = .ok orders) {omitLibraries : Bool}
    {name : String}
    (isNode : name ∈ (freshAnalysis omitLibraries units orders).graph.nodes.keys) :
    NodeSource units name := by
  have nodes := nodes_drawUnits (unitContext omitLibraries units orders) units
  unfold Table.keys freshAnalysis at isNode
  dsimp only at isNode
  rw [nodes, statelessNodes, List.map_append, List.map_map, List.map_map] at isNode
  rcases List.mem_append.mp isNode with isDeclared | isCallee
  · have listed : name ∈ (Collection.contractNames units).eraseDups := by simpa using isDeclared
    exact .spelled (spelled_of_contractName (List.mem_eraseDups.mp listed))
  · have listed : name ∈ ((statelessEdges (unitContext omitLibraries units orders)
        units).filterMap fun edge => edge.1.2).filter
          (fun callee => !(Collection.contractNames units).contains callee) := by
      simpa [List.mem_eraseDups] using isCallee
    obtain ⟨edge, drawn, leads⟩ := List.mem_filterMap.mp (List.mem_filter.mp listed).1
    exact nodeSource_of_mem_callEdges linearized (Table.mem_of_mem_firstEntries drawn) leads

end ContractCalls.Analysis
