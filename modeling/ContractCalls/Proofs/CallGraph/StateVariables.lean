import ContractCalls.Proofs.CallGraph.Refinement

/-!
Contract: the state variables that a body sees, against what contracts declare.

Owns:
- what the last definition of a contract declares a variable to hold, and the
  closest of these declarations along an ancestor order;
- the two tables of a declaration, and the two tables of a scope, as look-ups in
  the definitions;
- the exact condition under which the closest declaration is the one a body sees.

Plain variables and variables of user-defined types are kept apart, and each sort
is searched along the whole order.  So the closest declaration is seen unless it
is plain and an ancestor behind it declares the name with a user-defined type.
-/

set_option autoImplicit false

namespace ContractCalls.Solidity

/-! ### What a contract declares -/

/-- The two sorts of types that are kept apart. -/
inductive VariableSort where
  | plain
  | userDefined
  deriving Repr, DecidableEq

/-- The type of a variable, if it is of a sort. -/
def VariableSort.type? : VariableSort → Holding → Option String
  | plain, .plain type => some type
  | userDefined, .userDefined type => some type
  | _, _ => none

namespace Member

/-- The state variable that a member declares. -/
def variableName? : Member → Option String
  | stateVariable name _ => some name
  | _ => none

/-- What a member declares a state variable to hold, if its type is tracked. -/
def holds? (sought : String) : Member → Option Holding
  | stateVariable name type => if name = sought then type.holding? else none
  | _ => none

theorem variableName?_of_holds? {sought : String} {member : Member} {held : Holding}
    (holds : member.holds? sought = some held) : member.variableName? = some sought := by
  cases member with
  | stateVariable name type =>
      dsimp only [holds?] at holds
      split at holds
      next same => exact congrArg some same
      next => contradiction
  | _ => contradiction

end Member

namespace Contract

/-- A contract that declares no state variable twice. -/
def VariablesDistinct (contract : Contract) : Prop :=
  (contract.members.filterMap Member.variableName?).Nodup

instance (contract : Contract) : Decidable contract.VariablesDistinct :=
  inferInstanceAs (Decidable (List.Nodup _))

def holding? (contract : Contract) (sought : String) : Option Holding :=
  contract.members.findSome? (Member.holds? sought)

theorem filterMap_holds? {members : List Member}
    (distinct : (members.filterMap Member.variableName?).Nodup) (sought : String) :
    members.filterMap (Member.holds? sought) =
      (members.findSome? (Member.holds? sought)).toList := by
  induction members with
  | nil => rfl
  | cons member later inductionHypothesis =>
      cases holds : member.holds? sought with
      | none =>
          have laterDistinct : (later.filterMap Member.variableName?).Nodup := by
            refine distinct.sublist ?_
            exact (List.sublist_cons_self member later).filterMap _
          rw [List.filterMap_cons_none holds, inductionHypothesis laterDistinct,
            List.findSome?_cons, holds]
      | some held =>
          have named := Member.variableName?_of_holds? holds
          rw [List.filterMap_cons_some named] at distinct
          -- No later member declares the name again.
          have noneLater : later.filterMap (Member.holds? sought) = [] := by
            rw [List.filterMap_eq_nil_iff]
            intro other isLater
            cases again : other.holds? sought with
            | none => rfl
            | some _ =>
                have namedAgain := Member.variableName?_of_holds? again
                have listed := List.mem_filterMap.mpr ⟨other, isLater, namedAgain⟩
                exact absurd listed (List.nodup_cons.mp distinct).1
          rw [List.filterMap_cons_some holds, noneLater, List.findSome?_cons, holds]
          rfl

end Contract

end ContractCalls.Solidity

namespace ContractCalls.Analysis

open ContractCalls.Solidity

/-! ### The tables of a declaration -/

namespace Declaration

/-- The variables of a sort. -/
def stateTable (declaration : Declaration) : VariableSort → Table String String
  | .plain => declaration.plainVariables
  | .userDefined => declaration.userDefinedVariables

/-- Each table of variables lists a name once. -/
def TablesDistinct (declaration : Declaration) : Prop :=
  ∀ sort, (declaration.stateTable sort).keys.Nodup

/-- A member is recorded by the sort of its type, in front of what was there. -/
theorem find?_addMember (declaration : Declaration) (member : Member) (sort : VariableSort)
    (sought : String) :
    ((declaration.addMember member).stateTable sort).find? sought =
      ((member.holds? sought).bind sort.type?).or ((declaration.stateTable sort).find? sought) := by
  cases member with
  | stateVariable name type =>
      dsimp only [addMember, Member.holds?]
      cases type.holding? with
      | none => simp
      | some held =>
          by_cases same : name = sought
          · cases held <;> cases sort <;> simp [same, stateTable, VariableSort.type?]
          · cases held <;> cases sort <;> simp [same, stateTable, Table.find?_insert]
  | function name kind callable =>
      dsimp only [addMember]
      split
      · rfl
      · split <;> cases sort <;> rfl
  | modifier name callable => rfl
  | event name => cases sort <;> rfl
  | struct name => cases sort <;> rfl
  | usingFor library type => cases sort <;> rfl

theorem TablesDistinct.addMember {declaration : Declaration}
    (distinct : declaration.TablesDistinct) (member : Member) :
    (declaration.addMember member).TablesDistinct := by
  intro sort
  have unchanged := distinct sort
  cases member with
  | stateVariable name type =>
      dsimp only [Declaration.addMember]
      cases type.holding? with
      | none => exact unchanged
      | some held =>
          have changed : ∀ type, ((declaration.stateTable sort).insert name type).keys.Nodup :=
            fun type => Table.nodup_keys_insert _ name type unchanged
          match held, sort with
          | .plain type, .plain => exact changed type
          | .plain _, .userDefined => exact unchanged
          | .userDefined _, .plain => exact unchanged
          | .userDefined type, .userDefined => exact changed type
  | function name kind callable =>
      dsimp only [Declaration.addMember]
      split
      · exact unchanged
      · split <;> cases sort <;> exact unchanged
  | modifier name callable => exact unchanged
  | event name => cases sort <;> exact unchanged
  | struct name => cases sort <;> exact unchanged
  | usingFor library type => cases sort <;> exact unchanged

theorem find?_foldl_addMember (declaration : Declaration) (members : List Member)
    (sort : VariableSort) (sought : String) :
    ((members.foldl addMember declaration).stateTable sort).find? sought =
      ((members.filterMap (Member.holds? sought)).reverse.findSome? sort.type?).or
        ((declaration.stateTable sort).find? sought) := by
  induction members generalizing declaration with
  | nil => rfl
  | cons member later inductionHypothesis =>
      rw [List.foldl_cons, inductionHypothesis, find?_addMember, ← Option.or_assoc]
      cases holds : member.holds? sought with
      | none => simp [List.filterMap_cons_none holds]
      | some held => simp [List.filterMap_cons_some holds, List.findSome?_append]

theorem tablesDistinct_ofContract (contract : Contract) : (ofContract contract).TablesDistinct := by
  have start : TablesDistinct
      { name := contract.name, kind := contract.kind, bases := contract.bases } := by
    intro sort
    cases sort <;> exact List.nodup_nil
  unfold ofContract
  generalize ({ name := contract.name, kind := contract.kind, bases := contract.bases } :
    Declaration) = declaration at start
  induction contract.members generalizing declaration with
  | nil => exact start
  | cons member later inductionHypothesis =>
      exact inductionHypothesis _ (start.addMember member)

theorem find?_ofContract {contract : Contract} (distinct : contract.VariablesDistinct)
    (sort : VariableSort) (sought : String) :
    ((ofContract contract).stateTable sort).find? sought =
      (contract.holding? sought).bind sort.type? := by
  have start : (stateTable { name := contract.name, kind := contract.kind, bases := contract.bases }
      sort).find? sought = none := by
    cases sort <;> rfl
  unfold ofContract
  rw [find?_foldl_addMember, Contract.filterMap_holds? distinct, Contract.holding?, start,
    Option.or_none]
  cases contract.members.findSome? (Member.holds? sought) <;> simp

end Declaration

/-! ### The tables of a scope -/

namespace Scope

/-- The state variables of a sort. -/
def stateTable (scope : Scope) : VariableSort → Table String String
  | .plain => scope.plainState
  | .userDefined => scope.userDefinedState

/-- The local variables of a sort. -/
def localTable (scope : Scope) : VariableSort → Table String String
  | .plain => scope.plainLocals
  | .userDefined => scope.userDefinedLocals

section Ancestors

variable {context : Context}
  (distinct : ∀ name declaration, context.declarations.find? name = some declaration →
    declaration.TablesDistinct)

include distinct

theorem find?_addState (scope : Scope) (contract : String) (sort : VariableSort)
    (sought : String) :
    ((addState context scope contract).stateTable sort).find? sought =
      ((context.declarations.find? contract).bind
        fun declaration => (declaration.stateTable sort).find? sought).or
          ((scope.stateTable sort).find? sought) := by
  unfold addState
  cases found : context.declarations.find? contract with
  | none => rfl
  | some declaration =>
      have merged := Table.find?_merge_of_nodup (scope.stateTable sort)
        (distinct contract declaration found sort) sought
      cases sort <;> exact merged

/-- Contracts that are gathered later come first in look-ups. -/
theorem find?_foldl_addState (scope : Scope) (contracts : List String) (sort : VariableSort)
    (sought : String) :
    ((contracts.foldl (addState context) scope).stateTable sort).find? sought =
      (contracts.reverse.findSome? fun contract =>
        (context.declarations.find? contract).bind
          fun declaration => (declaration.stateTable sort).find? sought).or
            ((scope.stateTable sort).find? sought) := by
  induction contracts generalizing scope with
  | nil => rfl
  | cons contract later inductionHypothesis =>
      rw [List.foldl_cons, inductionHypothesis, find?_addState distinct, ← Option.or_assoc,
        List.reverse_cons, List.findSome?_append]
      simp

theorem find?_enterContract (contract : String) (sort : VariableSort) (sought : String) :
    ((enterContract context {} contract).stateTable sort).find? sought =
      (context.order contract).findSome? fun ancestor =>
        (context.declarations.find? ancestor).bind
          fun declaration => (declaration.stateTable sort).find? sought := by
  have gathered := find?_foldl_addState distinct { current := some contract }
    (context.order contract).reverse sort sought
  rw [List.reverse_reverse] at gathered
  refine gathered.trans ?_
  cases sort <;> exact Option.or_none

end Ancestors

theorem find?_declare_of_other (scope : Scope) {declared : Variable} {sought : String}
    (other : declared.name ≠ some sought) (sort : VariableSort) :
    ((scope.declare declared).localTable sort).find? sought = (scope.localTable sort).find? sought := by
  unfold declare
  split
  next name holding _ named _ =>
    have different : name ≠ sought := fun same => other (same ▸ named)
    split
    · rfl
    · cases holding <;> cases sort <;>
        simp [addLocal, localTable, Table.find?_insert, Table.find?_erase, different]
  next => rfl

theorem find?_foldl_declare_of_others (scope : Scope) {declared : List Variable} {sought : String}
    (others : ∀ each ∈ declared, each.name ≠ some sought) (sort : VariableSort) :
    ((declared.foldl declare scope).localTable sort).find? sought =
      (scope.localTable sort).find? sought := by
  induction declared generalizing scope with
  | nil => rfl
  | cons first later inductionHypothesis =>
      have inLater := inductionHypothesis (scope.declare first)
        fun each member => others each (List.mem_cons_of_mem first member)
      exact inLater.trans (find?_declare_of_other scope (others first List.mem_cons_self) sort)

end Scope

/-- A body that declares no variable of a name sees the state variables of its
contract under that name. -/
theorem lookups_bodyScope (context : Context) (contract : String) {declared : List Variable}
    {sought : String} (others : ∀ each ∈ declared, each.name ≠ some sought) :
    (bodyScope context contract declared).userDefinedType? sought =
        (Scope.enterContract context {} contract).userDefinedState.find? sought ∧
      ((bodyScope context contract declared).isPlain sought = true ↔
        (Scope.enterContract context {} contract).userDefinedState.find? sought = none ∧
          (Scope.enterContract context {} contract).plainState.contains sought = true) := by
  obtain ⟨_, _, entered⟩ := Scope.enterContract_frame context contract
  obtain ⟨_, _, inside⟩ := bodyScope_frame context contract declared
  have noLocal : ∀ sort, ((bodyScope context contract declared).localTable sort).find? sought =
      none := by
    intro sort
    refine (Scope.find?_foldl_declare_of_others _ others sort).trans ?_
    rw [entered]
    cases sort <;> rfl
  have noPlainLocal : (bodyScope context contract declared).plainLocals.find? sought = none :=
    noLocal .plain
  have noUserDefinedLocal :
      (bodyScope context contract declared).userDefinedLocals.find? sought = none :=
    noLocal .userDefined
  have userDefinedState : (bodyScope context contract declared).userDefinedState =
      (Scope.enterContract context {} contract).userDefinedState := by rw [inside]
  have plainState : (bodyScope context contract declared).plainState =
      (Scope.enterContract context {} contract).plainState := by rw [inside]
  constructor
  · unfold Scope.userDefinedType?
    rw [noUserDefinedLocal, userDefinedState]
  · unfold Scope.isPlain
    rw [userDefinedState, plainState, Table.contains, noPlainLocal, Table.contains,
      noUserDefinedLocal, Table.contains]
    cases (Scope.enterContract context {} contract).userDefinedState.find? sought <;> simp

/-! ### The closest declaration -/

/-- The definition of a contract that counts: the last one of its name. -/
def definition? (units : List SourceUnit) (name : String) : Option Contract :=
  (unitContracts units).reverse.find? fun contract => contract.name = name

/-- What a contract itself declares a state variable to hold. -/
def declaredHolding? (units : List SourceUnit) (sought contract : String) : Option Holding :=
  (definition? units contract).bind fun definition => definition.holding? sought

/-- What the first contract of an order that declares a state variable declares
it to hold. -/
def closestHolding? (units : List SourceUnit) (order : List String) (sought : String) :
    Option Holding :=
  order.findSome? (declaredHolding? units sought)

/-- The first type of a sort that a state variable is declared with along an
order. -/
def closestType? (sort : VariableSort) (units : List SourceUnit) (order : List String)
    (sought : String) : Option String :=
  order.findSome? fun contract => (declaredHolding? units sought contract).bind sort.type?

/-- What a body takes a state variable to hold: any user-defined type along the
order goes before all plain ones. -/
def seenHolding? (units : List SourceUnit) (order : List String) (sought : String) :
    Option Holding :=
  ((closestType? .userDefined units order sought).map Holding.userDefined).or
    ((closestType? .plain units order sought).map Holding.plain)

/-- The closest declaration is plain, and the order also has a declaration with a
user-defined type. -/
def PlainHidden (units : List SourceUnit) (order : List String) (sought : String) : Prop :=
  (∃ type, closestHolding? units order sought = some (.plain type)) ∧
    ∃ ancestor ∈ order, ∃ type,
      declaredHolding? units sought ancestor = some (.userDefined type)

/-- A scope sees a name as the given declaration has it: plain exactly if that is
plain, and with its user-defined type, if any. -/
def SeenAs (scope : Scope) (sought : String) (holding : Option Holding) : Prop :=
  (scope.isPlain sought = true ↔ ∃ type, holding = some (.plain type)) ∧
    scope.userDefinedType? sought = holding.bind VariableSort.userDefined.type?

section Orders

variable {units : List SourceUnit} {order : List String} {sought : String}

theorem closestType?_of_closestHolding? {held : Holding} {type : String}
    (sort : VariableSort) (closest : closestHolding? units order sought = some held)
    (ofSort : sort.type? held = some type) : closestType? sort units order sought = some type := by
  obtain ⟨before, contract, after, rfl, declares, earlier⟩ :=
    List.findSome?_eq_some_iff.mp closest
  refine List.findSome?_eq_some_iff.mpr ⟨before, contract, after, rfl, ?_, ?_⟩
  · rw [declares]
    exact ofSort
  · intro other isEarlier
    rw [earlier other isEarlier]
    rfl

theorem closestType?_of_undeclared (undeclared : closestHolding? units order sought = none)
    (sort : VariableSort) : closestType? sort units order sought = none := by
  refine List.findSome?_eq_none_iff.mpr ?_
  intro contract listed
  rw [List.findSome?_eq_none_iff.mp undeclared contract listed]
  rfl

theorem exists_of_closestType?_userDefined {type : String}
    (found : closestType? .userDefined units order sought = some type) :
    ∃ ancestor ∈ order, ∃ type,
      declaredHolding? units sought ancestor = some (.userDefined type) := by
  obtain ⟨ancestor, listed, declares⟩ := List.exists_of_findSome?_eq_some found
  obtain ⟨held, isHeld, _⟩ := Option.bind_eq_some_iff.mp declares
  refine ⟨ancestor, listed, ?_⟩
  cases held with
  | plain _ => contradiction
  | userDefined declared => exact ⟨declared, isHeld⟩

theorem seenHolding?_of_not_hidden (notHidden : ¬ PlainHidden units order sought) :
    seenHolding? units order sought = closestHolding? units order sought := by
  unfold seenHolding?
  cases closest : closestHolding? units order sought with
  | none =>
      rw [closestType?_of_undeclared closest, closestType?_of_undeclared closest]
      rfl
  | some held =>
      cases held with
      | userDefined type =>
          rw [closestType?_of_closestHolding? .userDefined closest rfl]
          rfl
      | plain type =>
          cases found : closestType? .userDefined units order sought with
          | none =>
              rw [closestType?_of_closestHolding? .plain closest rfl]
              rfl
          | some _ =>
              exact absurd ⟨⟨type, closest⟩, exists_of_closestType?_userDefined found⟩ notHidden

theorem seenHolding?_of_hidden (hidden : PlainHidden units order sought) :
    ∃ type, seenHolding? units order sought = some (.userDefined type) := by
  obtain ⟨_, ancestor, listed, type, declares⟩ := hidden
  unfold seenHolding?
  cases found : closestType? .userDefined units order sought with
  | none =>
      have undeclared := List.findSome?_eq_none_iff.mp found ancestor listed
      rw [declares] at undeclared
      contradiction
  | some closest => exact ⟨closest, rfl⟩

end Orders

/-- A scope that sees a name by its sort sees it as the closest
declaration has it unless that one is hidden. -/
theorem seenAs_closestHolding?_iff {units : List SourceUnit} {order : List String}
    {sought : String} {scope : Scope}
    (seen : SeenAs scope sought (seenHolding? units order sought)) :
    SeenAs scope sought (closestHolding? units order sought) ↔
      ¬ PlainHidden units order sought := by
  constructor
  · intro seenClosest hidden
    obtain ⟨type, isSeen⟩ := seenHolding?_of_hidden hidden
    obtain ⟨⟨plainType, isClosest⟩, _⟩ := hidden
    have typeSeen := seen.2
    rw [seenClosest.2, isSeen, isClosest] at typeSeen
    contradiction
  · intro notHidden
    rw [← seenHolding?_of_not_hidden notHidden]
    exact seen

theorem find?_declarations_eq_definition? (units : List SourceUnit) (name : String) :
    (Collection.addUnits {} units).declarations.find? name =
      (definition? units name).map Declaration.ofContract := by
  rw [Collection.find?_declarations_addUnits, declarationEntries, ← List.map_reverse, definition?]
  induction (unitContracts units).reverse with
  | nil => rfl
  | cons contract later inductionHypothesis =>
      rw [List.map_cons, Table.lookup, List.find?_cons, inductionHypothesis]
      by_cases same : contract.name = name
      · simp [same]
      · simp [same]

theorem exists_definition_of_declared {units : List SourceUnit} {name : String}
    {declaration : Declaration}
    (found : (Collection.addUnits {} units).declarations.find? name = some declaration) :
    ∃ definition ∈ unitContracts units, definition.name = name ∧
      declaration = Declaration.ofContract definition := by
  rw [find?_declarations_eq_definition?] at found
  obtain ⟨definition, defined, rfl⟩ := Option.map_eq_some_iff.mp found
  have named : definition.name = name := by simpa using List.find?_some defined
  exact ⟨definition, List.mem_reverse.mp (List.mem_of_find?_eq_some defined), named, rfl⟩

theorem tablesDistinct_unitContext (omitLibraries : Bool) (units : List SourceUnit)
    (orders : Linearization.Orders) (name : String) (declaration : Declaration)
    (found : (unitContext omitLibraries units orders).declarations.find? name = some declaration) :
    declaration.TablesDistinct := by
  obtain ⟨definition, _, _, rfl⟩ := exists_definition_of_declared found
  exact Declaration.tablesDistinct_ofContract definition

section Program

variable {units : List SourceUnit}
  (distinct : ∀ contract ∈ unitContracts units, contract.VariablesDistinct)

include distinct

theorem find?_declared (sort : VariableSort) (sought contract : String) :
    (((Collection.addUnits {} units).declarations.find? contract).bind
        fun declaration => (declaration.stateTable sort).find? sought) =
      (declaredHolding? units sought contract).bind sort.type? := by
  rw [find?_declarations_eq_definition?, declaredHolding?]
  cases found : definition? units contract with
  | none => rfl
  | some definition =>
      have defined : definition ∈ unitContracts units :=
        List.mem_reverse.mp (List.mem_of_find?_eq_some found)
      exact Declaration.find?_ofContract (distinct definition defined) sort sought

theorem find?_stateTable (omitLibraries : Bool) (orders : Linearization.Orders)
    (contract : String) (sort : VariableSort) (sought : String) :
    ((Scope.enterContract (unitContext omitLibraries units orders) {} contract).stateTable
        sort).find? sought =
      closestType? sort units ((unitContext omitLibraries units orders).order contract) sought := by
  have tablesDistinct := tablesDistinct_unitContext omitLibraries units orders
  rw [Scope.find?_enterContract tablesDistinct, closestType?]
  simp only [unitContext, find?_declared distinct]

theorem seenAs_seenHolding? (omitLibraries : Bool) (orders : Linearization.Orders)
    (contract : String) {declared : List Variable} {sought : String}
    (others : ∀ each ∈ declared, each.name ≠ some sought) :
    SeenAs (bodyScope (unitContext omitLibraries units orders) contract declared) sought
      (seenHolding? units ((unitContext omitLibraries units orders).order contract) sought) := by
  have plainState := find?_stateTable distinct omitLibraries orders contract .plain sought
  have userDefinedState :=
    find?_stateTable distinct omitLibraries orders contract .userDefined sought
  dsimp only [Scope.stateTable] at plainState userDefinedState
  obtain ⟨userDefined, plain⟩ :=
    lookups_bodyScope (unitContext omitLibraries units orders) contract others
  unfold SeenAs seenHolding?
  rw [userDefined, plain, Table.contains, plainState, userDefinedState]
  cases closestType? .userDefined units _ sought with
  | some type => simp [VariableSort.type?]
  | none => cases closestType? .plain units _ sought <;> simp [VariableSort.type?]

end Program

/-- In a fresh program whose base map is linearized and whose contracts declare
no state variable twice, a body without a variable of its own of a name sees that
name by sort first and by closeness second.  So it sees the closest declaration
exactly if that is not a plain one with a user-defined one behind it. -/
theorem analyze_closest_variable_seen_iff {units : List SourceUnit} {orders : Linearization.Orders}
    (linearized : Linearization.linearize (unitBases units) = .ok orders)
    (distinct : ∀ contract ∈ unitContracts units, contract.VariablesDistinct)
    (omitLibraries : Bool) :
    ∃ analysis context, analyze {} omitLibraries units = .ok analysis ∧
      context = { declarations := analysis.collection.declarations
                  orders := analysis.orders
                  omitLibraries } ∧
      ∀ contract declared sought, (∀ each ∈ declared, each.name ≠ some sought) →
        SeenAs (bodyScope context contract declared) sought
            (seenHolding? units (context.order contract) sought) ∧
          (SeenAs (bodyScope context contract declared) sought
              (closestHolding? units (context.order contract) sought) ↔
            ¬ PlainHidden units (context.order contract) sought) := by
  refine ⟨_, unitContext omitLibraries units orders,
    analyze_of_linearize linearized omitLibraries, rfl, ?_⟩
  intro contract declared sought others
  have seen := seenAs_seenHolding? distinct omitLibraries orders contract others
  exact ⟨seen, seenAs_closestHolding?_iff seen⟩

/-- A contract that declares two inherited names anew, each with a type of the
other kind. -/
def derivedUnits : List SourceUnit :=
  [{ contracts := [
      { name := "Base"
        members := [
          .stateVariable "x" (.userDefined "Token"),
          .stateVariable "y" (.elementary "uint256")] },
      { name := "Derived"
        bases := ["Base"]
        members := [
          .stateVariable "x" (.elementary "uint256"),
          .stateVariable "y" (.userDefined "Vault")] }] }]

def derivedOrders : Linearization.Orders :=
  ⟨[("Base", ["Base"]), ("Derived", ["Derived", "Base"])]⟩

theorem analyze_closest_variable_seen_derived :
    Linearization.linearize (unitBases derivedUnits) = .ok derivedOrders ∧
      (∀ contract ∈ unitContracts derivedUnits, contract.VariablesDistinct) ∧
      ∃ analysis context, analyze {} false derivedUnits = .ok analysis ∧
        context = { declarations := analysis.collection.declarations
                    orders := analysis.orders
                    omitLibraries := false } ∧
        SeenAs (bodyScope context "Derived" []) "y" (some (.userDefined "Vault")) ∧
        SeenAs (bodyScope context "Derived" []) "x" (some (.userDefined "Token")) ∧
        ¬ SeenAs (bodyScope context "Derived" []) "x"
          (closestHolding? derivedUnits (context.order "Derived") "x") := by
  have linearized : Linearization.linearize (unitBases derivedUnits) = .ok derivedOrders := by decide +kernel
  have distinct : ∀ contract ∈ unitContracts derivedUnits, contract.VariablesDistinct := by
    decide
  obtain ⟨analysis, context, success, isContext, seen⟩ :=
    analyze_closest_variable_seen_iff linearized distinct false
  have order : context.order "Derived" = ["Derived", "Base"] := by
    obtain rfl := Except.ok.inj (success.symm.trans (analyze_of_linearize linearized false))
    rw [isContext]
    rfl
  refine ⟨linearized, distinct, analysis, context, success, isContext, ?_, ?_, ?_⟩
  · have seenVault := (seen "Derived" [] "y" (by simp)).1
    rw [order] at seenVault
    exact seenVault
  · have seenToken := (seen "Derived" [] "x" (by simp)).1
    rw [order] at seenToken
    exact seenToken
  · intro seenClosest
    refine (seen "Derived" [] "x" (by simp)).2.mp seenClosest ?_
    rw [order]
    exact ⟨⟨"uint256", rfl⟩, "Base", by simp, "Token", rfl⟩

/-- The closest declaration is plain and the body does not see it so. -/
theorem closest_variable_hidden_derived :
    ∃ analysis context, analyze {} false derivedUnits = .ok analysis ∧
      context = { declarations := analysis.collection.declarations
                  orders := analysis.orders
                  omitLibraries := false } ∧
      closestHolding? derivedUnits (context.order "Derived") "x" = some (.plain "uint256") ∧
      (bodyScope context "Derived" []).isPlain "x" = false ∧
      (bodyScope context "Derived" []).userDefinedType? "x" = some "Token" := by
  have linearized : Linearization.linearize (unitBases derivedUnits) = .ok derivedOrders := by decide +kernel
  exact ⟨_, unitContext false derivedUnits derivedOrders, analyze_of_linearize linearized false,
    rfl, rfl, rfl, rfl⟩

end ContractCalls.Analysis
