import ContractCalls.Proofs.CallGraph.Refinement
import ContractCalls.Proofs.Rewriting
import Mathlib.Data.Bool.Basic

/-!
Contract: the two spellings of the widest integers make no difference.

Owns:
- the changes of a source that an analysis cannot see: they keep what each type
  holds, the key of each directive, and the line and target of each call;
- the canonical spelling of a source, which is such a change;
- the law for two sources with one canonical spelling.

A conversion to an address that a member is called on is left as it is written: the
text of its arguments becomes the name of a node.  Everywhere else no text of an
expression is looked at, so the canonical form drops the text of forms that are not
looked into.
-/

set_option autoImplicit false

namespace ContractCalls.Analysis

open ContractCalls.Solidity

/-! ### Changes that cannot be seen -/

/-- What the drawing of a call depends on. -/
def siteView (context : Context) (scope : Scope) (site : CallSite) : Nat × CallTarget :=
  (site.line, CallTarget.resolve context scope site)

structure Invisible (rewriting : Rewriting) : Prop where
  type : ∀ type, (rewriting.type type).holding? = type.holding?
  attached : ∀ type,
    Declaration.attachmentKey (rewriting.attached type) = Declaration.attachmentKey type
  expression : ∀ context scope whole,
    (rewriting.expression whole).callSites.map (siteView context scope) =
      whole.callSites.map (siteView context scope)

namespace Invisible

variable {rewriting : Rewriting} (invisible : Invisible rewriting)

include invisible

/-! #### Declarations -/

theorem addMember_onMember (declaration : Declaration) (member : Member) :
    declaration.addMember (rewriting.onMember member) = declaration.addMember member := by
  cases member with
  | stateVariable name type =>
      simp only [Rewriting.onMember, Declaration.addMember, invisible.type]
  | usingFor library type =>
      simp only [Rewriting.onMember, Declaration.addMember, Declaration.attachLibrary,
        invisible.attached]
  | _ => rfl

theorem ofContract_onContract (contract : Contract) :
    Declaration.ofContract (rewriting.onContract contract) = Declaration.ofContract contract := by
  simp only [Declaration.ofContract, Rewriting.onContract, List.foldl_map,
    addMember_onMember invisible]

theorem addUnits_onUnit (collection : Collection) (units : List SourceUnit) :
    collection.addUnits (units.map rewriting.onUnit) = collection.addUnits units := by
  have sameContract : ∀ (collection : Collection) (contract : Contract),
      collection.addContract (rewriting.onContract contract) = collection.addContract contract := by
    intro collection contract
    rw [Collection.addContract, ofContract_onContract invisible]
    rfl
  have sameUnit : ∀ (collection : Collection) (unit : SourceUnit),
      collection.addUnit (rewriting.onUnit unit) = collection.addUnit unit := by
    intro collection unit
    simp only [Collection.addUnit, Rewriting.onUnit, List.foldl_map, sameContract]
  simp only [Collection.addUnits, List.foldl_map, sameUnit]

/-! #### The walk -/

theorem declare_onVariable (scope : Scope) (declared : Variable) :
    scope.declare (rewriting.onVariable declared) = scope.declare declared := by
  simp only [Scope.declare, Rewriting.onVariable, invisible.type]

theorem addExpression_rewritten (context : Context) (scope : Scope) (drawing : Drawing)
    (whole : Expression) :
    drawing.addExpression context scope (rewriting.expression whole) =
      drawing.addExpression context scope whole := by
  have throughView : ∀ sites : List CallSite,
      sites.foldl (Drawing.addCall context scope) drawing =
        (sites.map (siteView context scope)).foldl
          (fun drawn view => drawn.record scope view.1 view.2) drawing := by
    intro sites
    rw [List.foldl_map]
    rfl
  rw [Drawing.addExpression, Drawing.addExpression, throughView, throughView,
    invisible.expression]

theorem addItem_onItem (context : Context) (walk : Walk) (item : BodyItem) :
    walk.addItem context (rewriting.onItem item) = walk.addItem context item := by
  cases item with
  | declaration declared =>
      simp only [Rewriting.onItem, Walk.addItem, Walk.declare, declare_onVariable invisible]
  | expression whole =>
      simp only [Rewriting.onItem, Walk.addItem, addExpression_rewritten invisible]

theorem addCallable_onCallable (context : Context) (walk : Walk) (callable : Callable) :
    walk.addCallable context (rewriting.onCallable callable) =
      walk.addCallable context callable := by
  have body : (rewriting.onCallable callable).body.getD [] =
      (callable.body.getD []).map rewriting.onItem := by
    cases isBody : callable.body <;> simp [Rewriting.onCallable, isBody]
  have declare : ∀ (walk : Walk) (declared : Variable),
      walk.declare (rewriting.onVariable declared) = walk.declare declared := by
    intro walk declared
    rw [Walk.declare, declare_onVariable invisible]
    rfl
  unfold Walk.addCallable
  dsimp only
  rw [body]
  simp only [Rewriting.onCallable, List.foldl_map, declare, addItem_onItem invisible]

theorem addMember_walk_onMember (context : Context) (walk : Walk) (member : Member) :
    walk.addMember context (rewriting.onMember member) = walk.addMember context member := by
  unfold Walk.addMember
  rw [Rewriting.callable?_onMember]
  cases member.callable? with
  | none => rfl
  | some callable => exact addCallable_onCallable invisible context walk callable

theorem drawUnit_onUnit (context : Context) (graph : Graph) (unit : SourceUnit) :
    drawUnit context graph (rewriting.onUnit unit) = drawUnit context graph unit := by
  have sameContract : ∀ (walk : Walk) (contract : Contract),
      walk.addContract context (rewriting.onContract contract) =
        walk.addContract context contract := by
    intro walk contract
    simp only [Walk.addContract, Rewriting.onContract, List.foldl_map,
      addMember_walk_onMember invisible]
  simp only [drawUnit, Rewriting.onUnit, List.foldl_map, sameContract]

theorem drawUnits_onUnit (context : Context) (graph : Graph) (units : List SourceUnit) :
    drawUnits context graph (units.map rewriting.onUnit) = drawUnits context graph units := by
  induction units generalizing graph with
  | nil => rfl
  | cons unit later inductionHypothesis =>
      simp only [List.map_cons, drawUnits, drawUnit_onUnit invisible, inductionHypothesis]

theorem analyze_onUnit (before : Collection) (omitLibraries : Bool) (units : List SourceUnit) :
    analyze before omitLibraries (units.map rewriting.onUnit) =
      analyze before omitLibraries units := by
  unfold analyze
  simp only [addUnits_onUnit invisible, drawUnits_onUnit invisible]

end Invisible

end ContractCalls.Analysis

/-! ### Canonical spellings -/

namespace ContractCalls.Solidity

open ContractCalls.Analysis.CallTarget

/-- A type with the canonical spelling of its innermost type, if that is elementary. -/
def TypeName.canonical : TypeName → TypeName
  | elementary name => elementary (canonicalType name)
  | array element => array element.canonical
  | mapping value => mapping value.canonical
  | other => other

namespace Expression

def isAddressConversion : Expression → Bool
  | call (elementaryType type) _ _ => isAddressType type
  | _ => false

mutual

/-- An expression with the canonical spelling of its elementary types, but for those in
an address whose member is accessed. -/
def canonical : Expression → Expression
  | identifier name => identifier name
  | number literal => number literal
  | elementaryType name => elementaryType (canonicalType name)
  | member object name =>
      if object.isAddressConversion then member object name else member object.canonical name
  | call callee arguments line => call callee.canonical (canonicals arguments) line
  | other _ operands => other "" (canonicals operands)

def canonicals : List Expression → List Expression
  | [] => []
  | expression :: rest => expression.canonical :: canonicals rest

end

end Expression

/-- A source unit with canonical spellings. -/
def SourceUnit.canonical : SourceUnit → SourceUnit :=
  Rewriting.onUnit
    { type := TypeName.canonical
      expression := Expression.canonical
      attached := Option.map canonicalType }

namespace TypeName

theorem plainOf_canonicalType (name : String) : plainOf (canonicalType name) = plainOf name := by
  simp [plainOf, canonicalType_eq_empty_iff]

theorem plainOf_leaf_canonical (type : TypeName) :
    plainOf type.canonical.leaf.leafName = plainOf type.leaf.leafName := by
  induction type with
  | elementary name => exact plainOf_canonicalType name
  | array element inductionHypothesis => exact inductionHypothesis
  | mapping value inductionHypothesis => exact inductionHypothesis
  | userDefined name => rfl
  | function => rfl
  | unclassified name => rfl

theorem holding?_canonical (type : TypeName) : type.canonical.holding? = type.holding? := by
  cases type with
  | elementary name => exact plainOf_canonicalType name
  | array element => exact plainOf_leaf_canonical element
  | mapping value => exact plainOf_leaf_canonical value
  | userDefined name => rfl
  | function => rfl
  | unclassified name => rfl

end TypeName

end ContractCalls.Solidity

namespace ContractCalls.Analysis

open ContractCalls.Solidity

namespace Declaration

theorem attachmentKey_map_canonicalType (type : Option String) :
    attachmentKey (type.map canonicalType) = attachmentKey type := by
  cases type with
  | none => rfl
  | some name => simp [attachmentKey, canonicalType_eq_empty_iff]

end Declaration

namespace CallTarget

open Expression

theorem isAddressType_canonicalType {name : String} (other : isAddressType name = false) :
    isAddressType (canonicalType name) = false := by
  unfold canonicalType
  split
  next => rfl
  next =>
    split
    · rfl
    · exact other

/-! ### Calls in canonical spelling -/

theorem objectName?_canonical (context : Context) {receiver : Expression}
    (notAddress : receiver.isAddressConversion = false) :
    objectName? context receiver.canonical = objectName? context receiver := by
  cases receiver with
  | member object name =>
      rw [canonical]
      split <;> rfl
  | call callee arguments line =>
      rw [canonical]
      cases callee with
      | elementaryType type =>
          have notAddressType : isAddressType type = false := notAddress
          simp [canonical, objectName?, notAddressType, isAddressType_canonicalType notAddressType]
      | member object name =>
          rw [canonical]
          split <;> rfl
      | _ => rfl
  | _ => rfl

theorem fixedType?_canonical (receiver : Expression) :
    fixedType? receiver.canonical = fixedType? receiver := by
  cases receiver with
  | member object name =>
      rw [canonical]
      split
      next => rfl
      next =>
        cases object with
        | member inner innerName =>
            rw [canonical]
            split <;> rfl
        | _ => rfl
  | call callee arguments line =>
      rw [canonical]
      cases callee with
      | elementaryType type => simp [canonical, fixedType?]
      | member object name =>
          rw [canonical]
          split <;> rfl
      | _ => rfl
  | _ => rfl

theorem ofMember_canonical (context : Context) (scope : Scope) {receiver : Expression}
    (notAddress : receiver.isAddressConversion = false) (member : String) :
    ofMember context scope receiver.canonical member = ofMember context scope receiver member := by
  unfold ofMember
  rw [objectName?_canonical context notAddress, fixedType?_canonical]

theorem resolve_canonical (context : Context) (scope : Scope) (callee : Expression)
    (arguments otherArguments : List Expression) (line : Nat) :
    resolve context scope ⟨callee.canonical, otherArguments, line⟩ =
      resolve context scope ⟨callee, arguments, line⟩ := by
  unfold resolve
  split
  next => rfl
  next =>
    cases callee with
    | member object name =>
        rw [canonical]
        split
        next => rfl
        next notAddress =>
          have sameTarget :=
            ofMember_canonical context scope (Bool.eq_false_of_not_eq_true notAddress) name
          show (if !builtinMembers.contains name then ofMember context scope object.canonical name
            else .omitted .unsupportedForm) = _
          rw [sameTarget]
          rfl
    | _ => rfl

mutual

theorem map_siteView_canonical (context : Context) (scope : Scope) :
    ∀ whole : Expression,
      whole.canonical.callSites.map (siteView context scope) =
        whole.callSites.map (siteView context scope)
  | identifier _ => rfl
  | number _ => rfl
  | elementaryType _ => rfl
  | member object name => by
      rw [canonical]
      split
      next => rfl
      next => exact map_siteView_canonical context scope object
  | call callee arguments line => by
      have here : siteView context scope ⟨callee.canonical, canonicals arguments, line⟩ =
          siteView context scope ⟨callee, arguments, line⟩ :=
        congrArg (Prod.mk line) (resolve_canonical context scope callee arguments _ line)
      rw [canonical, callSites, callSites, List.map_cons, List.map_cons, List.map_append,
        List.map_append, here, map_siteView_canonical context scope callee,
        map_siteView_canonicals context scope arguments]
  | other _ operands => map_siteView_canonicals context scope operands

theorem map_siteView_canonicals (context : Context) (scope : Scope) :
    ∀ expressions : List Expression,
      (callSitesOf (canonicals expressions)).map (siteView context scope) =
        (callSitesOf expressions).map (siteView context scope)
  | [] => rfl
  | first :: rest => by
      rw [canonicals, callSitesOf, callSitesOf, List.map_append, List.map_append,
        map_siteView_canonical context scope first, map_siteView_canonicals context scope rest]

end

end CallTarget

theorem invisible_canonical :
    Invisible
      { type := TypeName.canonical
        expression := Expression.canonical
        attached := Option.map canonicalType } where
  type := TypeName.holding?_canonical
  attached := Declaration.attachmentKey_map_canonicalType
  expression := CallTarget.map_siteView_canonical

/-! ### Two sources with one canonical spelling -/

/-- Two lists of source units that differ at most in the spelling of the widest
integers give the same declarations and the same analysis: the same ancestor orders,
drawings and graph, or the same failure to order ancestors. -/
theorem analyze_of_same_canonical {left right : List SourceUnit}
    (alike : left.map SourceUnit.canonical = right.map SourceUnit.canonical)
    (before : Collection) (omitLibraries : Bool) :
    before.addUnits left = before.addUnits right ∧
      analyze before omitLibraries left = analyze before omitLibraries right := by
  constructor
  · calc before.addUnits left
        = before.addUnits (left.map SourceUnit.canonical) :=
          (invisible_canonical.addUnits_onUnit before left).symm
      _ = before.addUnits (right.map SourceUnit.canonical) := by rw [alike]
      _ = before.addUnits right := invisible_canonical.addUnits_onUnit before right
  · calc analyze before omitLibraries left
        = analyze before omitLibraries (left.map SourceUnit.canonical) :=
          (invisible_canonical.analyze_onUnit before omitLibraries left).symm
      _ = analyze before omitLibraries (right.map SourceUnit.canonical) := by rw [alike]
      _ = analyze before omitLibraries right :=
          invisible_canonical.analyze_onUnit before omitLibraries right

/-- A program with the given spellings in a nested type, in a parameter, in a directive
and in the receiver of a call.  The type inside the address is part of a node's name. -/
def meterUnits (nested parameter directive receiver : String) : List SourceUnit :=
  [{ contracts := [
      { name := "Math", kind := .library, members := [.function (some "half") .function {}] },
      { name := "Meter"
        members := [
          .stateVariable "readings" (.mapping (.array (.elementary nested))),
          .usingFor "Math" (some directive),
          .function (some "read") .function
            { parameters := [{ name := some "at", type := .elementary parameter }]
              body := some [
                .expression (.call (.member
                  (.call (.elementaryType receiver) [.identifier "at"] 4) "half") [] 4),
                .expression (.call (.member
                  (.call (.elementaryType "address")
                    [.call (.elementaryType "uint") [.identifier "at"] 5] 5) "send") [] 5)] }] }] }]

theorem analyze_of_same_canonical_meter :
    (meterUnits "uint" "int256" "uint" "uint256").map SourceUnit.canonical =
        (meterUnits "uint256" "int" "uint256" "uint").map SourceUnit.canonical ∧
      ∃ analysis,
        analyze {} false (meterUnits "uint" "int256" "uint" "uint256") = .ok analysis ∧
        analyze {} false (meterUnits "uint256" "int" "uint256" "uint") = .ok analysis ∧
        analysis.graph.edges.entries =
          [(("Meter", some "Math"), .library), (("Meter", some "uint(at)"), .external)] := by
  have alike : (meterUnits "uint" "int256" "uint" "uint256").map SourceUnit.canonical =
      (meterUnits "uint256" "int" "uint256" "uint").map SourceUnit.canonical := rfl
  have linearized : Linearization.linearize
      (unitBases (meterUnits "uint" "int256" "uint" "uint256")) =
        .ok ⟨[("Math", ["Math"]), ("Meter", ["Meter"])]⟩ := by
    decide +kernel
  have success := analyze_of_linearize linearized false
  refine ⟨alike, _, success, (analyze_of_same_canonical alike {} false).2.symm.trans success, ?_⟩
  refine (edges_drawUnits _ _).trans ?_
  decide +kernel

end ContractCalls.Analysis
