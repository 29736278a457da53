import ContractCalls.Proofs.CallGraph.Refinement
import ContractCalls.Proofs.Linearization.Cache

/-!
Contract: what the kind of an edge says about its two ends.

Owns:
- the origin of a target: one condition for each kind, read off the branches of
  the resolution once and for all;
- the ends of the edges that the calls of a program ask for;
- the meaning of the kinds in terms of the declarations alone.

The contract of a call is both the current one and the calling one in the scope
of the call, so an edge to the current contract is an edge to the caller.
-/

set_option autoImplicit false

namespace ContractCalls.Analysis

open ContractCalls.Solidity

/-! ### The origin of a target -/

namespace CallTarget

/-- Where a drawn target comes from, by its kind. -/
def Originates (context : Context) (scope : Scope) : CallTarget → Prop
  | .omitted _ => True
  | .drawn .noTarget _ _ => False
  | .drawn .internal callee _ => callee = scope.current
  | .drawn .this callee _ => callee = scope.current
  | .drawn .super callee _ =>
      ∃ first base later, scope.order context = first :: base :: later ∧ callee = some base
  | .drawn .library callee member =>
      context.omitLibraries = false ∧
        ∃ type library, attachedLibrary? context scope type member = some library ∧
          callee = some library
  | .drawn .external callee _ => ∃ name, callee = some name

section Origin

variable (context : Context) (scope : Scope)

theorem originates_ofObject (object member : String) :
    Originates context scope (ofObject context scope object member) := by
  unfold ofObject
  split
  next => exact rfl
  next =>
    split
    next =>
      split
      next first base later inOrder => exact ⟨first, base, later, inOrder, rfl⟩
      next => trivial
    next => exact ⟨_, rfl⟩

theorem originates_ofTypedObject (object type : Option String) (member : String) :
    Originates context scope (ofTypedObject context scope object type member) := by
  unfold ofTypedObject
  split
  next library attached =>
    obtain ⟨typeName, _, found⟩ := Option.bind_eq_some_iff.mp attached
    split
    next => trivial
    next drawn => exact ⟨Bool.not_eq_true _ ▸ drawn, typeName, library, found, rfl⟩
  next =>
    split
    next => trivial
    next name => exact originates_ofObject context scope name member

theorem originates_ofMember (receiver : Expression) (member : String) :
    Originates context scope (ofMember context scope receiver member) := by
  unfold ofMember
  dsimp only
  split
  next => exact originates_ofTypedObject context scope _ _ member
  next =>
    split
    next => exact originates_ofTypedObject context scope _ _ member
    next =>
      split
      next => trivial
      next => exact originates_ofTypedObject context scope _ _ member

theorem originates_ofSite (site : CallSite) :
    Originates context scope (ofSite context scope site) := by
  unfold ofSite
  split
  next =>
    split
    next => exact rfl
    next => trivial
  next receiver member _ =>
    split
    next => exact originates_ofMember context scope receiver member
    next => trivial
  next => trivial

theorem originates_resolve (site : CallSite) :
    Originates context scope (resolve context scope site) := by
  unfold resolve
  split
  next => trivial
  next => exact originates_ofSite context scope site

end Origin

/-- An attached library is attached by the declaration of the current contract,
and declared with the function that is called. -/
theorem exists_of_attachedLibrary? {context : Context} {scope : Scope}
    {type member library : String}
    (attached : attachedLibrary? context scope type member = some library) :
    ∃ contract declaration, scope.current = some contract ∧
      context.declarations.find? contract = some declaration ∧
      library ∈ declaration.librariesFor (canonicalType type) ∧
      libraryHas context member library = true := by
  unfold attachedLibrary? at attached
  obtain ⟨contract, current, declared⟩ := Option.bind_eq_some_iff.mp attached
  obtain ⟨declaration, found, first⟩ := Option.bind_eq_some_iff.mp declared
  exact ⟨contract, declaration, current, found, List.mem_of_find?_eq_some first,
    List.find?_some first⟩

end CallTarget

/-! ### The edges that calls ask for -/

theorem current_bodyScope (context : Context) (contract : String) (declared : List Variable) :
    (bodyScope context contract declared).current = some contract := by
  obtain ⟨_, _, entered⟩ := Scope.enterContract_frame context contract
  obtain ⟨_, _, inside⟩ := bodyScope_frame context contract declared
  rw [inside, entered]

theorem order_bodyScope (context : Context) (contract : String) (declared : List Variable) :
    (bodyScope context contract declared).order context = context.order contract := by
  unfold Scope.order
  rw [current_bodyScope]

theorem PlacedCall.originates_of_edge? {context : Context} {call : PlacedCall}
    {edge : Link × CallKind} (asked : call.edge? context = some edge) :
    ∃ member, (CallTarget.drawn edge.2 edge.1.2 member).Originates context
      (call.scope context) := by
  have origin := CallTarget.originates_resolve context (call.scope context) call.site
  unfold PlacedCall.edge? at asked
  split at asked
  next kind callee member resolved =>
    obtain rfl := Option.some.inj asked
    rw [resolved] at origin
    exact ⟨member, origin⟩
  next => contradiction

/-- Both ends of an edge that a call asks for have a name, and the edge starts at
a contract of the program. -/
theorem ends_of_mem_callEdges {context : Context} {units : List SourceUnit}
    {edge : Link × CallKind} (member : edge ∈ callEdges context units) :
    edge.1.1 ∈ Collection.contractNames units ∧ ∃ callee, edge.1.2 = some callee := by
  obtain ⟨call, isCall, asked⟩ := List.mem_filterMap.mp member
  have current : (call.scope context).current = some call.contract :=
    current_bodyScope context call.contract call.declared
  constructor
  · rw [PlacedCall.caller_of_edge? asked]
    exact contract_mem_of_mem_unitCalls isCall
  · obtain ⟨name, origin⟩ := PlacedCall.originates_of_edge? asked
    obtain ⟨⟨caller, callee⟩, kind⟩ := edge
    cases kind with
    | noTarget => exact origin.elim
    | internal => exact ⟨call.contract, origin.trans current⟩
    | this => exact ⟨call.contract, origin.trans current⟩
    | super =>
        obtain ⟨_, base, _, _, isCallee⟩ := origin
        exact ⟨base, isCallee⟩
    | library =>
        obtain ⟨_, _, library, _, isCallee⟩ := origin
        exact ⟨library, isCallee⟩
    | external => exact origin

/-! ### The meaning of the kinds -/

/-- What the kind of an edge says about its ends, for declarations and the choice
to leave libraries out. -/
def KindJustified (declarations : Declarations) (omitLibraries : Bool) (caller : String)
    (callee : Option String) : CallKind → Prop
  | .noTarget => False
  | .internal => callee = some caller
  | .this => callee = some caller
  | .super =>
      ∃ declaration base, declarations.find? caller = some declaration ∧
        declaration.bases.getLast? = some base ∧ callee = some base ∧ base ≠ caller
  | .library =>
      omitLibraries = false ∧
        ∃ declaration type library libraryDeclaration function,
          declarations.find? caller = some declaration ∧
          library ∈ declaration.librariesAt type ∧
          declarations.find? library = some libraryDeclaration ∧
          function ∈ libraryDeclaration.functions ∧
          callee = some library
  | .external => True

theorem Linearization.AncestorOrder.last_base {declarations : Declarations} {contract base : String}
    {later : List String}
    (isOrder : AncestorOrder declarations.baseLists contract (contract :: base :: later)) :
    ∃ declaration, declarations.find? contract = some declaration ∧
      declaration.bases.getLast? = some base ∧ base ≠ contract := by
  have nearest := isOrder.head?_nearestBases
  have different : base ≠ contract := by
    intro same
    apply (List.nodup_cons.mp isOrder.distinct).1
    rw [same]
    exact List.mem_cons_self
  unfold nearestBases at nearest
  rw [find?_baseLists, List.head?_reverse] at nearest
  cases found : declarations.find? contract with
  | none =>
      rw [found] at nearest
      contradiction
  | some declaration =>
      rw [found] at nearest
      exact ⟨declaration, rfl, nearest, different⟩

theorem kindJustified_super {declarations : Declarations} {orders : Linearization.Orders}
    (linearized : Linearization.linearize declarations.baseLists = .ok orders)
    {omitLibraries : Bool} {contract first base : String} {later : List String}
    (inOrder : Context.order { declarations, orders, omitLibraries } contract =
      first :: base :: later) :
    ∃ declaration, declarations.find? contract = some declaration ∧
      declaration.bases.getLast? = some base ∧ base ≠ contract := by
  unfold Context.order at inOrder
  dsimp only at inOrder
  cases found : orders.find? contract with
  | none =>
      rw [found] at inOrder
      simp at inOrder
  | some order =>
      rw [found] at inOrder
      obtain rfl : order = first :: base :: later := inOrder
      have isOrder := ((Linearization.find?_linearize_iff linearized contract _).mp found).2
      obtain rfl : first = contract := Option.some.inj isOrder.head?_eq
      exact isOrder.last_base

theorem kindJustified_library {context : Context} {scope : Scope} {caller : String}
    (current : scope.current = some caller) {type member library : String}
    (attached : CallTarget.attachedLibrary? context scope type member = some library) :
    ∃ declaration key libraryDeclaration function,
      context.declarations.find? caller = some declaration ∧
      library ∈ declaration.librariesAt key ∧
      context.declarations.find? library = some libraryDeclaration ∧
      function ∈ libraryDeclaration.functions := by
  obtain ⟨contract, declaration, isCurrent, found, listed, declares⟩ :=
    CallTarget.exists_of_attachedLibrary? attached
  obtain rfl : caller = contract := Option.some.inj (current.symm.trans isCurrent)
  have underKey : ∃ key, library ∈ declaration.librariesAt key := by
    rcases List.mem_append.mp listed with specific | general
    · exact ⟨_, specific⟩
    · exact ⟨_, general⟩
  obtain ⟨key, held⟩ := underKey
  unfold CallTarget.libraryHas at declares
  split at declares
  next => contradiction
  next libraryDeclaration libraryFound =>
    exact ⟨declaration, key, libraryDeclaration, member, found, held, libraryFound,
      List.contains_iff_mem.mp declares⟩

/-- The calls of a program whose contracts are ordered ask for no edge but those
that their kinds justify. -/
theorem kindJustified_of_mem_callEdges {declarations : Declarations} {orders : Linearization.Orders}
    (linearized : Linearization.linearize declarations.baseLists = .ok orders)
    (omitLibraries : Bool) {units : List SourceUnit} {edge : Link × CallKind}
    (member : edge ∈ callEdges { declarations, orders, omitLibraries } units) :
    KindJustified declarations omitLibraries edge.1.1 edge.1.2 edge.2 := by
  obtain ⟨call, _, asked⟩ := List.mem_filterMap.mp member
  obtain ⟨name, origin⟩ := PlacedCall.originates_of_edge? asked
  have caller := PlacedCall.caller_of_edge? asked
  have current : (call.scope { declarations, orders, omitLibraries }).current =
      some call.contract := current_bodyScope _ call.contract call.declared
  obtain ⟨⟨source, callee⟩, kind⟩ := edge
  obtain rfl : source = call.contract := caller
  cases kind with
  | noTarget => exact origin
  | internal => exact origin.trans current
  | this => exact origin.trans current
  | super =>
      obtain ⟨first, base, later, inOrder, isCallee⟩ := origin
      have inOrder := (order_bodyScope _ call.contract call.declared).symm.trans inOrder
      obtain ⟨declaration, found, last, different⟩ := kindJustified_super linearized inOrder
      exact ⟨declaration, base, found, last, isCallee, different⟩
  | library =>
      obtain ⟨drawn, type, library, attached, isCallee⟩ := origin
      obtain ⟨declaration, key, libraryDeclaration, function, found, held, libraryFound, declared⟩ :=
        kindJustified_library current attached
      exact ⟨drawn, declaration, key, library, libraryDeclaration, function, found, held,
        libraryFound, declared, isCallee⟩
  | external => trivial

/-- Every edge of a fresh program whose base map is linearized is justified by
its kind. -/
theorem analyze_edges_justified {units : List SourceUnit} {orders : Linearization.Orders}
    (linearized : Linearization.linearize (unitBases units) = .ok orders) (omitLibraries : Bool) :
    ∃ analysis, analyze {} omitLibraries units = .ok analysis ∧
      ∀ caller callee kind, ((caller, callee), kind) ∈ analysis.graph.edges.entries →
        KindJustified analysis.collection.declarations omitLibraries caller callee kind := by
  refine ⟨_, analyze_of_linearize linearized omitLibraries, ?_⟩
  intro caller callee kind member
  have drawn : ((caller, callee), kind) ∈
      statelessEdges (unitContext omitLibraries units orders) units := by
    rw [← edges_drawUnits]
    exact member
  exact kindJustified_of_mem_callEdges linearized omitLibraries
    (Table.mem_of_mem_firstEntries drawn)

/-- A contract with two bases and an attached library, and calls of four kinds. -/
def tokenUnits : List SourceUnit :=
  [{ contracts := [
      { name := "Math", kind := .library
        members := [.function (some "add") .function {}] },
      { name := "Token"
        bases := ["Owned", "Pausable"]
        members := [
          .event "Paid",
          .usingFor "Math" (some "uint"),
          .function (some "pay") .function
            { body := some [
                .expression (.call (.member (.identifier "super") "pay") [] 3),
                .expression (.call (.identifier "Paid")
                  [.call (.member (.member (.identifier "msg") "value") "add") [] 4] 4),
                .expression (.call (.member (.identifier "owner") "ping") [] 5)] }] }] }]

theorem analyze_edges_justified_token :
    Linearization.linearize (unitBases tokenUnits) =
        .ok ⟨[("Math", ["Math"]), ("Pausable", ["Pausable"]), ("Owned", ["Owned"]),
          ("Token", ["Token", "Pausable", "Owned"])]⟩ ∧
      ∃ analysis, analyze {} false tokenUnits = .ok analysis ∧
        analysis.graph.edges.entries =
          [(("Token", some "Pausable"), .super), (("Token", some "Token"), .internal),
            (("Token", some "Math"), .library), (("Token", some "owner"), .external)] ∧
        KindJustified analysis.collection.declarations false "Token" (some "Pausable") .super ∧
        KindJustified analysis.collection.declarations false "Token" (some "Math") .library := by
  have linearized : Linearization.linearize (unitBases tokenUnits) =
      .ok ⟨[("Math", ["Math"]), ("Pausable", ["Pausable"]), ("Owned", ["Owned"]),
        ("Token", ["Token", "Pausable", "Owned"])]⟩ := by
    decide +kernel
  obtain ⟨analysis, success, justified⟩ := analyze_edges_justified linearized false
  have edges : analysis.graph.edges.entries =
      [(("Token", some "Pausable"), .super), (("Token", some "Token"), .internal),
        (("Token", some "Math"), .library), (("Token", some "owner"), .external)] := by
    obtain rfl := Except.ok.inj (success.symm.trans (analyze_of_linearize linearized false))
    refine (edges_drawUnits _ tokenUnits).trans ?_
    decide +kernel
  refine ⟨linearized, analysis, success, edges, ?_, ?_⟩
  · apply justified
    rw [edges]
    simp
  · apply justified
    rw [edges]
    simp

end ContractCalls.Analysis
