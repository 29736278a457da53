import ContractCalls.Proofs.CallGraph.EdgeKinds

/-!
Contract: what leaving out attached libraries does to a call graph.

Owns:
- the single call: it has the same target in both settings, unless that is an
  attached library;
- the nodes and edges of a program, seen through the edges its calls ask for;
- the comparison of the two graphs of one program.

A pair of contracts may lose its first call and keep a later one, so an edge can
come back with another kind.  No node can get lost with an edge, because
attached libraries are declared.
-/

set_option autoImplicit false

namespace ContractCalls.Analysis

open ContractCalls.Solidity

/-! ### The single call -/

/-- A context in which it is chosen whether attached libraries are left out. -/
def Context.choosing (context : Context) (omitLibraries : Bool) : Context :=
  { context with omitLibraries }

namespace CallTarget

/-- What becomes of a target when attached libraries are left out. -/
def withoutLibrary : CallTarget → CallTarget
  | .drawn .library (some library) _ => .omitted (.libraryOmitted library)
  | target => target

section Choice

variable (context : Context) (scope : Scope)

theorem withoutLibrary_ofObject (object member : String) :
    (ofObject context scope object member).withoutLibrary =
      ofObject context scope object member := by
  unfold ofObject
  split
  next => rfl
  next =>
    split
    next => split <;> rfl
    next => rfl

theorem ofTypedObject_choosing (object type : Option String) (member : String) :
    ofTypedObject (context.choosing true) scope object type member =
      (ofTypedObject (context.choosing false) scope object type member).withoutLibrary := by
  have sameLibrary : attachedLibrary? (context.choosing true) scope =
      attachedLibrary? (context.choosing false) scope := rfl
  unfold ofTypedObject
  rw [sameLibrary]
  split
  next => rfl
  next =>
    split
    next => rfl
    next name => exact (withoutLibrary_ofObject (context.choosing false) scope name member).symm

theorem ofMember_choosing (receiver : Expression) (member : String) :
    ofMember (context.choosing true) scope receiver member =
      (ofMember (context.choosing false) scope receiver member).withoutLibrary := by
  have sameObject : objectName? (context.choosing true) receiver =
      objectName? (context.choosing false) receiver := rfl
  unfold ofMember
  simp only [sameObject, ofTypedObject_choosing]
  split
  next => rfl
  next =>
    split
    next => rfl
    next => split <;> rfl

theorem resolve_choosing (site : CallSite) :
    resolve (context.choosing true) scope site =
      (resolve (context.choosing false) scope site).withoutLibrary := by
  have sameDirect : isDirect (context.choosing true) scope site =
      isDirect (context.choosing false) scope site := rfl
  unfold resolve
  split
  next => rfl
  next =>
    unfold ofSite
    simp only [sameDirect, ofMember_choosing]
    split
    next => split <;> rfl
    next => split <;> rfl
    next => rfl

end Choice

end CallTarget

/-- An edge that is not to an attached library. -/
def isOwnCall (edge : Link × CallKind) : Bool := decide (edge.2 ≠ .library)

theorem edge?_choosing (context : Context) (call : PlacedCall) :
    call.edge? (context.choosing true) =
      (call.edge? (context.choosing false)).filter isOwnCall := by
  have sameScope : call.scope (context.choosing true) = call.scope (context.choosing false) := rfl
  have origin := CallTarget.originates_resolve (context.choosing false)
    (call.scope (context.choosing false)) call.site
  unfold PlacedCall.edge?
  rw [sameScope, CallTarget.resolve_choosing]
  generalize CallTarget.resolve (context.choosing false) (call.scope (context.choosing false))
    call.site = target at origin
  cases target with
  | omitted reason => rfl
  | drawn kind callee member =>
      cases kind with
      | library =>
          -- A call to an attached library always has that library as its target.
          obtain ⟨_, _, library, _, rfl⟩ := origin
          rfl
      | noTarget => rfl
      | internal => rfl
      | this => rfl
      | super => rfl
      | external => rfl

/-- The calls of a program ask for the same edges in both settings, apart from
those to attached libraries. -/
theorem callEdges_choosing (context : Context) (units : List SourceUnit) :
    callEdges (context.choosing true) units =
      (callEdges (context.choosing false) units).filter isOwnCall := by
  unfold callEdges
  rw [List.filter_filterMap]
  congr 1
  funext call
  exact edge?_choosing context call

/-! ### Nodes -/

/-- Whether a pair leads to a name that is none of the declared ones. -/
def leadsOutside (declared : List String) (link : Link) : Bool :=
  link.2.any fun callee => !declared.contains callee

theorem filter_callees (declared : List String) (edges : List (Link × CallKind)) :
    (edges.filterMap fun edge => edge.1.2).filter (fun callee => !declared.contains callee) =
      (edges.filter fun edge => leadsOutside declared edge.1).filterMap fun edge => edge.1.2 := by
  rw [List.filter_filterMap, List.filterMap_filter]
  congr 1
  funext ⟨⟨caller, callee⟩, kind⟩
  cases callee with
  | none => simp
  | some name => by_cases isDeclared : name ∈ declared <;> simp [leadsOutside, isDeclared]

/-- Nodes come only from edges that lead outside, so dropping other edges keeps
them all, and in order. -/
theorem statelessNodes_congr {left right : Context} {units : List SourceUnit}
    (same : (callEdges left units).filter
        (fun edge => leadsOutside (Collection.contractNames units) edge.1) =
      (callEdges right units).filter
        (fun edge => leadsOutside (Collection.contractNames units) edge.1)) :
    statelessNodes left units = statelessNodes right units := by
  unfold statelessNodes statelessEdges
  dsimp only
  rw [filter_callees, filter_callees,
    Table.firstEntries_filter (leadsOutside (Collection.contractNames units)),
    Table.firstEntries_filter (leadsOutside (Collection.contractNames units)), same]

theorem isOwnCall_of_leadsOutside {units : List SourceUnit} {orders : Linearization.Orders}
    (linearized : Linearization.linearize (unitBases units) = .ok orders) (omitLibraries : Bool)
    {edge : Link × CallKind}
    (asked : edge ∈ callEdges (unitContext omitLibraries units orders) units)
    (outside : leadsOutside (Collection.contractNames units) edge.1 = true) :
    isOwnCall edge = true := by
  have justified := kindJustified_of_mem_callEdges linearized omitLibraries asked
  obtain ⟨⟨caller, callee⟩, kind⟩ := edge
  apply decide_eq_true
  rintro (rfl : kind = .library)
  obtain ⟨_, _, _, library, libraryDeclaration, _, _, _, found, _, isCallee⟩ := justified
  obtain rfl : callee = some library := isCallee
  have declared : (Collection.addUnits {} units).declarations.contains library = true :=
    Option.isSome_iff_exists.mpr ⟨libraryDeclaration, found⟩
  rw [Collection.contains_declarations_addUnits] at declared
  have listed : (Collection.contractNames units).contains library = true := declared
  rw [leadsOutside, Option.any_some, listed] at outside
  contradiction

theorem statelessNodes_choosing {units : List SourceUnit} {orders : Linearization.Orders}
    (linearized : Linearization.linearize (unitBases units) = .ok orders) :
    statelessNodes (unitContext true units orders) units =
      statelessNodes (unitContext false units orders) units := by
  have fewer : callEdges (unitContext true units orders) units =
      (callEdges (unitContext false units orders) units).filter isOwnCall :=
    callEdges_choosing (unitContext false units orders) units
  apply statelessNodes_congr
  rw [fewer, List.filter_filter]
  apply List.filter_congr
  intro edge asked
  cases outside : leadsOutside (Collection.contractNames units) edge.1 with
  | false => rfl
  | true => rw [isOwnCall_of_leadsOutside linearized false asked outside]; rfl

/-! ### Edges -/

theorem mem_statelessEdges_iff (context : Context) (units : List SourceUnit) (link : Link)
    (kind : CallKind) :
    (link, kind) ∈ statelessEdges context units ↔
      Table.lookup link (callEdges context units) = some kind := by
  unfold statelessEdges
  rw [← Table.lookup_eq_some_iff_mem (Table.nodup_keys_firstEntries _), Table.lookup_firstEntries]

theorem mem_keys_statelessEdges_iff (context : Context) (units : List SourceUnit) (link : Link) :
    link ∈ (statelessEdges context units).map Prod.fst ↔
      link ∈ (callEdges context units).map Prod.fst := by
  rw [← not_iff_not, ← Table.lookup_eq_none_iff, ← Table.lookup_eq_none_iff, statelessEdges,
    Table.lookup_firstEntries]

/-! ### The two graphs of a program -/

/-- Leaving out attached libraries keeps all nodes and all edges of other kinds,
adds no pair of contracts, and draws no edge to an attached library; a pair that
is lost was drawn for such an edge. -/
theorem analyze_omitting_libraries {units : List SourceUnit} {orders : Linearization.Orders}
    (linearized : Linearization.linearize (unitBases units) = .ok orders) :
    ∃ whole omitting, analyze {} false units = .ok whole ∧ analyze {} true units = .ok omitting ∧
      omitting.graph.nodes.entries = whole.graph.nodes.entries ∧
      (∀ link ∈ omitting.graph.edges.keys, link ∈ whole.graph.edges.keys) ∧
      (∀ link kind, (link, kind) ∈ omitting.graph.edges.entries → kind ≠ .library) ∧
      (∀ link kind, (link, kind) ∈ whole.graph.edges.entries → kind ≠ .library →
        (link, kind) ∈ omitting.graph.edges.entries) ∧
      ∀ link kind, (link, kind) ∈ whole.graph.edges.entries →
        link ∉ omitting.graph.edges.keys → kind = .library := by
  have fewer : callEdges (unitContext true units orders) units =
      (callEdges (unitContext false units orders) units).filter isOwnCall :=
    callEdges_choosing (unitContext false units orders) units
  have survives : ∀ link kind,
      (link, kind) ∈ statelessEdges (unitContext false units orders) units → kind ≠ .library →
        (link, kind) ∈ statelessEdges (unitContext true units orders) units := by
    intro link kind drawn other
    rw [mem_statelessEdges_iff] at drawn ⊢
    rw [fewer]
    exact Table.lookup_filter_of_kept drawn (decide_eq_true other)
  refine ⟨_, _, analyze_of_linearize linearized false, analyze_of_linearize linearized true, ?_⟩
  unfold freshAnalysis Table.keys
  dsimp only
  rw [nodes_drawUnits, nodes_drawUnits, edges_drawUnits, edges_drawUnits]
  refine ⟨statelessNodes_choosing linearized, ?_, ?_, survives, ?_⟩
  · intro link drawn
    rw [mem_keys_statelessEdges_iff] at drawn ⊢
    rw [fewer] at drawn
    exact (List.filter_sublist.map Prod.fst).subset drawn
  · intro link kind drawn
    have asked := Table.mem_of_mem_firstEntries drawn
    rw [fewer] at asked
    exact of_decide_eq_true (List.mem_filter.mp asked).2
  · intro link kind drawn lost
    by_contra other
    exact lost (List.mem_map.mpr ⟨_, survives link kind drawn other, rfl⟩)

/-- Two attached libraries, of which one is also called by its name. -/
def mathUnits : List SourceUnit :=
  [{ contracts := [
      { name := "Math", kind := .library
        members := [.function (some "add") .function {}] },
      { name := "Bytes", kind := .library
        members := [.function (some "hash") .function {}] },
      { name := "Token"
        members := [
          .usingFor "Math" (some "uint"),
          .usingFor "Bytes" (some "bytes"),
          .function (some "pay") .function
            { body := some [
                .expression (.call (.member (.member (.identifier "msg") "value") "add") [] 3),
                .expression (.call (.member (.member (.identifier "msg") "data") "hash") [] 4),
                .expression (.call (.member (.identifier "Math") "add") [] 5),
                .expression (.call (.member (.identifier "owner") "ping") [] 6)] }] }] }]

theorem analyze_omitting_math :
    Linearization.linearize (unitBases mathUnits) =
        .ok ⟨[("Math", ["Math"]), ("Bytes", ["Bytes"]), ("Token", ["Token"])]⟩ ∧
      ∃ whole omitting,
        analyze {} false mathUnits = .ok whole ∧ analyze {} true mathUnits = .ok omitting ∧
        whole.graph.edges.entries =
          [(("Token", some "Math"), .library), (("Token", some "Bytes"), .library),
            (("Token", some "owner"), .external)] ∧
        omitting.graph.edges.entries =
          [(("Token", some "Math"), .external), (("Token", some "owner"), .external)] ∧
        omitting.graph.nodes.entries = whole.graph.nodes.entries := by
  have linearized : Linearization.linearize (unitBases mathUnits) =
      .ok ⟨[("Math", ["Math"]), ("Bytes", ["Bytes"]), ("Token", ["Token"])]⟩ := by
    decide +kernel
  obtain ⟨whole, omitting, success, omittingSuccess, nodes, -⟩ :=
    analyze_omitting_libraries linearized
  refine ⟨linearized, whole, omitting, success, omittingSuccess, ?_, ?_, nodes⟩
  · obtain rfl := Except.ok.inj (success.symm.trans (analyze_of_linearize linearized false))
    refine (edges_drawUnits _ mathUnits).trans ?_
    decide +kernel
  · obtain rfl :=
      Except.ok.inj (omittingSuccess.symm.trans (analyze_of_linearize linearized true))
    refine (edges_drawUnits _ mathUnits).trans ?_
    decide +kernel

end ContractCalls.Analysis
