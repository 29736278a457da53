import ContractCalls.Proofs.CallGraph.Walk
import ContractCalls.Proofs.TableEntries
import Mathlib.Algebra.Ring.Nat

/-!
Contract: the graph that a run over placed calls draws.

Owns:
- one call: it adds the edge it asks for, if it asks for one;
- the edges of a run: the first of each pair of contracts that is new;
- the nodes of a run: one for each callee of a new edge that has none yet;
- the number of added edges, over one source unit and over all;
- the graph of an analysis on top of any collection, and when there is none.
-/

set_option autoImplicit false

namespace ContractCalls.Analysis

open ContractCalls.Solidity

/-! ### One call -/

namespace Graph

/-- Add an edge, given with its kind as an entry of the table of edges. -/
def addEntry (graph : Graph) (edge : Link × CallKind) : Graph :=
  graph.addEdge edge.1.1 edge.1.2 edge.2

/-- The node that an edge brings if its callee has none. -/
def calleeNode? (edge : Link × CallKind) : Option (String × Node) :=
  edge.1.2.map fun callee => (callee, { label := callee, defined := false })

theorem addEntry_of_present {graph : Graph} {edge : Link × CallKind}
    (present : graph.edges.contains edge.1 = true) : graph.addEntry edge = graph := by
  unfold addEntry addEdge hasEdge
  rw [if_pos present]

theorem ensureNode_nodes (graph : Graph) (name : String) :
    (graph.ensureNode name).nodes =
      graph.nodes.addNew (name, { label := name, defined := false }) := by
  unfold ensureNode Table.addNew Table.contains
  cases graph.nodes.find? name <;> rfl

theorem ensureNode_edges (graph : Graph) (name : String) :
    (graph.ensureNode name).edges = graph.edges := by
  unfold ensureNode
  split <;> rfl

theorem edges_addEntry (graph : Graph) (edge : Link × CallKind) :
    (graph.addEntry edge).edges = graph.edges.addNew edge := by
  obtain ⟨⟨caller, callee⟩, kind⟩ := edge
  unfold addEntry addEdge hasEdge Table.addNew
  split
  · rfl
  · cases callee with
    | none => rfl
    | some name =>
        dsimp only
        rw [ensureNode_edges]

theorem nodes_addEntry_of_absent {graph : Graph} {edge : Link × CallKind}
    (absent : graph.edges.contains edge.1 = false) :
    (graph.addEntry edge).nodes = (calleeNode? edge).toList.foldl Table.addNew graph.nodes := by
  obtain ⟨⟨caller, callee⟩, kind⟩ := edge
  unfold addEntry addEdge hasEdge
  rw [if_neg (by simp [absent])]
  cases callee with
  | none => rfl
  | some name => exact ensureNode_nodes graph name

/-! ### A run of edges -/

theorem edges_foldl_addEntry (graph : Graph) (edges : List (Link × CallKind)) :
    (edges.foldl addEntry graph).edges = edges.foldl Table.addNew graph.edges := by
  induction edges generalizing graph with
  | nil => rfl
  | cons edge later inductionHypothesis =>
      rw [List.foldl_cons, List.foldl_cons, inductionHypothesis, edges_addEntry]

/-- A run adds the nodes of the callees of its new edges. -/
theorem nodes_foldl_addEntry (graph : Graph) (edges : List (Link × CallKind)) :
    (edges.foldl addEntry graph).nodes =
      ((Table.newEntries graph.edges edges).filterMap calleeNode?).foldl Table.addNew
        graph.nodes := by
  induction edges generalizing graph with
  | nil => rfl
  | cons edge later inductionHypothesis =>
      rw [List.foldl_cons]
      cases present : graph.edges.contains edge.1 with
      | true =>
          rw [addEntry_of_present present, inductionHypothesis,
            Table.newEntries_cons_of_present present]
      | false =>
          rw [inductionHypothesis, Table.newEntries_cons_of_absent present, edges_addEntry,
            Table.addNew_of_absent present, nodes_addEntry_of_absent present]
          cases found : calleeNode? edge with
          | none => rw [List.filterMap_cons_none found]; rfl
          | some node => rw [List.filterMap_cons_some found]; rfl

end Graph

/-! ### A run of calls -/

namespace Drawing

/-- How a call is drawn: a new edge is added and counted, and nothing else
changes the graph or the count. -/
theorem addPlaced_cases (context : Context) (drawing : Drawing) (call : PlacedCall) :
    ((drawing.addPlaced context call).graph = drawing.graph ∧
        (drawing.addPlaced context call).added = drawing.added ∧
        ∀ edge, call.edge? context = some edge → drawing.graph.edges.contains edge.1 = true) ∨
      ∃ edge, call.edge? context = some edge ∧
        drawing.graph.edges.contains edge.1 = false ∧
        (drawing.addPlaced context call).graph = drawing.graph.addEntry edge ∧
        (drawing.addPlaced context call).added = drawing.added + 1 := by
  have calling : (call.scope context).calling = some call.contract :=
    calling_bodyScope context call.contract call.declared
  unfold addPlaced addCall record PlacedCall.edge?
  rw [calling]
  cases CallTarget.resolve context (call.scope context) call.site with
  | omitted reason =>
      refine Or.inl ⟨rfl, rfl, ?_⟩
      intro edge asked
      contradiction
  | drawn kind callee member =>
      dsimp only
      split
      next present =>
        refine Or.inl ⟨rfl, rfl, ?_⟩
        intro edge asked
        rw [← Option.some.inj asked]
        exact present
      next absent =>
        exact Or.inr ⟨((call.contract, callee), kind), rfl, Bool.not_eq_true _ ▸ absent, rfl, rfl⟩

theorem graph_addPlaced (context : Context) (drawing : Drawing) (call : PlacedCall) :
    (drawing.addPlaced context call).graph =
      (call.edge? context).toList.foldl Graph.addEntry drawing.graph := by
  rcases addPlaced_cases context drawing call with ⟨same, _, known⟩ | ⟨edge, asked, _, added, _⟩
  · rw [same]
    cases asked : call.edge? context with
    | none => rfl
    | some edge => exact (Graph.addEntry_of_present (known edge asked)).symm
  · rw [added, asked]
    rfl

theorem graph_foldl_addPlaced (context : Context) (drawing : Drawing) (calls : List PlacedCall) :
    (calls.foldl (addPlaced context) drawing).graph =
      (calls.filterMap (PlacedCall.edge? context)).foldl Graph.addEntry drawing.graph := by
  induction calls generalizing drawing with
  | nil => rfl
  | cons call later inductionHypothesis =>
      rw [List.foldl_cons, inductionHypothesis, graph_addPlaced]
      cases asked : call.edge? context with
      | none => rw [List.filterMap_cons_none asked]; rfl
      | some edge => rw [List.filterMap_cons_some asked]; rfl

/-- The count of a drawing is the number of edges since there were `start`. -/
def Counts (start : Nat) (drawing : Drawing) : Prop :=
  drawing.graph.edges.size = start + drawing.added

theorem Counts.addPlaced {start : Nat} {drawing : Drawing} (counts : Counts start drawing)
    (context : Context) (call : PlacedCall) : Counts start (drawing.addPlaced context call) := by
  unfold Counts at counts ⊢
  rcases addPlaced_cases context drawing call with
    ⟨same, sameCount, _⟩ | ⟨edge, _, absent, added, more⟩
  · rw [same, sameCount, counts]
  · rw [added, more, Graph.edges_addEntry, Table.addNew_of_absent absent, Table.size,
      Table.entries_insert_of_absent absent, List.length_append]
    rw [Table.size] at counts
    rw [counts]
    rfl

theorem Counts.foldl_addPlaced {start : Nat} {drawing : Drawing} (counts : Counts start drawing)
    (context : Context) (calls : List PlacedCall) :
    Counts start (calls.foldl (Drawing.addPlaced context) drawing) := by
  induction calls generalizing drawing with
  | nil => exact counts
  | cons call later inductionHypothesis => exact inductionHypothesis (counts.addPlaced context call)

end Drawing

/-! ### A run of source units -/

theorem graph_drawUnit (context : Context) (graph : Graph) (unit : SourceUnit) :
    (drawUnit context graph unit).graph =
      (callEdges context [unit]).foldl Graph.addEntry graph := by
  rw [drawUnit_eq, Drawing.graph_foldl_addPlaced, callEdges, unitCalls, List.flatMap_singleton]

theorem added_drawUnit (context : Context) (graph : Graph) (unit : SourceUnit) :
    (drawUnit context graph unit).graph.edges.size =
      graph.edges.size + (drawUnit context graph unit).added := by
  have start : Drawing.Counts graph.edges.size { graph } := rfl
  rw [drawUnit_eq]
  exact start.foldl_addPlaced context _

theorem callEdges_cons (context : Context) (unit : SourceUnit) (later : List SourceUnit) :
    callEdges context (unit :: later) = callEdges context [unit] ++ callEdges context later := by
  simp only [callEdges, unitCalls, List.flatMap_cons, List.flatMap_nil, List.append_nil,
    List.filterMap_append]

theorem graph_drawUnits (context : Context) (graph : Graph) (units : List SourceUnit) :
    (drawUnits context graph units).2 = (callEdges context units).foldl Graph.addEntry graph := by
  induction units generalizing graph with
  | nil => rfl
  | cons unit later inductionHypothesis =>
      rw [callEdges_cons, List.foldl_append, ← graph_drawUnit]
      exact inductionHypothesis _

theorem added_drawUnits (context : Context) (graph : Graph) (units : List SourceUnit) :
    (drawUnits context graph units).2.edges.size =
      graph.edges.size + ((drawUnits context graph units).1.map Drawing.added).sum := by
  induction units generalizing graph with
  | nil => rfl
  | cons unit later inductionHypothesis =>
      have laterCounts := inductionHypothesis (drawUnit context graph unit).graph
      have unitCounts := added_drawUnit context graph unit
      show (drawUnits context (drawUnit context graph unit).graph later).2.edges.size =
        graph.edges.size + ((drawUnit context graph unit).added ::
          (drawUnits context (drawUnit context graph unit).graph later).1.map Drawing.added).sum
      rw [List.sum_cons]
      omega

/-! ### The graph of an analysis -/

/-- The graph of collected units: the edges of their calls on top of what is there. -/
def Collection.drawn (collection : Collection) (omitLibraries : Bool) (units : List SourceUnit)
    (orders : Linearization.Orders) : Graph :=
  (callEdges { declarations := collection.declarations, orders, omitLibraries } units).foldl
    Graph.addEntry collection.graph

/-- An analysis succeeds if ancestors are ordered, and its graph is then drawn on top
of what was collected. -/
theorem exists_analyze_iff {before : Collection} {omitLibraries : Bool} {units : List SourceUnit}
    {graph : Graph} :
    (∃ analysis, analyze before omitLibraries units = .ok analysis ∧ analysis.graph = graph) ↔
      ∃ orders, Linearization.linearize (before.addUnits units).declarations.baseLists =
          .ok orders ∧
        (before.addUnits units).drawn omitLibraries units orders = graph := by
  unfold analyze
  dsimp only
  cases Linearization.linearize (before.addUnits units).declarations.baseLists with
  | error failure => constructor <;> rintro ⟨_, ended, -⟩ <;> cases ended
  | ok orders =>
      constructor
      · rintro ⟨_, ended, rfl⟩
        cases ended
        exact ⟨orders, rfl, (graph_drawUnits _ _ units).symm⟩
      · rintro ⟨_, ended, rfl⟩
        cases ended
        exact ⟨_, rfl, graph_drawUnits _ _ units⟩

theorem analyze_error_iff {before : Collection} {omitLibraries : Bool} {units : List SourceUnit}
    {failure : LinearizationFailure} :
    analyze before omitLibraries units = .error failure ↔
      Linearization.linearize (before.addUnits units).declarations.baseLists = .error failure := by
  unfold analyze
  dsimp only
  cases Linearization.linearize (before.addUnits units).declarations.baseLists with
  | error other => exact ⟨congrArg _ ∘ Except.error.inj, congrArg _ ∘ Except.error.inj⟩
  | ok orders => constructor <;> intro ended <;> cases ended

end ContractCalls.Analysis
