import ContractCalls.Proofs.CallGraph.EdgeKinds
import ContractCalls.Proofs.Session.RunEffect
import Mathlib.Data.List.Induction

/-!
Contract: what holds of declarations and graph after every run of a session.

Owns:
- `Consistent`, the invariant that ties the graph to the declarations, and
  `GrowsTo`, what no later step takes back;
- one step lemma for a collected contract and one for a drawn edge;
- the run lemma over whole histories, in which any run may fail.

Callers get no node from their edges; that they have one rests on the contracts
of a run being collected before its calls are drawn.
-/

set_option autoImplicit false

namespace ContractCalls.Analysis

open ContractCalls.Solidity

namespace Collection

/-- Declarations and graph belong together: names of nodes and ends of edges come
once, exactly the declared nodes are defined, and every edge leads from a
declared contract to a node. -/
structure Consistent (collection : Collection) : Prop where
  nodesDistinct : collection.graph.nodes.keys.Nodup
  definedIff : ∀ name node, collection.graph.nodes.find? name = some node →
    (node.defined = true ↔ collection.declarations.contains name = true)
  declaredNode : ∀ name, collection.declarations.contains name = true →
    collection.graph.nodes.contains name = true
  edgesDistinct : collection.graph.edges.keys.Nodup
  ends : ∀ caller callee, collection.graph.edges.contains (caller, callee) = true →
    collection.declarations.contains caller = true ∧
      collection.graph.nodes.contains caller = true ∧
      ∃ name, callee = some name ∧ collection.graph.nodes.contains name = true

/-- No node or edge disappears, no node loses its definition, and no edge changes
its kind. -/
structure GrowsTo (before after : Collection) : Prop where
  nodes : ∀ name node, before.graph.nodes.find? name = some node →
    ∃ later, after.graph.nodes.find? name = some later ∧
      (node.defined = true → later.defined = true)
  edges : ∀ link kind, before.graph.edges.find? link = some kind →
    after.graph.edges.find? link = some kind

/-- A step that keeps consistent collections consistent and only lets them grow. -/
def Develops (before after : Collection) : Prop :=
  before.Consistent → after.Consistent ∧ before.GrowsTo after

section Development

variable {before middle after : Collection}

theorem GrowsTo.refl (collection : Collection) : collection.GrowsTo collection where
  nodes _ node found := ⟨node, found, id⟩
  edges _ _ found := found

theorem GrowsTo.trans (first : before.GrowsTo middle) (second : middle.GrowsTo after) :
    before.GrowsTo after where
  nodes name node found := by
    obtain ⟨between, foundBetween, keeps⟩ := first.nodes name node found
    obtain ⟨later, foundLater, keepsLater⟩ := second.nodes name between foundBetween
    exact ⟨later, foundLater, fun defined => keepsLater (keeps defined)⟩
  edges link kind found := second.edges link kind (first.edges link kind found)

theorem Develops.refl (collection : Collection) : collection.Develops collection :=
  fun consistent => ⟨consistent, GrowsTo.refl collection⟩

theorem Develops.trans (first : before.Develops middle) (second : middle.Develops after) :
    before.Develops after := by
  intro consistent
  obtain ⟨consistentMiddle, growth⟩ := first consistent
  obtain ⟨consistentAfter, laterGrowth⟩ := second consistentMiddle
  exact ⟨consistentAfter, growth.trans laterGrowth⟩

theorem consistent_empty : Consistent {} where
  nodesDistinct := List.nodup_nil
  definedIff _ _ found := by contradiction
  declaredNode _ declared := by contradiction
  edgesDistinct := List.nodup_nil
  ends _ _ linked := by contradiction

end Development

/-! ### Collected contracts -/

theorem exists_graph_addContract (graph : Graph) (name : String) :
    ∃ label, graph.addContract name =
      { graph with nodes := graph.nodes.insert name { label, defined := true } } := by
  unfold Graph.addContract
  cases graph.nodes.find? name with
  | none => exact ⟨name, rfl⟩
  | some node => exact ⟨node.label, rfl⟩

theorem contains_declarations_addContract (collection : Collection) (contract : Contract)
    (name : String) :
    (collection.addContract contract).declarations.contains name =
      (decide (contract.name = name) || collection.declarations.contains name) := by
  unfold addContract Declarations.add
  rw [Table.contains_insert, Declaration.ofContract_name]

theorem develops_addContract (collection : Collection) (contract : Contract) :
    collection.Develops (collection.addContract contract) := by
  intro consistent
  have declared := contains_declarations_addContract collection contract
  obtain ⟨label, added⟩ := exists_graph_addContract collection.graph contract.name
  have graph : (collection.addContract contract).graph =
      { collection.graph with
        nodes := collection.graph.nodes.insert contract.name { label, defined := true } } := added
  have nodeStays : ∀ name, collection.graph.nodes.contains name = true →
      (collection.addContract contract).graph.nodes.contains name = true := by
    intro name present
    rw [graph, Table.contains_insert, present, Bool.or_true]
  refine ⟨⟨?_, ?_, ?_, ?_, ?_⟩, ⟨?_, ?_⟩⟩
  · rw [graph]
    exact Table.nodup_keys_insert _ _ _ consistent.nodesDistinct
  · intro name node found
    rw [graph, Table.find?_insert] at found
    rw [declared]
    split at found
    next same =>
      obtain rfl := Option.some.inj found
      simp [same]
    next different =>
      rw [consistent.definedIff name node found]
      simp [different]
  · intro name isDeclared
    rw [declared, Bool.or_eq_true, decide_eq_true_eq] at isDeclared
    rcases isDeclared with rfl | earlier
    · rw [graph, Table.contains_insert]
      simp
    · exact nodeStays name (consistent.declaredNode name earlier)
  · rw [graph]
    exact consistent.edgesDistinct
  · intro caller callee linked
    rw [graph] at linked
    obtain ⟨callerDeclared, callerNode, name, isCallee, calleeNode⟩ :=
      consistent.ends caller callee linked
    refine ⟨?_, nodeStays caller callerNode, name, isCallee, nodeStays name calleeNode⟩
    rw [declared, callerDeclared, Bool.or_true]
  · intro name node found
    rw [graph, Table.find?_insert]
    split
    next => exact ⟨_, rfl, fun _ => rfl⟩
    next => exact ⟨node, found, id⟩
  · intro link kind found
    rw [graph]
    exact found

theorem develops_addUnits (collection : Collection) (units : List SourceUnit) :
    collection.Develops (collection.addUnits units) := by
  rw [addUnits_eq_foldl]
  induction unitContracts units generalizing collection with
  | nil => exact Develops.refl collection
  | cons contract later inductionHypothesis =>
      exact (develops_addContract collection contract).trans (inductionHypothesis _)

/-! ### Drawn edges -/

section NewEdge

variable {collection : Collection} {edge : Link × CallKind} {callee : String}

theorem nodes_addEntry_of_new (new : collection.graph.edges.contains edge.1 = false)
    (isCallee : edge.1.2 = some callee) :
    (collection.graph.addEntry edge).nodes =
      collection.graph.nodes.addNew (callee, undefinedNode callee) := by
  rw [Graph.nodes_addEntry_of_absent new, Graph.calleeNode?, isCallee]
  rfl

theorem contains_nodes_addEntry (new : collection.graph.edges.contains edge.1 = false)
    (isCallee : edge.1.2 = some callee) (name : String) :
    (collection.graph.addEntry edge).nodes.contains name =
      (collection.graph.nodes.contains name || decide (callee = name)) := by
  rw [nodes_addEntry_of_new new isCallee, Table.contains_addNew]

/-- A name without a node is not declared, so that its new node is rightly undefined. -/
theorem Consistent.definedIff_addNew (consistent : collection.Consistent) {name : String}
    {node : Node}
    (found : (collection.graph.nodes.addNew (callee, undefinedNode callee)).find? name =
      some node) :
    node.defined = true ↔ collection.declarations.contains name = true := by
  rw [Table.find?_addNew] at found
  cases earlier : collection.graph.nodes.find? name with
  | some known =>
      rw [earlier] at found
      obtain rfl : known = node := Option.some.inj found
      exact consistent.definedIff name known earlier
  | none =>
      have undeclared : ¬collection.declarations.contains name = true := by
        intro isDeclared
        have known := consistent.declaredNode name isDeclared
        rw [Table.contains, earlier] at known
        contradiction
      rw [earlier, Option.none_or] at found
      split at found
      next =>
        obtain rfl := Option.some.inj found
        exact ⟨fun defined => by contradiction, fun isDeclared => absurd isDeclared undeclared⟩
      next => contradiction

theorem Consistent.ends_addEntry (consistent : collection.Consistent)
    (new : collection.graph.edges.contains edge.1 = false) (isCallee : edge.1.2 = some callee)
    (callerDeclared : collection.declarations.contains edge.1.1 = true)
    {caller : String} {target : Option String}
    (linked : (collection.graph.addEntry edge).edges.contains (caller, target) = true) :
    collection.declarations.contains caller = true ∧
      (collection.graph.addEntry edge).nodes.contains caller = true ∧
      ∃ name, target = some name ∧
        (collection.graph.addEntry edge).nodes.contains name = true := by
  have nodes := contains_nodes_addEntry new isCallee
  rw [Graph.edges_addEntry, Table.contains_addNew, Bool.or_eq_true, decide_eq_true_eq] at linked
  rcases linked with earlier | isNew
  · obtain ⟨declared, callerNode, name, isTarget, targetNode⟩ :=
      consistent.ends caller target earlier
    exact ⟨declared, by rw [nodes, callerNode, Bool.true_or], name, isTarget,
      by rw [nodes, targetNode, Bool.true_or]⟩
  · rw [isNew] at callerDeclared isCallee
    have callerNode := consistent.declaredNode caller callerDeclared
    exact ⟨callerDeclared, by rw [nodes, callerNode, Bool.true_or], callee, isCallee,
      by rw [nodes, decide_eq_true rfl, Bool.or_true]⟩

theorem Consistent.addEntry (consistent : collection.Consistent)
    (new : collection.graph.edges.contains edge.1 = false) (isCallee : edge.1.2 = some callee)
    (callerDeclared : collection.declarations.contains edge.1.1 = true) :
    Consistent { collection with graph := collection.graph.addEntry edge } where
  nodesDistinct := by
    dsimp only
    rw [nodes_addEntry_of_new new isCallee]
    exact Table.nodup_keys_addNew consistent.nodesDistinct _
  definedIff name node found := by
    dsimp only at found
    rw [nodes_addEntry_of_new new isCallee] at found
    exact consistent.definedIff_addNew found
  declaredNode name isDeclared := by
    dsimp only
    rw [contains_nodes_addEntry new isCallee, consistent.declaredNode name isDeclared,
      Bool.true_or]
  edgesDistinct := by
    dsimp only
    rw [Graph.edges_addEntry]
    exact Table.nodup_keys_addNew consistent.edgesDistinct _
  ends _ _ linked := consistent.ends_addEntry new isCallee callerDeclared linked

theorem growsTo_addEntry (new : collection.graph.edges.contains edge.1 = false)
    (isCallee : edge.1.2 = some callee) :
    collection.GrowsTo { collection with graph := collection.graph.addEntry edge } where
  nodes name node found := by
    refine ⟨node, ?_, id⟩
    dsimp only
    rw [nodes_addEntry_of_new new isCallee, Table.find?_addNew, found]
    rfl
  edges link kind found := by
    dsimp only
    rw [Graph.edges_addEntry, Table.find?_addNew, found]
    rfl

theorem develops_addEntry (callerDeclared : collection.declarations.contains edge.1.1 = true)
    (isCallee : edge.1.2 = some callee) :
    collection.Develops { collection with graph := collection.graph.addEntry edge } := by
  intro consistent
  cases present : collection.graph.edges.contains edge.1 with
  | true =>
      rw [Graph.addEntry_of_present present]
      exact ⟨consistent, GrowsTo.refl collection⟩
  | false =>
      exact ⟨consistent.addEntry present isCallee callerDeclared,
        growsTo_addEntry present isCallee⟩

end NewEdge

theorem develops_addEntries {collection : Collection} (edges : List (Link × CallKind))
    (ends : ∀ edge ∈ edges, collection.declarations.contains edge.1.1 = true ∧
      ∃ callee, edge.1.2 = some callee) :
    collection.Develops { collection with graph := edges.foldl Graph.addEntry collection.graph } := by
  induction edges generalizing collection with
  | nil => exact Develops.refl collection
  | cons edge later inductionHypothesis =>
      obtain ⟨callerDeclared, callee, isCallee⟩ := ends edge List.mem_cons_self
      refine (develops_addEntry callerDeclared isCallee).trans (inductionHypothesis ?_)
      intro other member
      exact ends other (List.mem_cons_of_mem edge member)

theorem develops_analyze {before : Collection} {omitLibraries : Bool} {units : List SourceUnit}
    {analysis : CallAnalysis} (success : analyze before omitLibraries units = .ok analysis) :
    before.Develops { before.addUnits units with graph := analysis.graph } := by
  obtain ⟨orders, -, drawn⟩ := exists_analyze_iff.mp ⟨analysis, success, rfl⟩
  rw [← drawn]
  refine (develops_addUnits before units).trans (develops_addEntries _ ?_)
  intro edge member
  obtain ⟨caller, callee⟩ := ends_of_mem_callEdges member
  refine ⟨?_, callee⟩
  rw [contains_declarations_addUnits, List.contains_iff_mem.mpr caller, Bool.or_true]

end Collection

end ContractCalls.Analysis

namespace ContractCalls.Session

open ContractCalls.Analysis ContractCalls.Files

/-! ### Whole histories -/

theorem develops_run (options : Options) (disk : Disk) (inputs : List String) (session : Session) :
    session.collection.Develops (outcome (run options disk inputs) session).2.collection := by
  have effect := run_effect options disk inputs session
  generalize (outcome (run options disk inputs) session).1 = ended at effect
  generalize (outcome (run options disk inputs) session).2.collection = left at effect ⊢
  cases effect with
  | unloaded _ => exact Collection.Develops.refl session.collection
  | unordered _ _ => exact Collection.develops_addUnits session.collection _
  | drawn _ success => exact Collection.develops_analyze success

/-- A run that is asked for: its options, the files there are then, and its inputs. -/
structure Invocation where
  options : Options
  disk : Disk
  inputs : List String

/-- The session after a run, whether or not the run fails. -/
def perform (session : Session) (invocation : Invocation) : Session :=
  (outcome (run invocation.options invocation.disk invocation.inputs) session).2

/-- The session after several runs, the first of which found nothing before it. -/
def history (invocations : List Invocation) : Session := invocations.foldl perform {}

theorem history_append_singleton (earlier : List Invocation) (next : Invocation) :
    history (earlier ++ [next]) = (history earlier).perform next :=
  List.foldl_append

theorem consistent_history (invocations : List Invocation) :
    (history invocations).collection.Consistent := by
  induction invocations using List.reverseRecOn with
  | nil => exact Collection.consistent_empty
  | append_singleton earlier next inductionHypothesis =>
      rw [history_append_singleton]
      exact (develops_run _ _ _ (history earlier) inductionHypothesis).1

/-- After every run of every history the graph is consistent with the
declarations, and the run has taken nothing back of what was there before it. -/
theorem history_consistent_and_growing (earlier : List Invocation) (next : Invocation) :
    (history (earlier ++ [next])).collection.Consistent ∧
      (history earlier).collection.GrowsTo (history (earlier ++ [next])).collection := by
  rw [history_append_singleton]
  exact develops_run _ _ _ (history earlier) (consistent_history earlier)

end ContractCalls.Session
