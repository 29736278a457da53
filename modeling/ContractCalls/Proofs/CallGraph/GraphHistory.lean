import ContractCalls.Proofs.CallGraph.Collected
import ContractCalls.Proofs.CallGraph.DrawnEdges

/-!
Contract: a graph as a function of the operations that made it.

Owns:
- operations on graphs, and what each of them mentions, defines and links;
- the nodes and edges of a history: first mentions and first links, in order;
- the step law, that one more operation extends these, and the run law for
  histories of any length.

An operation changes at most the node of the name it mentions, and an edge that
is already there has its callee among the nodes.  So a link that is suppressed
has nothing left to do.
-/

set_option autoImplicit false

namespace ContractCalls.Table

variable {κ α : Type} [DecidableEq κ]

/-- Setting a key in a table that computes its values from its keys. -/
theorem assign_map {keys : List κ} (distinct : keys.Nodup) (key : κ) (value : α) (values : κ → α) :
    assign key value (keys.map fun each => (each, values each)) =
      (if key ∈ keys then keys else keys ++ [key]).map
        fun each => (each, if each = key then value else values each) := by
  induction keys with
  | nil => simp [assign]
  | cons first rest inductionHypothesis =>
      obtain ⟨notAgain, restDistinct⟩ := List.nodup_cons.mp distinct
      by_cases same : first = key
      · subst same
        have unchanged : ∀ each ∈ rest,
            (each, if each = first then value else values each) = (each, values each) := by
          intro each member
          have different : each ≠ first := fun equal => notAgain (equal ▸ member)
          rw [if_neg different]
        rw [List.map_cons, assign, if_pos rfl, if_pos List.mem_cons_self, List.map_cons,
          if_pos rfl, List.map_congr_left unchanged]
      · have different : key ≠ first := fun equal => same equal.symm
        rw [List.map_cons, assign, if_neg same, inductionHypothesis restDistinct]
        by_cases later : key ∈ rest
        · simp [later, same]
        · simp [later, same, different]

theorem lookup_map_keys (key : κ) (values : κ → α) (keys : List κ) :
    lookup key (keys.map fun each => (each, values each)) =
      if key ∈ keys then some (values key) else none := by
  induction keys with
  | nil => rfl
  | cons first rest inductionHypothesis =>
      rw [List.map_cons, lookup, inductionHypothesis]
      by_cases same : first = key
      · simp [same]
      · have different : key ≠ first := fun equal => same equal.symm
        simp [same, different]

theorem eraseDups_append_singleton (keys : List κ) (key : κ) :
    (keys ++ [key]).eraseDups =
      if key ∈ keys.eraseDups then keys.eraseDups else keys.eraseDups ++ [key] := by
  rw [List.eraseDups_append]
  by_cases present : key ∈ keys
  · have removed : [key].removeAll keys = [] := by simp [List.removeAll, present]
    rw [removed, if_pos (List.mem_eraseDups.mpr present)]
    simp
  · have kept : [key].removeAll keys = [key] := by simp [List.removeAll, present]
    rw [kept, if_neg (fun member => present (List.mem_eraseDups.mp member))]
    rfl

end ContractCalls.Table

namespace ContractCalls.Analysis.Graph

/-! ### Operations -/

/-- A change of a graph. -/
inductive Operation where
  | addContract (name : String)
  | ensureNode (name : String)
  | addEdge (caller callee : String) (kind : CallKind)
  deriving Repr, DecidableEq

namespace Operation

def apply (graph : Graph) : Operation → Graph
  | addContract name => graph.addContract name
  | ensureNode name => graph.ensureNode name
  | addEdge caller callee kind => graph.addEdge caller (some callee) kind

/-- The name that an operation mentions.  Callers are not mentioned. -/
def mentioned : Operation → String
  | addContract name => name
  | ensureNode name => name
  | addEdge _ callee _ => callee

/-- The edge that an operation asks for. -/
def edge? : Operation → Option (Link × CallKind)
  | addEdge caller callee kind => some ((caller, some callee), kind)
  | _ => none

end Operation

/-- The graph after a history of operations. -/
def ofHistory (history : List Operation) : Graph := history.foldl Operation.apply {}

/-! ### The closed form -/

/-- The node of a name after a history. -/
def nodeAfter (history : List Operation) (name : String) : Node :=
  { label := name, defined := decide (Operation.addContract name ∈ history) }

/-- The mentioned names with their nodes, in the order of their first mentions. -/
def nodesAfter (history : List Operation) : Table String Node :=
  ⟨(history.map Operation.mentioned).eraseDups.map fun name => (name, nodeAfter history name)⟩

/-- The first edge between each pair, in the order of these. -/
def edgesAfter (history : List Operation) : Table Link CallKind :=
  ⟨Table.firstEntries (history.filterMap Operation.edge?)⟩

section Steps

variable (history : List Operation)

theorem find?_nodesAfter (name : String) :
    (nodesAfter history).find? name =
      if name ∈ history.map Operation.mentioned then some (nodeAfter history name) else none := by
  unfold nodesAfter Table.find?
  rw [Table.lookup_map_keys]
  simp only [List.mem_eraseDups]

theorem nodeAfter_of_other {operation : Operation} {name : String}
    (other : operation ≠ .addContract name) :
    nodeAfter (history ++ [operation]) name = nodeAfter history name := by
  have notLast : Operation.addContract name ≠ operation := fun same => other same.symm
  simp [nodeAfter, notLast]

/-- One more operation sets the node of the name that it mentions. -/
theorem nodesAfter_append_singleton (operation : Operation) :
    nodesAfter (history ++ [operation]) =
      (nodesAfter history).insert operation.mentioned
        (nodeAfter (history ++ [operation]) operation.mentioned) := by
  have distinct := Table.nodup_eraseDups (history.map Operation.mentioned)
  unfold nodesAfter Table.insert
  rw [Table.assign_map distinct, List.map_append, List.map_singleton,
    Table.eraseDups_append_singleton]
  congr 1
  apply List.map_congr_left
  intro name _
  by_cases same : name = operation.mentioned
  · rw [if_pos same, same]
  · have other : operation ≠ .addContract name := by
      rintro rfl
      exact same rfl
    rw [if_neg same, nodeAfter_of_other history other]

theorem edgesAfter_append_singleton (operation : Operation) :
    edgesAfter (history ++ [operation]) =
      operation.edge?.toList.foldl Table.addNew (edgesAfter history) := by
  have asRun : ∀ entries : List (Link × CallKind),
      (⟨Table.firstEntries entries⟩ : Table Link CallKind) = entries.foldl Table.addNew {} := by
    intro entries
    rw [Table.firstEntries_eq_foldl]
  unfold edgesAfter
  rw [asRun, asRun, List.filterMap_append, List.foldl_append]
  cases asked : operation.edge? with
  | none => rw [List.filterMap_cons_none asked]; rfl
  | some edge => rw [List.filterMap_cons_some asked]; rfl

theorem contains_edgesAfter_iff (caller callee : String) :
    (edgesAfter history).contains (caller, some callee) = true ↔
      ∃ kind, .addEdge caller callee kind ∈ history := by
  rw [Table.contains, Option.isSome_iff_exists]
  unfold edgesAfter Table.find?
  dsimp only
  rw [Table.lookup_firstEntries]
  constructor
  · rintro ⟨kind, found⟩
    obtain ⟨operation, member, asked⟩ := List.mem_filterMap.mp (Table.mem_of_lookup found)
    refine ⟨kind, ?_⟩
    cases operation with
    | addContract name => cases asked
    | ensureNode name => cases asked
    | addEdge source target given =>
        obtain ⟨⟨rfl, rfl⟩, rfl⟩ := by simpa [Operation.edge?] using asked
        exact member
  · rintro ⟨kind, member⟩
    have asked : ((caller, some callee), kind) ∈ history.filterMap Operation.edge? :=
      List.mem_filterMap.mpr ⟨_, member, rfl⟩
    rw [← Option.ne_none_iff_exists', Ne, Table.lookup_eq_none_iff, not_not]
    exact List.mem_map.mpr ⟨_, asked, rfl⟩

/-! ### One operation -/

/-- The graph that a history determines. -/
def after : Graph := { nodes := nodesAfter history, edges := edgesAfter history }

/-- A contract gets a defined node, in the place of an undefined one if there is one. -/
theorem nodes_addContract_after (name : String) :
    ((after history).addContract name).nodes =
      (nodesAfter history).insert name (definedNode name) := by
  have found := find?_nodesAfter history name
  unfold addContract after
  dsimp only
  rw [found]
  by_cases present : name ∈ history.map Operation.mentioned
  · rw [if_pos present]
    rfl
  · rw [if_neg present]
    rfl

/-- A name that is mentioned has a node afterwards, and keeps the one it has. -/
theorem nodes_ensureNode_after (name : String) :
    ((after history).ensureNode name).nodes =
      (nodesAfter history).insert name (nodeAfter history name) := by
  have found := find?_nodesAfter history name
  unfold ensureNode after
  dsimp only
  by_cases present : name ∈ history.map Operation.mentioned
  · rw [if_pos present] at found
    rw [found]
    exact (Table.insert_of_find? found).symm
  · rw [if_neg present] at found
    have neverDefined : Operation.addContract name ∉ history := fun member =>
      present (List.mem_map.mpr ⟨_, member, rfl⟩)
    rw [found]
    simp [nodeAfter, neverDefined]

theorem nodes_apply_after (operation : Operation) :
    (operation.apply (after history)).nodes = nodesAfter (history ++ [operation]) := by
  rw [nodesAfter_append_singleton]
  cases operation with
  | addContract name =>
      have defined : nodeAfter (history ++ [.addContract name]) name = definedNode name := by
        simp [nodeAfter, definedNode]
      exact (nodes_addContract_after history name).trans (by rw [← defined]; rfl)
  | ensureNode name =>
      rw [nodeAfter_of_other history (by simp)]
      exact nodes_ensureNode_after history name
  | addEdge caller callee kind =>
      rw [nodeAfter_of_other history (by simp)]
      show ((after history).addEntry ((caller, some callee), kind)).nodes =
        (nodesAfter history).insert callee (nodeAfter history callee)
      cases linked : (after history).edges.contains (caller, some callee) with
      | false =>
          rw [nodes_addEntry_of_absent linked]
          exact (ensureNode_nodes (after history) callee).symm.trans
            (nodes_ensureNode_after history callee)
      | true =>
          -- The callee of an edge that is there was mentioned together with it.
          obtain ⟨first, earlier⟩ := (contains_edgesAfter_iff history caller callee).mp linked
          have present : callee ∈ history.map Operation.mentioned :=
            List.mem_map.mpr ⟨_, earlier, rfl⟩
          have found := find?_nodesAfter history callee
          rw [if_pos present] at found
          rw [addEntry_of_present linked]
          exact (Table.insert_of_find? found).symm

theorem edges_apply_after (operation : Operation) :
    (operation.apply (after history)).edges = edgesAfter (history ++ [operation]) := by
  rw [edgesAfter_append_singleton]
  cases operation with
  | addContract name => rfl
  | ensureNode name => exact ensureNode_edges (after history) name
  | addEdge caller callee kind =>
      exact edges_addEntry (after history) ((caller, some callee), kind)

end Steps

/-! ### Whole histories -/

theorem apply_after (history : List Operation) (operation : Operation) :
    operation.apply (after history) = after (history ++ [operation]) :=
  congrArg₂ Graph.mk (nodes_apply_after history operation) (edges_apply_after history operation)

/-- Every operation extends what the history before it determines. -/
theorem foldl_apply_after (earlier later : List Operation) :
    later.foldl Operation.apply (after earlier) = after (earlier ++ later) := by
  induction later generalizing earlier with
  | nil => rw [List.foldl_nil, List.append_nil]
  | cons operation rest inductionHypothesis =>
      rw [List.foldl_cons, apply_after, inductionHypothesis, List.append_assoc]
      rfl

theorem ofHistory_eq_after (history : List Operation) : ofHistory history = after history :=
  foldl_apply_after [] history

/-- The nodes of a history are the names that were declared, mentioned or called, in
the order of their first mentions and labelled with themselves; a node is defined
exactly if its contract was declared, at whatever time.  The edges are the first of
each pair, in order and with their kinds.  After the history, an edge is reported as
added exactly if no operation of the history linked its pair. -/
theorem ofHistory_determined (history : List Operation) :
    (ofHistory history).nodes.entries =
        (history.map Operation.mentioned).eraseDups.map (fun name =>
          (name, { label := name, defined := decide (.addContract name ∈ history) })) ∧
      (ofHistory history).edges.entries =
        Table.firstEntries (history.filterMap Operation.edge?) ∧
      ∀ caller callee, (ofHistory history).addsEdge caller (some callee) = true ↔
        ∀ kind, .addEdge caller callee kind ∉ history := by
  refine ⟨by rw [ofHistory_eq_after]; rfl, by rw [ofHistory_eq_after]; rfl, ?_⟩
  intro caller callee
  have linked := contains_edgesAfter_iff history caller callee
  rw [ofHistory_eq_after, addsEdge, hasEdge, Bool.not_eq_true', ← Bool.not_eq_true]
  exact (not_congr linked).trans not_exists

-- A callee that is declared later keeps its place, and the second kind of a link is lost.
example :
    ofHistory [.addEdge "Till" "Token" .external, .ensureNode "Vault", .addContract "Token",
        .addEdge "Till" "Token" .library] =
      { nodes := ⟨[("Token", definedNode "Token"), ("Vault", undefinedNode "Vault")]⟩
        edges := ⟨[(("Till", some "Token"), .external)]⟩ } := by
  decide

end ContractCalls.Analysis.Graph
