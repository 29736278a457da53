import ContractCalls.Proofs.CallGraph.Collected
import ContractCalls.Proofs.CallGraph.DrawnEdges

/-!
Contract: the analysis of a fresh program, without any state.

Owns:
- the edges and nodes that a program has by its calls alone;
- the refinement: the analysis, which threads a scope and a graph through both
  readings, ends with exactly these, whenever the base map is linearized.
-/

set_option autoImplicit false

namespace ContractCalls.Analysis

open ContractCalls.Solidity

/-- What the calls of a fresh program are resolved against. -/
def unitContext (omitLibraries : Bool) (units : List SourceUnit)
    (orders : Linearization.Orders) : Context :=
  { declarations := (Collection.addUnits {} units).declarations, orders, omitLibraries }

/-- The first edge that is asked for between each pair of contracts. -/
def statelessEdges (context : Context) (units : List SourceUnit) : List (Link × CallKind) :=
  Table.firstEntries (callEdges context units)

/-- The declared contracts in the order in which their names first come, and
then the other callees in the order of their first edges. -/
def statelessNodes (context : Context) (units : List SourceUnit) : List (String × Node) :=
  let declared := Collection.contractNames units
  let callees := (statelessEdges context units).filterMap fun edge => edge.1.2
  (declared.eraseDups.map fun name => (name, definedNode name)) ++
    (callees.filter fun name => !declared.contains name).eraseDups.map
      fun name => (name, undefinedNode name)

theorem filterMap_calleeNode? (edges : List (Link × CallKind)) :
    edges.filterMap Graph.calleeNode? =
      (edges.filterMap fun edge => edge.1.2).map fun name => (name, undefinedNode name) := by
  rw [List.map_filterMap]
  rfl

theorem edges_drawUnits (context : Context) (units : List SourceUnit) :
    (drawUnits context (Collection.addUnits {} units).graph units).2.edges.entries =
      statelessEdges context units := by
  rw [graph_drawUnits, Graph.edges_foldl_addEntry, Collection.edges_addUnits,
    Table.entries_foldl_addNew, Table.newEntries_empty]
  rfl

theorem nodes_drawUnits (context : Context) (units : List SourceUnit) :
    (drawUnits context (Collection.addUnits {} units).graph units).2.nodes.entries =
      statelessNodes context units := by
  rw [graph_drawUnits, Graph.nodes_foldl_addEntry, Collection.edges_addUnits,
    Table.newEntries_empty, Table.entries_foldl_addNew, filterMap_calleeNode?,
    Table.newEntries_map, Collection.nodes_addUnits]
  simp only [Collection.contains_nodes_addUnits]
  rfl

/-! ### The analysis -/

def unitBases (units : List SourceUnit) : Linearization.BaseLists :=
  (Collection.addUnits {} units).declarations.baseLists

/-- What a fresh program is analyzed to, given the orders of its contracts. -/
def freshAnalysis (omitLibraries : Bool) (units : List SourceUnit)
    (orders : Linearization.Orders) : CallAnalysis :=
  let drawn := drawUnits (unitContext omitLibraries units orders)
    (Collection.addUnits {} units).graph units
  { collection := Collection.addUnits {} units, orders, drawings := drawn.1, graph := drawn.2 }

theorem analyze_of_linearize {units : List SourceUnit} {orders : Linearization.Orders}
    (linearized : Linearization.linearize (unitBases units) = .ok orders) (omitLibraries : Bool) :
    analyze {} omitLibraries units = .ok (freshAnalysis omitLibraries units orders) := by
  unfold unitBases at linearized
  unfold analyze
  dsimp only
  rw [linearized]
  rfl

theorem analyze_of_failure {units : List SourceUnit} {failure : LinearizationFailure}
    (failed : Linearization.linearize (unitBases units) = .error failure) (omitLibraries : Bool) :
    analyze {} omitLibraries units = .error failure := by
  unfold unitBases at failed
  unfold analyze
  dsimp only
  rw [failed]
  rfl

/-- A fresh program whose base map is linearized is analyzed, and the result
has the stateless edges and nodes; the edges that are added for the single
source units are all the edges there are. -/
theorem analyze_refines_stateless {units : List SourceUnit} {orders : Linearization.Orders}
    (linearized : Linearization.linearize (unitBases units) = .ok orders) (omitLibraries : Bool) :
    ∃ analysis, analyze {} omitLibraries units = .ok analysis ∧
      analysis.graph.edges.entries =
        statelessEdges (unitContext omitLibraries units orders) units ∧
      (analysis.drawings.map Drawing.added).sum = analysis.graph.edges.size ∧
      analysis.graph.nodes.entries =
        statelessNodes (unitContext omitLibraries units orders) units := by
  refine ⟨_, analyze_of_linearize linearized omitLibraries, edges_drawUnits _ units, ?_,
    nodes_drawUnits _ units⟩
  have counts := added_drawUnits (unitContext omitLibraries units orders)
    (Collection.addUnits {} units).graph units
  rw [Collection.edges_addUnits] at counts
  exact (counts.trans (Nat.zero_add _)).symm

/-- A variable of one body that the next body does not have, and a base that is
not declared. -/
def vaultUnits : List SourceUnit :=
  [{ contracts := [{
      name := "Vault"
      bases := ["Base"]
      members := [
        .function (some "pay") .function
          { parameters := [{ name := some "token", type := .userDefined "Token" }]
            body := some [.expression (.call (.member (.identifier "token") "send")
              [.call (.member (.identifier "super") "fee") [] 2] 2)] },
        .function (some "drop") .function
          { body := some [.expression (.call (.member (.identifier "token") "send") [] 3)] }] }] }]

theorem analyze_refines_vault :
    Linearization.linearize (unitBases vaultUnits) =
        .ok ⟨[("Base", ["Base"]), ("Vault", ["Vault", "Base"])]⟩ ∧
      ∃ analysis, analyze {} false vaultUnits = .ok analysis ∧
        analysis.graph.edges.entries =
          [(("Vault", some "Token"), .external), (("Vault", some "Base"), .super),
            (("Vault", some "token"), .external)] := by
  have linearized : Linearization.linearize (unitBases vaultUnits) =
      .ok ⟨[("Base", ["Base"]), ("Vault", ["Vault", "Base"])]⟩ := by
    decide +kernel
  obtain ⟨analysis, success, edges, -⟩ := analyze_refines_stateless linearized false
  refine ⟨linearized, analysis, success, edges.trans ?_⟩
  decide +kernel

end ContractCalls.Analysis
