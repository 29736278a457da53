import ContractCalls.Analysis.Collection
import ContractCalls.Proofs.TableEntries

/-!
Contract: what the first reading of a program leaves behind.

Owns:
- the first reading as one run over all contracts, whatever files they are in;
- the nodes of a fresh collection: one for each contract name, all defined;
- the declarations of a fresh collection.
-/

set_option autoImplicit false

namespace ContractCalls.Analysis

open ContractCalls.Solidity

/-- The contracts of source units, in source order. -/
def unitContracts (units : List SourceUnit) : List Contract := units.flatMap SourceUnit.contracts

theorem contractNames_eq_map (units : List SourceUnit) :
    Collection.contractNames units = (unitContracts units).map Contract.name := by
  rw [Collection.contractNames, unitContracts, List.map_flatMap]

/-- The node of a declared contract. -/
def definedNode (name : String) : Node := { label := name, defined := true }

/-- The node of a name that is only called. -/
def undefinedNode (name : String) : Node := { label := name, defined := false }

namespace Graph

/-- A graph in which every node stands for a declared contract. -/
def AllDefined (graph : Graph) : Prop :=
  ∀ name node, graph.nodes.find? name = some node → node = definedNode name

theorem nodes_addContract {graph : Graph} (allDefined : graph.AllDefined) (name : String) :
    (graph.addContract name).nodes = graph.nodes.addNew (name, definedNode name) := by
  unfold addContract Table.addNew Table.contains
  cases found : graph.nodes.find? name with
  | none => rfl
  | some node =>
      -- Defining a node again stores what is already there.
      have same := allDefined name node found
      subst same
      exact Table.insert_of_find? found

theorem AllDefined.addContract {graph : Graph} (allDefined : graph.AllDefined) (name : String) :
    (graph.addContract name).AllDefined := by
  intro other node found
  rw [nodes_addContract allDefined, Table.addNew] at found
  split at found
  next => exact allDefined other node found
  next =>
    rw [Table.find?_insert] at found
    split at found
    next same => rw [← same, ← Option.some.inj found]
    next => exact allDefined other node found

theorem nodes_foldl_addContract {graph : Graph} (allDefined : graph.AllDefined)
    (names : List String) :
    (names.foldl addContract graph).nodes =
      (names.map fun name => (name, definedNode name)).foldl Table.addNew graph.nodes := by
  induction names generalizing graph with
  | nil => rfl
  | cons name later inductionHypothesis =>
      rw [List.foldl_cons, inductionHypothesis (allDefined.addContract name),
        nodes_addContract allDefined]
      rfl

theorem edges_foldl_addContract (graph : Graph) (names : List String) :
    (names.foldl addContract graph).edges = graph.edges := by
  induction names generalizing graph with
  | nil => rfl
  | cons name later inductionHypothesis => exact inductionHypothesis (graph.addContract name)

end Graph

namespace Collection

theorem addUnits_eq_foldl (collection : Collection) (units : List SourceUnit) :
    collection.addUnits units = (unitContracts units).foldl addContract collection := by
  rw [unitContracts, List.foldl_flatMap]
  rfl

theorem graph_foldl_addContract (collection : Collection) (contracts : List Contract) :
    (contracts.foldl addContract collection).graph =
      (contracts.map Contract.name).foldl Graph.addContract collection.graph := by
  induction contracts generalizing collection with
  | nil => rfl
  | cons contract later inductionHypothesis =>
      exact inductionHypothesis (collection.addContract contract)

/-- The nodes of a fresh collection are the contracts in the order in which
their names first come. -/
theorem nodes_addUnits (units : List SourceUnit) :
    (addUnits {} units).graph.nodes.entries =
      (contractNames units).eraseDups.map fun name => (name, definedNode name) := by
  have noneYet : Graph.AllDefined {} := by
    intro name node found
    contradiction
  rw [addUnits_eq_foldl, graph_foldl_addContract, Graph.nodes_foldl_addContract noneYet,
    Table.entries_foldl_addNew, Table.newEntries_empty, Table.firstEntries_map,
    contractNames_eq_map]
  rfl

theorem edges_graph_addUnits (collection : Collection) (units : List SourceUnit) :
    (collection.addUnits units).graph.edges = collection.graph.edges := by
  rw [addUnits_eq_foldl, graph_foldl_addContract, Graph.edges_foldl_addContract]

theorem edges_addUnits (units : List SourceUnit) : (addUnits {} units).graph.edges = {} :=
  edges_graph_addUnits {} units

theorem contains_nodes_addUnits (units : List SourceUnit) (name : String) :
    (addUnits {} units).graph.nodes.contains name = (contractNames units).contains name := by
  apply Bool.eq_iff_iff.mpr
  rw [Table.contains_iff_mem_keys, Table.keys, nodes_addUnits, List.map_map,
    List.contains_iff_mem, ← List.mem_eraseDups (l := contractNames units)]
  simp

end Collection

/-! ### Declarations -/

namespace Declaration

theorem addMember_name (declaration : Declaration) (member : Member) :
    (declaration.addMember member).name = declaration.name := by
  unfold addMember
  split
  next => split <;> rfl
  next =>
    split
    · rfl
    · split <;> rfl
  all_goals rfl

theorem foldl_addMember_name (declaration : Declaration) (members : List Member) :
    (members.foldl addMember declaration).name = declaration.name := by
  induction members generalizing declaration with
  | nil => rfl
  | cons member later inductionHypothesis =>
      rw [List.foldl_cons, inductionHypothesis, addMember_name]

theorem ofContract_name (contract : Contract) : (ofContract contract).name = contract.name :=
  foldl_addMember_name _ contract.members

end Declaration

def declarationEntries (contracts : List Contract) : List (String × Declaration) :=
  contracts.map fun contract => (contract.name, Declaration.ofContract contract)

theorem declarationEntries_keys (contracts : List Contract) :
    (declarationEntries contracts).map Prod.fst = contracts.map Contract.name := by
  rw [declarationEntries, List.map_map]
  rfl

namespace Collection

theorem declarations_foldl_addContract (collection : Collection) (contracts : List Contract) :
    (contracts.foldl addContract collection).declarations =
      collection.declarations.merge ⟨declarationEntries contracts⟩ := by
  induction contracts generalizing collection with
  | nil => rfl
  | cons contract later inductionHypothesis =>
      rw [List.foldl_cons, inductionHypothesis]
      unfold addContract Declarations.add
      rw [Declaration.ofContract_name]
      rfl

theorem contains_declarations_addUnits (collection : Collection) (units : List SourceUnit)
    (name : String) :
    (collection.addUnits units).declarations.contains name =
      (collection.declarations.contains name || (contractNames units).contains name) := by
  rw [addUnits_eq_foldl, declarations_foldl_addContract, Table.contains, Table.find?_merge,
    Option.isSome_or, Bool.or_comm, contractNames_eq_map]
  congr 1
  apply Bool.eq_iff_iff.mpr
  rw [List.contains_iff_mem, ← declarationEntries_keys, ← not_iff_not, Bool.not_eq_true,
    Option.isSome_eq_false_iff, Option.isNone_iff_eq_none, Table.lookup_eq_none_iff,
    List.map_reverse, List.mem_reverse]

/-- Of several contracts of one name the last is declared. -/
theorem find?_declarations_addUnits (units : List SourceUnit) (name : String) :
    (addUnits {} units).declarations.find? name =
      Table.lookup name (declarationEntries (unitContracts units)).reverse := by
  rw [addUnits_eq_foldl, declarations_foldl_addContract, Table.find?_merge]
  exact Option.or_none

end Collection

theorem find?_baseLists (declarations : Declarations) (name : String) :
    declarations.baseLists.find? name = (declarations.find? name).map Declaration.bases :=
  Table.lookup_map name Declaration.bases declarations.entries

end ContractCalls.Analysis
