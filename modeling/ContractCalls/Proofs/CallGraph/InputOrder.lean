import ContractCalls.Proofs.CallGraph.ContextAgreement
import ContractCalls.Proofs.CallGraph.Refinement
import ContractCalls.Proofs.Linearization.Agreement

/-!
Contract: the order and the files in which contracts come do not matter.

Owns the comparison of two fresh programs that hold the same contracts, each
name once: their declarations and orders agree on every look-up, and their
nodes and edges are the same up to order.

Every edge belongs to the contract that makes the call, so the first edge of a
pair is decided inside one contract.
-/

set_option autoImplicit false

namespace ContractCalls.Analysis

open ContractCalls.Solidity

/-! ### Edges by contract -/

/-- The edges that the calls of a contract ask for. -/
def contractEdges (context : Context) (contract : Contract) : List (Link × CallKind) :=
  (contractCalls contract).filterMap (PlacedCall.edge? context)

theorem callEdges_eq_flatMap (context : Context) (units : List SourceUnit) :
    callEdges context units = (unitContracts units).flatMap (contractEdges context) := by
  rw [callEdges, unitCalls, unitContracts, ← List.flatMap_assoc, List.filterMap_flatMap]
  rfl

theorem caller_of_mem_contractEdges {context : Context} {contract : Contract}
    {edge : Link × CallKind} (member : edge ∈ contractEdges context contract) :
    edge.1.1 = contract.name := by
  obtain ⟨call, isCall, asked⟩ := List.mem_filterMap.mp member
  rw [PlacedCall.caller_of_edge? asked, contract_of_mem_contractCalls isCall]

theorem lookup_contractEdges_of_other {context : Context} {contract : Contract} {link : Link}
    (other : contract.name ≠ link.1) :
    Table.lookup link (contractEdges context contract) = none := by
  rw [Table.lookup_eq_none_iff]
  intro listed
  obtain ⟨edge, member, rfl⟩ := List.mem_map.mp listed
  exact other (caller_of_mem_contractEdges member).symm

/-- Contracts of different names may be reordered without changing the first
edge of any pair. -/
theorem lookup_flatMap_contractEdges {left right : List Contract} (permutation : left.Perm right)
    (distinct : (left.map Contract.name).Nodup) (context : Context) (link : Link) :
    Table.lookup link (left.flatMap (contractEdges context)) =
      Table.lookup link (right.flatMap (contractEdges context)) := by
  induction permutation with
  | nil => rfl
  | cons contract _ inductionHypothesis =>
      rw [List.flatMap_cons, List.flatMap_cons, Table.lookup_append, Table.lookup_append,
        inductionHypothesis (List.nodup_cons.mp distinct).2]
  | swap first second rest =>
      simp only [List.flatMap_cons, Table.lookup_append]
      have different : second.name ≠ first.name := by
        intro same
        apply (List.nodup_cons.mp distinct).1
        rw [same]
        exact List.mem_cons_self
      -- At most one of the two makes calls for this pair.
      by_cases ofFirst : first.name = link.1
      · have notSecond : second.name ≠ link.1 := fun same => different (same.trans ofFirst.symm)
        rw [lookup_contractEdges_of_other notSecond]
        rfl
      · rw [lookup_contractEdges_of_other ofFirst]
        rfl
  | trans firstPermutation _ firstHypothesis secondHypothesis =>
      have middle := (firstPermutation.map Contract.name).nodup distinct
      exact (firstHypothesis distinct).trans (secondHypothesis middle)

/-! ### Edges and nodes of programs with the same contracts -/

section SameContracts

variable {left right : List SourceUnit}
  (sameContracts : (unitContracts left).Perm (unitContracts right))

include sameContracts

theorem contractNames_perm :
    (Collection.contractNames left).Perm (Collection.contractNames right) := by
  rw [contractNames_eq_map, contractNames_eq_map]
  exact sameContracts.map Contract.name

variable (distinct : (Collection.contractNames left).Nodup)

include distinct

theorem find?_declarations_congr (name : String) :
    (Collection.addUnits {} left).declarations.find? name =
      (Collection.addUnits {} right).declarations.find? name := by
  have entries : (declarationEntries (unitContracts left)).Perm
      (declarationEntries (unitContracts right)) := sameContracts.map _
  have keys : ((declarationEntries (unitContracts left)).reverse.map Prod.fst).Nodup := by
    rw [List.map_reverse, List.nodup_reverse, declarationEntries_keys, ← contractNames_eq_map]
    exact distinct
  rw [Collection.find?_declarations_addUnits, Collection.find?_declarations_addUnits]
  apply Table.lookup_perm _ keys
  exact (List.reverse_perm _).trans (entries.trans (List.reverse_perm _).symm)

theorem find?_unitBases_congr (name : String) :
    (unitBases left).find? name = (unitBases right).find? name := by
  unfold unitBases
  rw [find?_baseLists, find?_baseLists, find?_declarations_congr sameContracts distinct]

theorem unitContext_agrees {leftOrders rightOrders : Linearization.Orders}
    (sameOrders : ∀ name, leftOrders.find? name = rightOrders.find? name) (omitLibraries : Bool) :
    (unitContext omitLibraries left leftOrders).Agrees
      (unitContext omitLibraries right rightOrders) :=
  ⟨find?_declarations_congr sameContracts distinct, sameOrders, rfl⟩

theorem statelessEdges_perm {leftContext rightContext : Context}
    (agrees : leftContext.Agrees rightContext) :
    (statelessEdges leftContext left).Perm (statelessEdges rightContext right) := by
  unfold statelessEdges
  apply Table.perm_of_lookup (Table.nodup_keys_firstEntries _) (Table.nodup_keys_firstEntries _)
  intro link
  rw [Table.lookup_firstEntries, Table.lookup_firstEntries, callEdges_eq_flatMap,
    callEdges_eq_flatMap]
  have sameEdges : contractEdges leftContext = contractEdges rightContext := by
    funext contract
    unfold contractEdges
    rw [edge?_congr agrees]
  rw [sameEdges]
  apply lookup_flatMap_contractEdges sameContracts
  rw [← contractNames_eq_map]
  exact distinct

theorem statelessNodes_perm {leftContext rightContext : Context}
    (agrees : leftContext.Agrees rightContext) :
    (statelessNodes leftContext left).Perm (statelessNodes rightContext right) := by
  have names := contractNames_perm sameContracts
  have sameDeclared : ∀ name, (Collection.contractNames left).contains name =
      (Collection.contractNames right).contains name := by
    intro name
    apply Bool.eq_iff_iff.mpr
    rw [List.contains_iff_mem, List.contains_iff_mem, names.mem_iff]
  have edges := statelessEdges_perm sameContracts distinct agrees
  have callees := edges.filterMap fun edge => edge.1.2
  unfold statelessNodes
  simp only [sameDeclared]
  apply List.Perm.append
  · exact (Table.eraseDups_perm names).map _
  · exact (Table.eraseDups_perm (callees.filter _)).map _

end SameContracts

/-! ### The analysis -/

/-- Two fresh programs with the same contracts, each name once, fail together
when their base maps are linearized, or are both analyzed with the same
declarations, orders, nodes and edges. -/
theorem analyze_of_perm {left right : List SourceUnit}
    (sameContracts : (unitContracts left).Perm (unitContracts right))
    (distinct : (Collection.contractNames left).Nodup) (omitLibraries : Bool) :
    ((∃ failure, Linearization.linearize (unitBases left) = .error failure ∧
          analyze {} omitLibraries left = .error failure) ∧
        ∃ failure, Linearization.linearize (unitBases right) = .error failure ∧
          analyze {} omitLibraries right = .error failure) ∨
      ∃ leftAnalysis rightAnalysis,
        analyze {} omitLibraries left = .ok leftAnalysis ∧
        analyze {} omitLibraries right = .ok rightAnalysis ∧
        (∀ name, leftAnalysis.collection.declarations.find? name =
          rightAnalysis.collection.declarations.find? name) ∧
        (∀ name, leftAnalysis.orders.find? name = rightAnalysis.orders.find? name) ∧
        leftAnalysis.graph.nodes.entries.Perm rightAnalysis.graph.nodes.entries ∧
        leftAnalysis.graph.edges.entries.Perm rightAnalysis.graph.edges.entries := by
  have agree := find?_unitBases_congr sameContracts distinct
  have together := Linearization.linearize_succeeds_congr agree
  cases leftEnd : Linearization.linearize (unitBases left) with
  | error leftFailure =>
      cases rightEnd : Linearization.linearize (unitBases right) with
      | error rightFailure =>
          exact Or.inl ⟨⟨leftFailure, rfl, analyze_of_failure leftEnd omitLibraries⟩,
            ⟨rightFailure, rfl, analyze_of_failure rightEnd omitLibraries⟩⟩
      | ok rightOrders =>
          obtain ⟨leftOrders, success⟩ := together.mpr ⟨rightOrders, rightEnd⟩
          rw [leftEnd] at success
          contradiction
  | ok leftOrders =>
      obtain ⟨rightOrders, rightEnd⟩ := together.mp ⟨leftOrders, leftEnd⟩
      have sameOrders := Linearization.find?_linearize_congr agree leftEnd rightEnd
      have agrees := unitContext_agrees sameContracts distinct sameOrders omitLibraries
      refine Or.inr ⟨_, _, analyze_of_linearize leftEnd omitLibraries,
        analyze_of_linearize rightEnd omitLibraries,
        find?_declarations_congr sameContracts distinct, sameOrders, ?_, ?_⟩
      · show (drawUnits _ _ left).2.nodes.entries.Perm (drawUnits _ _ right).2.nodes.entries
        rw [nodes_drawUnits, nodes_drawUnits]
        exact statelessNodes_perm sameContracts distinct agrees
      · show (drawUnits _ _ left).2.edges.entries.Perm (drawUnits _ _ right).2.edges.entries
        rw [edges_drawUnits, edges_drawUnits]
        exact statelessEdges_perm sameContracts distinct agrees

/-- A contract that calls a declared contract through a variable and another
one by its name. -/
def clientContract : Contract :=
  { name := "Client"
    members := [
      .stateVariable "store" (.userDefined "Store"),
      .function (some "run") .function
        { body := some [.expression (.call (.member (.identifier "store") "put")
            [.call (.member (.identifier "Clock") "now") [] 3] 3)] }] }

/-- A contract that calls another one by its name. -/
def storeContract : Contract :=
  { name := "Store"
    bases := ["Base"]
    members := [
      .function (some "put") .function
        { body := some [.expression (.call (.member (.identifier "Clock") "now") [] 2)] }] }

def separateFiles : List SourceUnit :=
  [{ contracts := [clientContract] }, { contracts := [storeContract] }]

def oneFile : List SourceUnit := [{ contracts := [storeContract, clientContract] }]

theorem analyze_of_perm_client :
    (unitContracts separateFiles).Perm (unitContracts oneFile) ∧
      (Collection.contractNames separateFiles).Nodup ∧
      ∃ leftAnalysis rightAnalysis,
        analyze {} false separateFiles = .ok leftAnalysis ∧
        analyze {} false oneFile = .ok rightAnalysis ∧
        leftAnalysis.graph.edges.entries =
          [(("Client", some "Store"), .external), (("Client", some "Clock"), .external),
            (("Store", some "Clock"), .external)] ∧
        rightAnalysis.graph.edges.entries =
          [(("Store", some "Clock"), .external), (("Client", some "Store"), .external),
            (("Client", some "Clock"), .external)] ∧
        leftAnalysis.graph.edges.entries.Perm rightAnalysis.graph.edges.entries := by
  have sameContracts : (unitContracts separateFiles).Perm (unitContracts oneFile) :=
    List.Perm.swap storeContract clientContract []
  have distinct : (Collection.contractNames separateFiles).Nodup := by decide
  have leftOrders : Linearization.linearize (unitBases separateFiles) =
      .ok ⟨[("Client", ["Client"]), ("Base", ["Base"]), ("Store", ["Store", "Base"])]⟩ := by
    decide +kernel
  have rightOrders : Linearization.linearize (unitBases oneFile) =
      .ok ⟨[("Base", ["Base"]), ("Store", ["Store", "Base"]), ("Client", ["Client"])]⟩ := by
    decide +kernel
  refine ⟨sameContracts, distinct, ?_⟩
  rcases analyze_of_perm sameContracts distinct false with ⟨⟨failure, failed, _⟩, _⟩ | success
  · rw [leftOrders] at failed
    contradiction
  · obtain ⟨leftAnalysis, rightAnalysis, leftSuccess, rightSuccess, _, _, _, edges⟩ := success
    refine ⟨leftAnalysis, rightAnalysis, leftSuccess, rightSuccess, ?_, ?_, edges⟩
    · obtain rfl := Except.ok.inj (leftSuccess.symm.trans (analyze_of_linearize leftOrders false))
      decide +kernel
    · obtain rfl := Except.ok.inj (rightSuccess.symm.trans (analyze_of_linearize rightOrders false))
      decide +kernel

end ContractCalls.Analysis
