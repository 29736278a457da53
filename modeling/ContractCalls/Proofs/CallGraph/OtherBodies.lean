import ContractCalls.Proofs.CallGraph.InputOrder

/-!
Contract: the bodies of other contracts have no influence on the calls of a contract.

Owns:
- programs in which every contract but those of one name is reduced to its outline,
  that is, to all but its parameters and bodies;
- the comparison of a program with its outline: the same declarations, and the same
  edges that start at the contract of that name;
- the law for two programs with the same outline.

All contracts are drawn into one graph, where a pair that is present is not drawn again.
The first edge of a pair still depends on its caller alone, since both the caller and the
scope of a call belong to the contract that makes it.
-/

set_option autoImplicit false

namespace ContractCalls.Solidity

/-- A member without its parameters and its body. -/
def Member.outline : Member → Member
  | function name kind _ => function name kind {}
  | modifier name _ => modifier name {}
  | other => other

/-- A contract with outlines for its members, unless it has the given name. -/
def Contract.outlineUnless (kept : String) (contract : Contract) : Contract :=
  if contract.name = kept then contract
  else { contract with members := contract.members.map Member.outline }

/-- A source unit in which only the contracts of one name keep their parameters and
bodies. -/
def SourceUnit.outlineExcept (kept : String) (unit : SourceUnit) : SourceUnit :=
  { unit with contracts := unit.contracts.map (Contract.outlineUnless kept) }

namespace Contract

variable {kept : String} {contract : Contract}

theorem outlineUnless_of_kept (isKept : contract.name = kept) :
    contract.outlineUnless kept = contract :=
  if_pos isKept

theorem outlineUnless_of_other (other : contract.name ≠ kept) :
    contract.outlineUnless kept =
      { contract with members := contract.members.map Member.outline } :=
  if_neg other

@[simp]
theorem outlineUnless_name (kept : String) (contract : Contract) :
    (contract.outlineUnless kept).name = contract.name := by
  unfold outlineUnless
  split <;> rfl

end Contract

end ContractCalls.Solidity

namespace ContractCalls.Analysis

open ContractCalls.Solidity

/-! ### Declarations -/

theorem Declaration.addMember_outline (declaration : Declaration) (member : Member) :
    declaration.addMember member.outline = declaration.addMember member := by
  cases member <;> rfl

theorem Declaration.ofContract_outlineUnless (kept : String) (contract : Contract) :
    ofContract (contract.outlineUnless kept) = ofContract contract := by
  by_cases isKept : contract.name = kept
  · rw [Contract.outlineUnless_of_kept isKept]
  · simp only [Contract.outlineUnless_of_other isKept, ofContract, List.foldl_map,
      addMember_outline]

theorem unitContracts_outlineExcept (kept : String) (units : List SourceUnit) :
    unitContracts (units.map (SourceUnit.outlineExcept kept)) =
      (unitContracts units).map (Contract.outlineUnless kept) := by
  simp only [unitContracts, List.flatMap_map, List.map_flatMap, SourceUnit.outlineExcept]

theorem Collection.addUnits_outlineExcept (collection : Collection) (kept : String)
    (units : List SourceUnit) :
    collection.addUnits (units.map (SourceUnit.outlineExcept kept)) =
      collection.addUnits units := by
  have sameStep : ∀ (collection : Collection) (contract : Contract),
      collection.addContract (contract.outlineUnless kept) = collection.addContract contract := by
    intro collection contract
    simp only [addContract, Declaration.ofContract_outlineUnless, Contract.outlineUnless_name]
  simp only [addUnits_eq_foldl, unitContracts_outlineExcept, List.foldl_map, sameStep]

/-! ### Edges that start at a contract -/

/-- Whether an edge starts at a contract. -/
def startsAt (caller : String) (edge : Link × CallKind) : Bool := decide (edge.1.1 = caller)

/-- The edges of a graph that start at a contract, in order. -/
def Graph.edgesFrom (graph : Graph) (caller : String) : List (Link × CallKind) :=
  graph.edges.entries.filter (startsAt caller)

theorem startsAt_contractEdges {context : Context} {contract : Contract} {caller : String}
    (other : contract.name ≠ caller) :
    (contractEdges context contract).filter (startsAt caller) = [] := by
  apply List.filter_eq_nil_iff.mpr
  intro edge member
  have isCaller := caller_of_mem_contractEdges member
  simpa [startsAt, isCaller] using other

theorem startsAt_contractEdges_outlineUnless (context : Context) (kept : String)
    (contract : Contract) :
    (contractEdges context (contract.outlineUnless kept)).filter (startsAt kept) =
      (contractEdges context contract).filter (startsAt kept) := by
  by_cases isKept : contract.name = kept
  · rw [Contract.outlineUnless_of_kept isKept]
  · have outlined : (contract.outlineUnless kept).name ≠ kept := by simpa using isKept
    rw [startsAt_contractEdges outlined, startsAt_contractEdges isKept]

/-- The calls of a contract ask for the same edges in a program and in its outline. -/
theorem startsAt_callEdges_outlineExcept (context : Context) (kept : String)
    (units : List SourceUnit) :
    (callEdges context (units.map (SourceUnit.outlineExcept kept))).filter (startsAt kept) =
      (callEdges context units).filter (startsAt kept) := by
  simp only [callEdges_eq_flatMap, unitContracts_outlineExcept, List.flatMap_map,
    List.filter_flatMap, startsAt_contractEdges_outlineUnless]

theorem edgesFrom_freshAnalysis (omitLibraries : Bool) (units : List SourceUnit)
    (orders : Linearization.Orders) (caller : String) :
    (freshAnalysis omitLibraries units orders).graph.edgesFrom caller =
      Table.firstEntries
        ((callEdges (unitContext omitLibraries units orders) units).filter (startsAt caller)) := by
  have drawn := edges_drawUnits (unitContext omitLibraries units orders) units
  have ofPairs := Table.firstEntries_filter (fun link : Link => decide (link.1 = caller))
    (callEdges (unitContext omitLibraries units orders) units)
  unfold Graph.edgesFrom freshAnalysis
  dsimp only
  rw [drawn]
  exact ofPairs

theorem edgesFrom_outlineExcept (omitLibraries : Bool) (units : List SourceUnit)
    (orders : Linearization.Orders) (kept : String) :
    (freshAnalysis omitLibraries (units.map (SourceUnit.outlineExcept kept)) orders).graph.edgesFrom
        kept =
      (freshAnalysis omitLibraries units orders).graph.edgesFrom kept := by
  have sameContext :
      unitContext omitLibraries (units.map (SourceUnit.outlineExcept kept)) orders =
        unitContext omitLibraries units orders := by
    unfold unitContext
    rw [Collection.addUnits_outlineExcept]
  rw [edgesFrom_freshAnalysis, edgesFrom_freshAnalysis, sameContext,
    startsAt_callEdges_outlineExcept]

/-! ### Two programs with the same outline -/

/-- Two fresh programs that differ at most in the parameters and bodies of contracts of
other names have the same edges that start at the contract, in the same order and of the
same kinds. -/
theorem analyze_edgesFrom_of_same_outline {left right : List SourceUnit}
    {orders : Linearization.Orders}
    (linearized : Linearization.linearize (unitBases left) = .ok orders) {contract : String}
    (sameOutline : left.map (SourceUnit.outlineExcept contract) =
      right.map (SourceUnit.outlineExcept contract))
    (omitLibraries : Bool) :
    ∃ leftAnalysis rightAnalysis,
      analyze {} omitLibraries left = .ok leftAnalysis ∧
      analyze {} omitLibraries right = .ok rightAnalysis ∧
      leftAnalysis.graph.edgesFrom contract = rightAnalysis.graph.edgesFrom contract := by
  have sameBases : unitBases left = unitBases right := by
    unfold unitBases
    rw [← Collection.addUnits_outlineExcept _ contract left, sameOutline,
      Collection.addUnits_outlineExcept]
  refine ⟨_, _, analyze_of_linearize linearized omitLibraries,
    analyze_of_linearize (sameBases ▸ linearized) omitLibraries, ?_⟩
  calc (freshAnalysis omitLibraries left orders).graph.edgesFrom contract
      = (freshAnalysis omitLibraries (left.map (SourceUnit.outlineExcept contract))
          orders).graph.edgesFrom contract := (edgesFrom_outlineExcept _ left _ _).symm
    _ = (freshAnalysis omitLibraries (right.map (SourceUnit.outlineExcept contract))
          orders).graph.edgesFrom contract := by rw [sameOutline]
    _ = (freshAnalysis omitLibraries right orders).graph.edgesFrom contract :=
          edgesFrom_outlineExcept _ right _ _

/-- A contract that calls a declared contract and an unknown name, behind a contract whose
function has the given parameters and body. -/
def registryUnits (callable : Callable) : List SourceUnit :=
  [{ contracts := [{
      name := "Registry"
      bases := ["Base"]
      members := [.event "Added", .function (some "add") .function callable] }] },
    { contracts := [{
        name := "Client"
        bases := ["Registry"]
        members := [
          .stateVariable "registry" (.userDefined "Registry"),
          .modifier "logged"
            { body := some [.expression (.call (.identifier "Added") [] 4)] },
          .function (some "run") .function
            { body := some [.expression (.call (.member (.identifier "registry") "add")
                [.call (.member (.identifier "token") "id") [] 5] 5)] }] }] }]

/-- A body that has a variable and an edge of its own for what the other contract calls. -/
def tokenCallable : Callable :=
  { parameters := [{ name := some "token", type := .userDefined "Token" }]
    body := some [
      .declaration { name := some "registry", type := .elementary "address" },
      .expression (.call (.member (.identifier "token") "id") [] 2),
      .expression (.call (.member (.identifier "super") "add") [] 2)] }

theorem analyze_edgesFrom_of_same_outline_client :
    Linearization.linearize (unitBases (registryUnits tokenCallable)) =
        .ok ⟨[("Base", ["Base"]), ("Registry", ["Registry", "Base"]),
          ("Client", ["Client", "Registry", "Base"])]⟩ ∧
      (registryUnits tokenCallable).map (SourceUnit.outlineExcept "Client") =
        (registryUnits {}).map (SourceUnit.outlineExcept "Client") ∧
      ∃ leftAnalysis rightAnalysis,
        analyze {} false (registryUnits tokenCallable) = .ok leftAnalysis ∧
        analyze {} false (registryUnits {}) = .ok rightAnalysis ∧
        leftAnalysis.graph.edgesFrom "Client" = rightAnalysis.graph.edgesFrom "Client" ∧
        rightAnalysis.graph.edgesFrom "Client" =
          [(("Client", some "Client"), .internal), (("Client", some "Registry"), .external),
            (("Client", some "token"), .external)] := by
  have linearized : Linearization.linearize (unitBases (registryUnits tokenCallable)) =
      .ok ⟨[("Base", ["Base"]), ("Registry", ["Registry", "Base"]),
        ("Client", ["Client", "Registry", "Base"])]⟩ := by
    decide +kernel
  have sameOutline : (registryUnits tokenCallable).map (SourceUnit.outlineExcept "Client") =
      (registryUnits {}).map (SourceUnit.outlineExcept "Client") := rfl
  obtain ⟨leftAnalysis, rightAnalysis, leftSuccess, rightSuccess, same⟩ :=
    analyze_edgesFrom_of_same_outline linearized sameOutline false
  refine ⟨linearized, sameOutline, leftAnalysis, rightAnalysis, leftSuccess, rightSuccess, same, ?_⟩
  obtain rfl := Except.ok.inj (leftSuccess.symm.trans (analyze_of_linearize linearized false))
  rw [← same, edgesFrom_freshAnalysis]
  decide +kernel

end ContractCalls.Analysis
