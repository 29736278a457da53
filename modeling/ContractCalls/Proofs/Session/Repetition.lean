import ContractCalls.Proofs.Session.GraphInvariant
import ContractCalls.Proofs.Session.Loading

/-!
Contract: a run that is repeated changes nothing.

Owns:
- units that are collected and drawn again, on top of what they left;
- `Repeats`: actions that succeed again with the same result, and the fact that
  loading is made of these;
- the repeated run, after any history.

A repeated run takes the units of files from what the first run remembered.  They
may be older than the disk, if an earlier run has parsed them.
-/

set_option autoImplicit false

namespace ContractCalls.Analysis

open ContractCalls.Solidity

/-! ### Collecting and drawing again -/

namespace Graph

variable {graph : Graph}

theorem addContract_of_defined {name : String} {node : Node}
    (found : graph.nodes.find? name = some node) (defined : node.defined = true) :
    graph.addContract name = graph := by
  have same : { node with defined := true } = node := by
    rw [← defined]
  unfold addContract
  rw [found]
  dsimp only
  rw [same, Table.insert_of_find? found]

theorem foldl_addContract_of_defined {names : List String}
    (defined : ∀ name ∈ names, ∃ node, graph.nodes.find? name = some node ∧ node.defined = true) :
    names.foldl addContract graph = graph := by
  induction names with
  | nil => rfl
  | cons name later inductionHypothesis =>
      obtain ⟨⟨node, found, isDefined⟩, laterDefined⟩ := List.forall_mem_cons.mp defined
      rw [List.foldl_cons, addContract_of_defined found isDefined]
      exact inductionHypothesis laterDefined

theorem foldl_addEntry_of_present {edges : List (Link × CallKind)}
    (present : ∀ edge ∈ edges, graph.edges.contains edge.1 = true) :
    edges.foldl addEntry graph = graph := by
  induction edges with
  | nil => rfl
  | cons edge later inductionHypothesis =>
      obtain ⟨edgePresent, laterPresent⟩ := List.forall_mem_cons.mp present
      rw [List.foldl_cons, addEntry_of_present edgePresent]
      exact inductionHypothesis laterPresent

/-- Edges that were drawn are all there when they are drawn again. -/
theorem foldl_addEntry_again (graph : Graph) (edges : List (Link × CallKind)) :
    edges.foldl addEntry (edges.foldl addEntry graph) = edges.foldl addEntry graph := by
  apply foldl_addEntry_of_present
  intro edge member
  have listed : (Table.lookup edge.1 edges).isSome = true :=
    (Table.contains_iff_mem_keys ⟨edges⟩ edge.1).mpr (List.mem_map_of_mem member)
  rw [edges_foldl_addEntry, Table.contains, Table.find?_foldl_addNew, Option.isSome_or, listed,
    Bool.or_true]

end Graph

namespace Collection

theorem addUnits_again {before : Collection} {units : List SourceUnit} {graph : Graph}
    (consistent : Consistent { before.addUnits units with graph }) :
    addUnits { before.addUnits units with graph } units =
      { before.addUnits units with graph } := by
  have defined : ∀ name ∈ contractNames units, ∃ node,
      graph.nodes.find? name = some node ∧ node.defined = true := by
    intro name isContract
    have declared : (before.addUnits units).declarations.contains name = true := by
      rw [contains_declarations_addUnits, List.contains_iff_mem.mpr isContract, Bool.or_true]
    have known := consistent.declaredNode name declared
    obtain ⟨node, found⟩ := Option.isSome_iff_exists.mp known
    exact ⟨node, found, (consistent.definedIff name node found).mpr declared⟩
  rw [addUnits_eq_foldl _ units]
  generalize collected : ({ before.addUnits units with graph } : Collection) = collection
  have sameDeclarations :
      ((unitContracts units).foldl addContract collection).declarations =
        collection.declarations := by
    rw [declarations_foldl_addContract, ← collected, addUnits_eq_foldl,
      declarations_foldl_addContract, Table.merge_merge_self]
  have sameGraph :
      ((unitContracts units).foldl addContract collection).graph = collection.graph := by
    rw [graph_foldl_addContract, ← contractNames_eq_map, ← collected]
    exact Graph.foldl_addContract_of_defined defined
  exact congr (congrArg Collection.mk sameDeclarations) sameGraph

/-- Units that were analysed are analysed again with the same graph. -/
theorem analyze_again {before : Collection} {omitLibraries : Bool} {units : List SourceUnit}
    {analysis : CallAnalysis} (success : analyze before omitLibraries units = .ok analysis)
    (recollected : addUnits { before.addUnits units with graph := analysis.graph } units =
      { before.addUnits units with graph := analysis.graph }) :
    ∃ again, analyze { before.addUnits units with graph := analysis.graph } omitLibraries units =
        .ok again ∧ again.graph = analysis.graph := by
  obtain ⟨orders, linearized, drawn⟩ := exists_analyze_iff.mp ⟨analysis, success, rfl⟩
  apply exists_analyze_iff.mpr
  refine ⟨orders, ?_, ?_⟩
  · rw [recollected]
    exact linearized
  · rw [recollected, ← drawn]
    exact Graph.foldl_addEntry_again _ _

end Collection

end ContractCalls.Analysis

namespace ContractCalls.Session

open ContractCalls.Analysis ContractCalls.Files ContractCalls.Solidity

theorem endingOf_of_linearized {options : Options} {before : Collection} {units : List SourceUnit}
    {orders : Linearization.Orders}
    (linearized : Linearization.linearize (before.addUnits units).declarations.baseLists =
      .ok orders) :
    let graph := (before.addUnits units).drawn options.omitLibraries units orders
    endingOf options before units =
      (.ok (Dot.document options.scheme graph), { before.addUnits units with graph }) := by
  obtain ⟨analysis, success, sameGraph⟩ := exists_analyze_iff.mpr ⟨orders, linearized, rfl⟩
  unfold endingOf
  rw [success, ← sameGraph]

theorem endingOf_again {options : Options} {before after : Collection} {units : List SourceUnit}
    {text : String} (consistent : before.Consistent)
    (ended : endingOf options before units = (.ok text, after)) :
    endingOf options after units = (.ok text, after) := by
  unfold endingOf at ended
  split at ended
  next => cases ended
  next analysis success =>
    obtain ⟨sameText, rfl⟩ := Prod.mk.inj ended
    have recollected :=
      Collection.addUnits_again (Collection.develops_analyze success consistent).1
    obtain ⟨again, analysed, sameGraph⟩ := Collection.analyze_again success recollected
    unfold endingOf
    rw [analysed]
    dsimp only
    rw [recollected, sameGraph, sameText]

/-! ### Loading again -/

/-- Loading on a disk took a session to another: the units it remembered stay, and
those that are new are what their paths load as. -/
structure Gains (disk : Disk) (before after : Session) : Prop where
  keeps : ∀ path unit, before.units.find? path = some unit → after.units.find? path = some unit
  loads : ∀ path unit, before.units.find? path = none → after.units.find? path = some unit →
    Loads disk path (some unit)

namespace Gains

variable {disk : Disk} {before middle after : Session}

theorem of_units_eq (same : after.units = before.units) : Gains disk before after where
  keeps path unit found := by rw [same, found]
  loads path unit missing found := by
    rw [same, missing] at found
    contradiction

theorem trans (first : Gains disk before middle) (second : Gains disk middle after) :
    Gains disk before after where
  keeps path unit found := second.keeps path unit (first.keeps path unit found)
  loads path unit missing found := by
    cases between : middle.units.find? path with
    | none => exact second.loads path unit between found
    | some early =>
        obtain rfl := Option.some.inj ((second.keeps path early between).symm.trans found)
        exact first.loads path early missing between

theorem of_insert {path : String} {unit : SourceUnit} (missing : before.units.find? path = none)
    (loads : Loads disk path (some unit)) (same : after.units = before.units.insert path unit) :
    Gains disk before after where
  keeps other otherUnit found := by
    have different : path ≠ other := by
      rintro rfl
      rw [missing] at found
      contradiction
    rw [same, Table.find?_insert, if_neg different, found]
  loads other otherUnit otherMissing found := by
    rw [same, Table.find?_insert] at found
    split at found
    next isPath =>
      obtain rfl := Option.some.inj found
      exact isPath ▸ loads
    next =>
      rw [otherMissing] at found
      contradiction

end Gains

/-- An action that can be repeated: if it has succeeded, it succeeds again with the
same result and gains nothing, whatever was loaded in between. -/
structure Repeats {α : Type} (disk : Disk) (action : Action α) : Prop where
  gains : ∀ {session after : Session} {result : α},
    outcome action session = (.ok result, after) → Gains disk session after
  again : ∀ {session after later : Session} {result : α},
    outcome action session = (.ok result, after) → Gains disk after later →
      ∃ last, outcome action later = (.ok result, last) ∧ last.units = later.units

namespace Repeats

variable {α β : Type} {disk : Disk}

theorem pure (result : α) : Repeats disk (Pure.pure result : Action α) where
  gains ended := by
    cases ended
    exact .of_units_eq rfl
  again ended _ := by
    cases ended
    exact ⟨_, rfl, rfl⟩

theorem bind {action : Action α} {next : α → Action β} (first : Repeats disk action)
    (second : ∀ result, Repeats disk (next result)) : Repeats disk (action >>= next) where
  gains ended := by
    obtain ⟨value, middle, start, rest⟩ := exists_of_outcome_bind ended
    exact (first.gains start).trans ((second value).gains rest)
  again ended gained := by
    obtain ⟨value, middle, start, rest⟩ := exists_of_outcome_bind ended
    -- What the rest of the action loaded is also loaded in between.
    obtain ⟨between, startAgain, sameUnits⟩ :=
      first.again start (((second value).gains rest).trans gained)
    obtain ⟨last, restAgain, stillSame⟩ :=
      (second value).again rest (gained.trans (.of_units_eq sameUnits))
    exact ⟨last, (outcome_bind_of_ok startAgain).trans restAgain, stillSame.trans sameUnits⟩

theorem throw (failure : Failure) : Repeats disk (MonadExcept.throw failure : Action α) where
  gains ended := by cases ended
  again ended _ := by cases ended

theorem rules : LoadingRules (Repeats disk) where
  pure := pure
  bind := bind
  throw _ := throw _
  report entries := {
    gains ended := by
      cases ended
      exact .of_units_eq rfl
    again ended _ := by
      cases ended
      exact ⟨_, rfl, rfl⟩ }

end Repeats

variable {disk : Disk}

theorem repeats_unitOf (path : String) : Repeats disk (unitOf disk path) where
  gains {session after unit} ended := by
    rcases unitOf_cases ended with ⟨remembered, -, -, rfl⟩ | ⟨missing, loads, units⟩
    · exact .of_units_eq rfl
    · cases unit with
      | none => exact .of_units_eq units
      | some unit => exact .of_insert missing loads units
  again {session after later unit} ended gained := by
    unfold unitOf
    rw [outcome_bind_of_ok (outcome_get later)]
    rcases unitOf_cases ended with ⟨remembered, rfl, found, rfl⟩ | ⟨missing, loads, units⟩
    · rw [gained.keeps path remembered found]
      exact ⟨later, rfl, rfl⟩
    · cases unit with
      | some unit =>
          have parsed : after.units.find? path = some unit := by
            rw [units]
            exact Table.find?_insert_self _ path unit
          rw [gained.keeps path unit parsed]
          exact ⟨later, rfl, rfl⟩
      | none =>
          -- A directory is skipped again: nothing that is loaded has its path.
          have stillMissing : after.units.find? path = none := by
            rw [units]
            exact missing
          cases found : later.units.find? path with
          | some other => exact nomatch loads.unique (gained.loads path other stillMissing found)
          | none => exact outcome_parseFile loads later

/-- Inputs that were loaded are loaded again, in each of the ways to load them. -/
theorem loadUnits_again {options : Options} {inputs : List String} {units : List SourceUnit}
    {session loaded later : Session}
    (loads : outcome (loadUnits options disk inputs) session = (.ok units, loaded))
    (same : later.units = loaded.units) :
    ∃ last, outcome (loadUnits options disk inputs) later = (.ok units, last) ∧
      last.units = later.units := by
  have gained : Gains disk loaded later := .of_units_eq same
  unfold loadUnits at loads ⊢
  split at loads
  next literal =>
    rw [if_pos literal]
    exact (Repeats.rules.mapM (Repeats.rules.parseSource none) _).again loads gained
  next listed =>
    rw [if_neg listed]
    obtain ⟨paths, middle, found, rest⟩ := exists_of_outcome_bind loads
    cases rest
    obtain ⟨last, foundAgain, sameUnits⟩ :=
      (Repeats.rules.pathsToAnalyse repeats_unitOf options inputs).again found gained
    refine ⟨last, ?_, sameUnits⟩
    rw [outcome_bind_of_ok foundAgain, ← same, ← sameUnits]
    rfl

/-! ### Running again -/

/-- After any history, a run that succeeds can be repeated: it succeeds again with
the same text, and leaves declarations, nodes, edges and remembered files exactly as
they were. -/
theorem run_again_changes_nothing (earlier : List Invocation) {options : Options}
    {inputs : List String} {text : String} {after : Session}
    (ended : outcome (run options disk inputs) (history earlier) = (.ok text, after)) :
    ∃ last, outcome (run options disk inputs) after = (.ok text, last) ∧
      last.collection = after.collection ∧ last.units = after.units := by
  obtain ⟨nonempty, units, loaded, loads⟩ := exists_loads_of_run ended
  obtain ⟨result, collection⟩ := run_of_loads nonempty loads
  have remembered := units_run nonempty loads
  rw [ended] at result collection remembered
  -- The second run loads the same units, on top of what they left.
  obtain ⟨reloaded, loadsAgain, sameUnits⟩ := loadUnits_again loads remembered
  obtain ⟨resultAgain, collectionAgain⟩ := run_of_loads nonempty loadsAgain
  have endsAgain : endingOf options after.collection units = (.ok text, after.collection) :=
    endingOf_again (consistent_history earlier) (Prod.ext result.symm collection.symm)
  rw [endsAgain] at resultAgain collectionAgain
  have stillRemembered := (units_run nonempty loadsAgain).trans sameUnits
  exact ⟨_, Prod.ext resultAgain rfl, collectionAgain, stillRemembered⟩

/-! ### Two files that define one contract -/

def shopDisk : Disk where
  root := .directory
    [("A.sol", .file (some "contract Shop\x7bfunction buy(Bank b)\x7bb.pay();\x7d\x7d")),
      ("B.sol", .file (some "contract Bank\x7b\x7dcontract Shop is Bank\x7b\x7d"))]
  working := []

/-- A run on both files, with their directory between them. -/
def shopRun : Invocation where
  options := {}
  disk := shopDisk
  inputs := ["A.sol", ".", "B.sol"]

def shopUnits : List SourceUnit := loadedUnits {} shopDisk ["A.sol", ".", "B.sol"] {}

/-- The second definition of the contract counts, and the call in the first is drawn
all the same. -/
theorem run_again_changes_nothing_shop :
    ∃ text second third,
      outcome (run {} shopDisk ["A.sol", ".", "B.sol"]) (history [shopRun]) = (.ok text, second) ∧
      outcome (run {} shopDisk ["A.sol", ".", "B.sol"]) second = (.ok text, third) ∧
      third.collection = second.collection ∧ third.units = second.units ∧
      second.collection.declarations.baseLists = ⟨[("Shop", ["Bank"]), ("Bank", [])]⟩ ∧
      second.collection.graph.edges.entries = [(("Shop", some "Bank"), .external)] := by
  -- One evaluation of the sources serves all three facts.
  have evaluated : (outcome (loadUnits {} shopDisk ["A.sol", ".", "B.sol"]) {}).1.isOk = true ∧
      (Collection.addUnits {} shopUnits).declarations.baseLists =
        ⟨[("Shop", ["Bank"]), ("Bank", [])]⟩ ∧
      ((Collection.addUnits {} shopUnits).drawn false shopUnits
        ⟨[("Bank", ["Bank"]), ("Shop", ["Shop", "Bank"])]⟩).edges.entries =
          [(("Shop", some "Bank"), .external)] := by
    decide +kernel
  obtain ⟨loads, bases, edges⟩ := evaluated
  have linearized : Linearization.linearize ⟨[("Shop", ["Bank"]), ("Bank", [])]⟩ =
      .ok ⟨[("Bank", ["Bank"]), ("Shop", ["Shop", "Bank"])]⟩ := by
    decide +kernel
  rw [← bases] at linearized
  have loaded : outcome (loadUnits {} shopDisk ["A.sol", ".", "B.sol"]) {} = (.ok shopUnits, _) :=
    loads_loadedUnits loads
  obtain ⟨result, collection⟩ := run_of_loads (List.cons_ne_nil "A.sol" [".", "B.sol"]) loaded
  rw [endingOf_of_linearized linearized] at result collection
  obtain ⟨second, secondEnds, sameSecond, -⟩ :=
    run_again_changes_nothing [] (Prod.ext result rfl)
  have collected := sameSecond.trans collection
  obtain ⟨third, thirdEnds, sameThird, sameUnits⟩ :=
    run_again_changes_nothing [shopRun] secondEnds
  refine ⟨_, second, third, secondEnds, thirdEnds, sameThird, sameUnits, ?_, ?_⟩
  · rw [collected]
    exact bases
  · rw [collected]
    exact edges

end ContractCalls.Session
