import ContractCalls.Proofs.CallGraph.Collected
import ContractCalls.Proofs.CallGraph.DrawnEdges
import ContractCalls.Proofs.Session.Loading

/-!
Contract: what a run that fails leaves behind.

Owns the two cases: a run whose inputs do not load leaves declarations and graph
alone, and one whose contracts have no ancestor orders leaves exactly what it
collected.

No file is collected before the last of them is parsed, and no call is drawn before
all ancestors are ordered.
-/

set_option autoImplicit false

namespace ContractCalls.Session

open ContractCalls.Analysis ContractCalls.Files ContractCalls.Solidity

variable {options : Options} {disk : Disk} {inputs : List String} {session after : Session}
  {failure : Failure}

/-- If the inputs of a run do not load, for whatever reason and at whichever of them,
the collection is as before; if ancestors cannot be ordered, it is as before with all
units of the run collected, and no edge was drawn. -/
theorem failed_run_leaves
    (ended : outcome (run options disk inputs) session = (.error failure, after)) :
    ((∀ reason, failure ≠ .linearization reason) → after.collection = session.collection) ∧
      ∀ reason, failure = .linearization reason → ∃ units loaded,
        outcome (loadUnits options disk inputs) session = (.ok units, loaded) ∧
        Linearization.linearize (session.collection.addUnits units).declarations.baseLists =
          .error reason ∧
        after.collection = session.collection.addUnits units ∧
        after.collection.graph.edges = session.collection.graph.edges := by
  have effect := run_effect options disk inputs session
  rw [ended] at effect
  dsimp only at effect
  generalize after.collection = left at effect ⊢
  cases effect with
  | unloaded other =>
      refine ⟨fun _ => rfl, ?_⟩
      intro reason isOrdering
      exact absurd isOrdering (other reason)
  | unordered loads failed =>
      refine ⟨fun other => absurd rfl (other _), ?_⟩
      intro reason isOrdering
      obtain rfl := Failure.linearization.inj isOrdering
      exact ⟨_, _, loads, analyze_error_iff.mp failed, rfl, Collection.edges_graph_addUnits _ _⟩

/-! ### A session with a call, and two runs that fail -/

def stallSession : Session :=
  let stall := Collection.addUnits {} [{ contracts := [{ name := "Stall" }] }]
  { collection := { stall with graph := stall.graph.addEdge "Stall" (some "Bank") .external } }

/-- A file with an import that is not a text. -/
def tornDisk : Disk where
  root := .directory
    [("A.sol", .file (some "import './B.sol';contract A\x7b\x7d")), ("B.sol", .file none)]
  working := []

/-- The fault is found only by following the import. -/
theorem crawl_tornDisk : ∃ crawled,
    outcome (crawl tornDisk (importsOf tornDisk) report ["A.sol"]) stallSession =
      (.error (.notText "/B.sol"), crawled) := by
  have first : (outcome (importsOf tornDisk "A.sol") stallSession).1 = .ok (some ["./B.sol"]) := by
    decide +kernel
  have firstFresh : tornDisk.locateText "A.sol" ∈
      ["A.sol"].map tornDisk.locateText ++ tornDisk.fileLocations := by
    decide +kernel
  have target : resolvedImports tornDisk ["./B.sol"] "A.sol" = ["/B.sol"] := by
    decide +kernel
  have second : ∀ session : Session, session.units.find? "/B.sol" = none →
      outcome (importsOf tornDisk "/B.sol") session = (.error (.notText "/B.sol"), session) := by
    intro session missing
    unfold importsOf unitOf
    rw [bind_assoc, outcome_bind_of_ok (outcome_get session), missing]
    rfl
  have secondFresh : tornDisk.locateText "/B.sol" ∈
      without (["A.sol"].map tornDisk.locateText ++ tornDisk.fileLocations)
        (tornDisk.locateText "A.sol") := by
    decide +kernel
  unfold crawl
  rw [show ["A.sol"].eraseDups = ["A.sol"] from rfl,
    crawlFrom_of_read firstFresh (Prod.ext first rfl), outcome_bind_of_ok (outcome_report _ _),
    target, List.nil_append, crawlFrom, dif_pos secondFresh]
  refine ⟨_, outcome_bind_of_error (outcome_bind_of_error (second _ ?_))⟩
  decide +kernel

def ringSource : String := "contract A is B\x7b\x7dcontract B is A\x7b\x7d"

def ringUnits : List SourceUnit :=
  loadedUnits { literalSources := true } tornDisk [ringSource] stallSession

theorem failed_run_leaves_stall :
    (∃ after, outcome (run { followImports := true } tornDisk ["A.sol"]) stallSession =
        (.error (.notText "/B.sol"), after) ∧ after.collection = stallSession.collection) ∧
      ∃ after, outcome (run { literalSources := true } tornDisk [ringSource]) stallSession =
          (.error (.linearization (.cycle "A")), after) ∧
        after.collection.declarations.keys = ["Stall", "A", "B"] ∧
        after.collection.graph.nodes.keys = ["Stall", "Bank", "A", "B"] ∧
        after.collection.graph.edges.entries = [(("Stall", some "Bank"), .external)] := by
  constructor
  · obtain ⟨crawled, crawls⟩ := crawl_tornDisk
    have ended : outcome (run { followImports := true } tornDisk ["A.sol"]) stallSession =
        (.error (.notText "/B.sol"), crawled) := by
      rw [run_of_nonempty (List.cons_ne_nil _ _)]
      exact outcome_bind_of_error (outcome_bind_of_error crawls)
    exact ⟨crawled, ended, (failed_run_leaves ended).1 (fun _ => Failure.noConfusion)⟩
  · -- One evaluation of the source serves all four facts.
    have evaluated : (outcome (loadUnits { literalSources := true } tornDisk [ringSource])
          stallSession).1.isOk = true ∧
        (stallSession.collection.addUnits ringUnits).declarations.baseLists =
          ⟨[("Stall", []), ("A", ["B"]), ("B", ["A"])]⟩ ∧
        (stallSession.collection.addUnits ringUnits).declarations.keys = ["Stall", "A", "B"] ∧
        (stallSession.collection.addUnits ringUnits).graph.nodes.keys =
          ["Stall", "Bank", "A", "B"] := by
      decide +kernel
    obtain ⟨succeeds, bases, declared, nodes⟩ := evaluated
    have circular : Linearization.linearize ⟨[("Stall", []), ("A", ["B"]), ("B", ["A"])]⟩ =
        .error (.cycle "A") := by
      decide +kernel
    rw [← bases] at circular
    have loads : outcome (loadUnits { literalSources := true } tornDisk [ringSource]) stallSession =
        (.ok ringUnits, _) := loads_loadedUnits succeeds
    obtain ⟨result, -⟩ := run_of_loads (List.cons_ne_nil _ _) loads
    unfold endingOf at result
    rw [analyze_error_iff.mpr circular] at result
    have ended : outcome (run { literalSources := true } tornDisk [ringSource]) stallSession =
        (.error (.linearization (.cycle "A")), _) := Prod.ext result rfl
    obtain ⟨units, loaded, sameLoads, -, collected, sameEdges⟩ :=
      (failed_run_leaves ended).2 _ rfl
    obtain ⟨sameUnits, -⟩ := Prod.mk.inj (loads.symm.trans sameLoads)
    obtain rfl := Except.ok.inj sameUnits
    refine ⟨_, ended, ?_, ?_, ?_⟩
    · rw [collected, declared]
    · rw [collected, nodes]
    · rw [sameEdges]
      rfl

end ContractCalls.Session
