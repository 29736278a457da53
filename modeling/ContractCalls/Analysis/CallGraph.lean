import ContractCalls.Analysis.CallTarget
import ContractCalls.Analysis.Collection
import ContractCalls.Analysis.Linearization

/-!
Contract: the graph of all calls of source units.

Owns:
- the walk over bodies in source order, which draws each call that has a
  target and says why it does not draw the others;
- the two readings of a program as one analysis.

Does not own: where source units come from.
-/

set_option autoImplicit false

namespace ContractCalls.Analysis

open ContractCalls.Solidity

/-- What a walk has drawn: the graph, the number of edges that were new, and its
messages in order. -/
structure Drawing where
  graph : Graph := {}
  added : Nat := 0
  log : Array Log.Entry := #[]
  deriving Repr, Inhabited

/-- A contract in a message. -/
def contractText (contract : Option String) : String := contract.getD "None"

namespace Drawing

def say (drawing : Drawing) (text : String) : Drawing :=
  { drawing with log := drawing.log.push { level := .debug, origin := .resolution, text } }

/-- Draw one call from the current body.  A pair of contracts that is already
linked is left as it is. -/
def record (scope : Scope) (drawing : Drawing) (line : Nat) (target : CallTarget) : Drawing :=
  match target, scope.calling with
  | .drawn kind callee member, some caller =>
    if drawing.graph.hasEdge caller callee then drawing
    else
      { drawing with
        graph := drawing.graph.addEdge caller callee kind
        added := drawing.added + 1 }.say
          ("Edge " ++ caller ++ " -> " ++ contractText callee ++ " (" ++ kind.text ++
            " via " ++ member ++ ", line " ++ toString line ++ ")")
  | .drawn _ _ _, none => drawing
  | .omitted reason, calling =>
    drawing.say
      ("No edge from " ++ contractText calling ++ " at line " ++ toString line ++ ": " ++
        reason.message)

/-- Draw a call that stands in a scope. -/
def addCall (context : Context) (scope : Scope) (drawing : Drawing) (site : CallSite) : Drawing :=
  drawing.record scope site.line (CallTarget.resolve context scope site)

/-- Draw the calls of an expression. -/
def addExpression (context : Context) (scope : Scope) (drawing : Drawing)
    (expression : Expression) : Drawing :=
  expression.callSites.foldl (addCall context scope) drawing

end Drawing

/-- A walk: where it stands and what it has drawn. -/
structure Walk where
  scope : Scope := {}
  drawing : Drawing := {}
  deriving Repr, Inhabited

namespace Walk

def declare (walk : Walk) (declared : Variable) : Walk :=
  { walk with scope := walk.scope.declare declared }

def addItem (context : Context) (walk : Walk) : BodyItem → Walk
  | .declaration declared => walk.declare declared
  | .expression expression =>
    { walk with drawing := walk.drawing.addExpression context walk.scope expression }

/-- Walk over the parameters and the body of a definition. -/
def addCallable (context : Context) (walk : Walk) (callable : Callable) : Walk :=
  let entered := { walk with scope := walk.scope.enterBody }
  let inside := callable.parameters.foldl declare entered
  let finished := (callable.body.getD []).foldl (addItem context) inside
  { finished with scope := finished.scope.leaveBody }

def addMember (context : Context) (walk : Walk) (member : Member) : Walk :=
  match member.callable? with
  | some callable => walk.addCallable context callable
  | none => walk

def addContract (context : Context) (walk : Walk) (contract : Contract) : Walk :=
  let entered := { walk with scope := walk.scope.enterContract context contract.name }
  let finished := contract.members.foldl (addMember context) entered
  { finished with scope := finished.scope.leaveContract }

end Walk

/-- Draw all calls of a source unit into a graph. -/
def drawUnit (context : Context) (graph : Graph) (unit : SourceUnit) : Drawing :=
  (unit.contracts.foldl (Walk.addContract context) { drawing := { graph } }).drawing

/-- Draw all calls of units, from the first to the last; the drawings are those
of the single units. -/
def drawUnits (context : Context) (graph : Graph) : List SourceUnit → List Drawing × Graph
  | [] => ([], graph)
  | unit :: later =>
    let drawing := drawUnit context graph unit
    let (drawings, finished) := drawUnits context drawing.graph later
    (drawing :: drawings, finished)

/-- A call graph with what was found on the way. -/
structure CallAnalysis where
  collection : Collection
  orders : Linearization.Orders
  drawings : List Drawing
  graph : Graph
  deriving Repr, Inhabited

/-- The messages of drawings, in order. -/
def drawingLog (drawings : List Drawing) : List Log.Entry :=
  drawings.flatMap fun drawing => drawing.log.toList

/-- Both readings of a program, on top of what was collected before. -/
def analyze (before : Collection) (omitLibraries : Bool) (units : List SourceUnit) :
    Except LinearizationFailure CallAnalysis := do
  let collection := before.addUnits units
  let orders ← Linearization.linearize collection.declarations.baseLists
  let context : Context := { declarations := collection.declarations, orders, omitLibraries }
  let (drawings, graph) := drawUnits context collection.graph units
  return { collection, orders, drawings, graph }

end ContractCalls.Analysis
