import ContractCalls.Table

/-!
Contract: graphs of calls between contracts.

Owns:
- the kinds of calls;
- nodes, which are defined once their contract has been declared, and until
  then only mentioned;
- edges, at most one for each caller and callee: the first call decides its
  kind.

Does not own: the drawing of a graph.
-/

set_option autoImplicit false

namespace ContractCalls.Analysis

/-- How a call reaches its target. -/
inductive CallKind where
  | noTarget
  | internal
  | this
  | super
  | library
  | external
  deriving Repr, DecidableEq, Inhabited

/-- The name of a kind. -/
def CallKind.text : CallKind → String
  | noTarget => "no-target"
  | internal => "internal"
  | this => "this"
  | super => "super"
  | library => "library-redirect"
  | external => "external"

/-- All kinds, in their customary order. -/
def CallKind.all : List CallKind := [noTarget, internal, this, super, library, external]

/-- The kind that a name stands for. -/
def CallKind.ofText? (text : String) : Option CallKind :=
  CallKind.all.find? fun kind => kind.text == text

structure Node where
  label : String
  defined : Bool
  deriving Repr, DecidableEq, Inhabited

/-- A call from one contract to another.  A callee without a name is one that
was current when no contract was. -/
abbrev Link := String × Option String

/-- Nodes by name and edges by their two ends, in the order in which each first
came. -/
structure Graph where
  nodes : Table String Node := {}
  edges : Table Link CallKind := {}
  deriving Repr, DecidableEq, Inhabited

namespace Graph

/-- The graph with a defined node for a contract. -/
def addContract (graph : Graph) (name : String) : Graph :=
  let node : Node := match graph.nodes.find? name with
    | some present => { present with defined := true }
    | none => { label := name, defined := true }
  { graph with nodes := graph.nodes.insert name node }

/-- The graph with a node for a name, which is not defined if it is new. -/
def ensureNode (graph : Graph) (name : String) : Graph :=
  match graph.nodes.find? name with
  | some _ => graph
  | none => { graph with nodes := graph.nodes.insert name { label := name, defined := false } }

def hasEdge (graph : Graph) (caller : String) (callee : Option String) : Bool :=
  graph.edges.contains (caller, callee)

/-- Whether a call adds an edge. -/
def addsEdge (graph : Graph) (caller : String) (callee : Option String) : Bool :=
  !graph.hasEdge caller callee

/-- The graph with a call; a pair that is already there keeps its kind. -/
def addEdge (graph : Graph) (caller : String) (callee : Option String) (kind : CallKind) :
    Graph :=
  if graph.hasEdge caller callee then graph
  else
    let mentioned := match callee with
      | some name => graph.ensureNode name
      | none => graph
    { mentioned with edges := mentioned.edges.insert (caller, callee) kind }

def isDefined (graph : Graph) (name : String) : Bool :=
  (graph.nodes.find? name).any fun node => node.defined

end Graph

end ContractCalls.Analysis
