import ContractCalls.Analysis.Graph
import ContractCalls.Dot.Identifier
import ContractCalls.Dot.Scheme
import ContractCalls.Text.LastOccurrence

/-!
Contract: the DOT text of a call graph.

Owns:
- the statements of a graph: its look, then its nodes, then its edges, each in
  the order of the graph;
- how a statement is written, with attributes sorted by name;
- the legend, which goes before the closing brace.
-/

set_option autoImplicit false

namespace ContractCalls.Dot

open ContractCalls.Analysis

/-- Attributes by name. -/
abbrev Attributes := List (String × String)

/-- What a set of common attributes is for. -/
inductive Subject where
  | graph
  | nodes
  | edges
  deriving Repr, DecidableEq

inductive Statement where
  | common (subject : Subject) (attributes : Attributes)
  | node (name label : String) (attributes : Attributes)
  | edge (tail head : String) (attributes : Attributes)
  deriving Repr, DecidableEq

/-- Attributes in the order of their names. -/
def sortAttributes (attributes : Attributes) : Attributes :=
  attributes.mergeSort fun left right => decide (left.1 ≤ right.1)

def attributeText (entry : String × String) : String :=
  identifier entry.1 ++ "=" ++ identifier entry.2

/-- Attributes as they are written, in the order of their names. -/
def attributeTexts (attributes : Attributes) : List String :=
  (sortAttributes attributes).map attributeText

/-- Attributes between brackets; none leave nothing. -/
def bracketed (texts : List String) : String :=
  if texts.isEmpty then "" else " [" ++ " ".intercalate texts ++ "]"

/-- A statement as it is written.  A label comes before all other attributes. -/
def Statement.text : Statement → String
  | common .graph attributes => " ".intercalate (attributeTexts attributes)
  | common .nodes attributes => "node" ++ bracketed (attributeTexts attributes)
  | common .edges attributes => "edge" ++ bracketed (attributeTexts attributes)
  | node name label attributes =>
    identifier name ++ bracketed (("label=" ++ identifier label) :: attributeTexts attributes)
  | edge tail head attributes =>
    edgeEnd tail ++ " -> " ++ edgeEnd head ++ bracketed (attributeTexts attributes)

/-- A text that is present and not empty. -/
def present? (text : Option String) : Option String := text.filter fun value => !value.isEmpty

/-- An attribute with a value, if there is one. -/
def attribute? (name : String) (value : Option String) : Attributes :=
  ((present? value).map fun value => (name, value)).toList

/-- The attributes of a node.  A defined contract is filled unless its scheme
says otherwise. -/
def nodeAttributes (scheme : ColorScheme) (defined : Bool) : Attributes :=
  let look := if defined then scheme.contracts.defined else scheme.contracts.mentioned
  let filling := if defined then some ((present? look.style).getD "filled") else look.style
  ("color", look.color) :: (attribute? "fontcolor" look.fontColor ++ attribute? "style" filling)

/-- The colour of a call. -/
def edgeColor (scheme : ColorScheme) : CallKind → String
  | .internal => scheme.calls.direct
  | .this => scheme.calls.this
  | _ => scheme.calls.others

/-- The statements on the look of the graph. -/
def lookStatements (style : GraphStyle) : List Statement :=
  .common .graph [("ratio", "auto"), ("page", "100"), ("compound", "true")] ::
    (((present? style.background).map fun color => .common .graph [("bgcolor", color)]).toList ++
      (if style.nodeAttributes.isEmpty then []
        else [.common .nodes style.nodeAttributes.entries]) ++
      (if style.edgeAttributes.isEmpty then []
        else [.common .edges style.edgeAttributes.entries]))

def nodeStatement (scheme : ColorScheme) (name : String) (node : Node) : Statement :=
  .node name node.label (nodeAttributes scheme node.defined)

/-- The statement of an edge; one whose callee has no name is not drawn. -/
def edgeStatement? (scheme : ColorScheme) (link : Link) (kind : CallKind) : Option Statement :=
  link.2.map fun callee => .edge link.1 callee [("color", edgeColor scheme kind)]

def nodeStatements (scheme : ColorScheme) (graph : Graph) : List Statement :=
  graph.nodes.entries.map fun (name, node) => nodeStatement scheme name node

def edgeStatements (scheme : ColorScheme) (graph : Graph) : List Statement :=
  graph.edges.entries.filterMap fun (link, kind) => edgeStatement? scheme link kind

/-- All statements of a graph. -/
def statements (scheme : ColorScheme) (graph : Graph) : List Statement :=
  lookStatements scheme.graph ++ nodeStatements scheme graph ++ edgeStatements scheme graph

/-- A statement on a line of its own. -/
def statementLine (statement : Statement) : String := "\t" ++ statement.text ++ "\n"

/-- The text of a graph up to its closing brace. -/
def opening (statements : List Statement) : String :=
  "digraph G \x7b\n" ++ String.join (statements.map statementLine)

/-- The text of a graph without its legend. -/
def plainDocument (scheme : ColorScheme) (graph : Graph) : String :=
  opening (statements scheme graph) ++ "\x7d\n"

/-- The legend up to the sample of a defined contract. -/
def legendStart : String :=
  "\n\nrankdir=LR\nnode [shape=plaintext]\nsubgraph cluster_01 \x7b\nlabel = \"Legend\";\n" ++
  "key [label=<<table border=\"0\" cellpadding=\"2\" cellspacing=\"0\" cellborder=\"0\">\n" ++
  "  <tr><td align=\"right\" port=\"i1\">Internal Call</td></tr>\n" ++
  "  <tr><td align=\"right\" port=\"i2\">External Call</td></tr>\n" ++
  "  <tr><td align=\"right\" port=\"i3\">Defined Contract</td></tr>\n" ++
  "  <tr><td align=\"right\" port=\"i4\">Undefined Contract</td></tr>\n" ++
  "  </table>>]\n" ++
  "key2 [label=<<table border=\"0\" cellpadding=\"2\" cellspacing=\"0\" cellborder=\"0\">\n" ++
  "  <tr><td port=\"i1\">&nbsp;&nbsp;&nbsp;</td></tr>\n" ++
  "  <tr><td port=\"i2\">&nbsp;&nbsp;&nbsp;</td></tr>\n" ++
  "  <tr><td port=\"i3\""

/-- The legend from there to the colour of a contract that is only called. -/
def legendMiddle : String :=
  ">&nbsp;&nbsp;&nbsp;</td></tr>\n  <tr><td port=\"i4\">\n" ++
  "    <table border=\"1\" cellborder=\"0\" cellspacing=\"0\" cellpadding=\"7\" color=\""

/-- The legend from there to its edges. -/
def legendRest : String :=
  "\">\n      <tr>\n       <td></td>\n      </tr>\n     </table>\n  </td></tr>\n  </table>>]\n"

/-- A sample of an edge. -/
def legendArrow (ends color : String) : String := ends ++ " [color=\"" ++ color ++ "\"]\n"

/-- The ground of the sample of a defined contract. -/
def legendGround (scheme : ColorScheme) : String :=
  match present? scheme.contracts.defined.background with
  | some color => " bgcolor=\"" ++ color ++ "\""
  | none => ""

/-- The legend of a scheme: a small graph of its own, with a sample of each kind of
edge and node. -/
def legend (scheme : ColorScheme) : String :=
  legendStart ++ legendGround scheme ++ legendMiddle ++ scheme.contracts.mentioned.color ++
    legendRest ++ legendArrow "key:i1:e -> key2:i1:w" scheme.calls.direct ++
    legendArrow "key:i2:e -> key2:i2:w" scheme.calls.others ++ "\x7d\n"

/-- The DOT text of a graph, with the legend before its closing brace. -/
def document (scheme : ColorScheme) (graph : Graph) : String :=
  Text.insertBeforeLast (plainDocument scheme graph) "\x7d" (legend scheme)

/-- The legend stands between the statements and the closing brace. -/
theorem document_eq (scheme : ColorScheme) (graph : Graph) :
    document scheme graph =
      opening (statements scheme graph) ++ legend scheme ++ "\x7d\n" := by
  have inserted := Text.insertBeforeLast?_append (opening (statements scheme graph)).toList
    ['\n'] (legend scheme).toList '\x7d' (by decide)
  have whole : (plainDocument scheme graph).toList =
      (opening (statements scheme graph)).toList ++ '\x7d' :: ['\n'] := by
    simp [plainDocument]
  have marker : ("\x7d" : String).toList = ['\x7d'] := rfl
  unfold document Text.insertBeforeLast
  rw [whole, marker, inserted]
  apply String.toList_inj.mp
  simp

end ContractCalls.Dot
