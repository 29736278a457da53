import ContractCalls.Proofs.Dot.DeclaredEnds

/-!
Contract: the layout of a DOT text, and the place of its legend.

Owns:
- graphs between named contracts, which are the ones that can be drawn whole;
- the statements of such a graph: its look, one for each node, one for each edge;
- texts with a piece cut out, against texts with a piece put in;
- the law that the legend is put in behind the statements and before the closing brace.

Names, labels and colours are arbitrary.  They may hold braces, quotes and line breaks: the
place of the legend is searched from the end of the text, where the graph has no part in
what is found.
-/

set_option autoImplicit false

namespace ContractCalls.Text

/-- A text without a number of characters from a position on. -/
def cutOut (position count : Nat) (text : String) : String :=
  String.ofList (text.toList.take position ++ text.toList.drop (position + count))

/-- What was put in between two texts can be cut out again. -/
theorem cutOut_between (before inserted after : String) :
    cutOut before.length inserted.length (before ++ inserted ++ after) = before ++ after := by
  have sum : before.length + inserted.length = (before ++ inserted).toList.length := by
    rw [String.length_toList, String.length_append]
  have kept : (before ++ inserted ++ after).toList.take before.length = before.toList := by
    rw [String.append_assoc, String.toList_append, ← String.length_toList, List.take_left]
  have rest : (before ++ inserted ++ after).toList.drop (before.length + inserted.length) =
      after.toList := by
    rw [sum, String.toList_append (s := before ++ inserted), List.drop_left]
  unfold cutOut
  rw [kept, rest, ← String.toList_append, String.ofList_toList]

end ContractCalls.Text

namespace ContractCalls.Analysis

/-- The graph of nodes and of edges between named contracts. -/
def Graph.between (nodes : Table String Node) (edges : Table (String × String) CallKind) : Graph :=
  { nodes, edges := ⟨edges.entries.map fun entry => ((entry.1.1, some entry.1.2), entry.2)⟩ }

end ContractCalls.Analysis

namespace ContractCalls.Dot

open ContractCalls.Analysis

theorem edgeColor_eq (scheme : ColorScheme) (kind : CallKind) :
    edgeColor scheme kind =
      if kind = .internal then scheme.calls.direct
      else if kind = .this then scheme.calls.this
      else scheme.calls.others := by
  cases kind <;> rfl

/-- Every edge between named contracts has its statement, in its place. -/
theorem edgeStatements_between (scheme : ColorScheme) (nodes : Table String Node)
    (edges : Table (String × String) CallKind) :
    edgeStatements scheme (.between nodes edges) =
      edges.entries.map fun entry =>
        .edge entry.1.1 entry.1.2 [("color", edgeColor scheme entry.2)] := by
  unfold edgeStatements Graph.between
  rw [List.filterMap_map, ← List.filterMap_eq_map]
  rfl

/-- The text of a graph is its plain text with the legend before the closing brace and the
line break at its end, so that the plain text is left when the legend is cut out.  Before
the legend stand the header, the statements on the look of the graph, one statement for
each node and one for each edge, in the order of the graph.  Direct calls, calls through
`this` and all others have the colours that the scheme has for them. -/
theorem document_layout (scheme : ColorScheme) (nodes : Table String Node)
    (edges : Table (String × String) CallKind) :
    ∃ body,
      plainDocument scheme (.between nodes edges) = body ++ "\x7d\n" ∧
      document scheme (.between nodes edges) = body ++ legend scheme ++ "\x7d\n" ∧
      Text.cutOut body.length (legend scheme).length (document scheme (.between nodes edges)) =
        plainDocument scheme (.between nodes edges) ∧
      ∃ look : List Statement,
        body = "digraph G \x7b\n" ++ String.join
          ((look ++
            nodes.entries.map (fun entry =>
              Statement.node entry.1 entry.2.label (nodeAttributes scheme entry.2.defined)) ++
            edges.entries.map (fun entry =>
              Statement.edge entry.1.1 entry.1.2 [("color",
                if entry.2 = .internal then scheme.calls.direct
                else if entry.2 = .this then scheme.calls.this
                else scheme.calls.others)])).map statementLine) ∧
        ∀ statement ∈ look, ∃ subject attributes, statement = .common subject attributes := by
  have inserted := document_eq scheme (.between nodes edges)
  refine ⟨opening (statements scheme (.between nodes edges)), rfl, inserted, ?_,
    lookStatements scheme.graph, ?_, fun _ => exists_common_of_mem_lookStatements⟩
  · rw [inserted, Text.cutOut_between]
    rfl
  · unfold opening statements
    rw [edgeStatements_between]
    simp only [edgeColor_eq]
    rfl

example :
    document {} (.between ⟨[("Purse", { label := "Purse", defined := true })]⟩
        ⟨[(("Purse", "Token"), .this)]⟩) =
      opening
        [.common .graph [("ratio", "auto"), ("page", "100"), ("compound", "true")],
          .node "Purse" "Purse" [("color", "lightgray"), ("style", "filled")],
          .edge "Purse" "Token" [("color", "green")]] ++ legend {} ++ "\x7d\n" := by
  rw [document_eq]
  rfl

end ContractCalls.Dot
