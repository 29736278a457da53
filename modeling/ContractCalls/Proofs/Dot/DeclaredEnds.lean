import ContractCalls.Proofs.CallGraph.CalleeNames
import ContractCalls.Proofs.Dot.Legend
import ContractCalls.Proofs.Session.GraphInvariant
import Mathlib.Data.List.Count
import Mathlib.Data.List.TakeWhile

/-!
Contract: the ends of edges in a DOT text, against the nodes that the text declares.

Owns:
- names of nodes, which hold no colon and no double quote: on them identifiers are written
  one to one, and alike for nodes and for ends of edges;
- the mentions of a whole text: those of the graph, nodes before edges, and then those of
  the legend;
- the law that every end of an edge is declared before the edge, and how often.

An end is declared once, with one exception: the legend declares its two nodes under names
that a contract can have, and the text then declares that name twice.
-/

set_option autoImplicit false

namespace ContractCalls.Dot

open ContractCalls.Analysis ContractCalls.Solidity

/-! ### Names of nodes -/

/-- A text that names one whole node, also as an end of an edge. -/
def IsNodeName (text : String) : Prop := ':' ∉ text.toList ∧ '"' ∉ text.toList

instance (text : String) : Decidable (IsNodeName text) :=
  inferInstanceAs (Decidable (_ ∧ _))

/-- A text without a colon names a node in both places alike. -/
theorem edgeEnd_eq_identifier {text : String} (noColon : ':' ∉ text.toList) :
    edgeEnd text = identifier text := by
  have other : ∀ char ∈ text.toList, (char != ':') = true := by
    intro char member
    exact bne_iff_ne.mpr fun same => noColon (same ▸ member)
  have node : text.toList.takeWhile (· != ':') = text.toList :=
    List.takeWhile_eq_self_iff.mpr other
  have rest : text.toList.dropWhile (· != ':') = [] := List.dropWhile_eq_nil_iff.mpr other
  simp [edgeEnd, splitAtColon, node, rest]

theorem escapeQuotes_of_noQuote {text : List Char} (noQuote : '"' ∉ text) (escaped : Bool) :
    escapeQuotes escaped text = text := by
  fun_induction escapeQuotes escaped text <;> simp_all

theorem identifier_cases {text : String} (noQuote : '"' ∉ text.toList) :
    identifier text = text ∨ identifier text = "\"" ++ text ++ "\"" := by
  unfold identifier
  split
  next => exact Or.inl rfl
  next => exact Or.inr (by rw [escapeQuotes_of_noQuote noQuote, String.ofList_toList])

theorem identifier_injective {left right : String} (leftNoQuote : '"' ∉ left.toList)
    (rightNoQuote : '"' ∉ right.toList) (same : identifier left = identifier right) :
    left = right := by
  -- A quoted text starts with a quote, which the other text does not hold.
  have unquoted : ∀ {bare quoted : String}, '"' ∉ bare.toList →
      bare ≠ "\"" ++ quoted ++ "\"" := by
    intro bare quoted noQuote equal
    apply noQuote
    rw [equal]
    simp
  rcases identifier_cases leftNoQuote with leftBare | leftQuoted
  · rcases identifier_cases rightNoQuote with rightBare | rightQuoted
    · rw [← leftBare, same, rightBare]
    · exact absurd (leftBare.symm.trans (same.trans rightQuoted)) (unquoted leftNoQuote)
  · rcases identifier_cases rightNoQuote with rightBare | rightQuoted
    · exact absurd (rightBare.symm.trans (same.symm.trans leftQuoted)) (unquoted rightNoQuote)
    · have quoted := congrArg String.toList (leftQuoted.symm.trans (same.trans rightQuoted))
      apply String.toList_inj.mp
      simpa using quoted

theorem isNodeName_flattenArguments (arguments : List Expression) :
    IsNodeName (flattenArguments arguments) := by
  constructor
  · simp only [flattenArguments, String.toList_ofList, List.mem_map, not_exists, not_and]
    intro char _ changed
    split at changed <;> simp_all
  · simp only [flattenArguments, String.toList_ofList, List.mem_map, not_exists, not_and]
    intro char kept changed
    split at changed <;> simp_all

theorem isNodeName_of_nodeSource {units : List SourceUnit}
    (spellings : ∀ contract ∈ unitContracts units, ∀ text ∈ contract.spellings, IsNodeName text)
    {name : String} (source : NodeSource units name) : IsNodeName name := by
  cases source with
  | spelled spells =>
      obtain ⟨contract, isContract, listed⟩ := spells
      exact spellings contract isContract name listed
  | address spells =>
      obtain ⟨contract, isContract, listed⟩ := spells
      obtain ⟨noColon, noQuote⟩ := spellings contract isContract _ listed
      simp [IsNodeName, noColon, noQuote]
  | arguments expressions => exact isNodeName_flattenArguments expressions

/-! ### The mentions of a text -/

namespace Statement

/-- The mention of a statement that is written for a graph. -/
def mention? : Statement → Option Mention
  | common _ _ => none
  | node name _ _ => some (.node (identifier name))
  | edge tail head _ => some (.edge (edgeEnd tail) (edgeEnd head))

/-- A statement shows its mention: a node starts with its identifier, and an edge has those
of its ends around the arrow. -/
def ShowsMention (statement : Statement) : Prop :=
  match statement.mention? with
  | none => True
  | some (.node name) => ∃ attributes, statement.text = name ++ bracketed attributes
  | some (.edge tail head) =>
    ∃ attributes, statement.text = tail ++ " -> " ++ head ++ bracketed attributes

theorem showsMention (statement : Statement) : statement.ShowsMention := by
  cases statement with
  | common subject attributes => trivial
  | node name label attributes => exact ⟨_, rfl⟩
  | edge tail head attributes => exact ⟨_, rfl⟩

end Statement

def nodeMentions (graph : Graph) : List Mention :=
  graph.nodes.keys.map fun name => .node (identifier name)

def edgeMentions (graph : Graph) : List Mention :=
  graph.edges.keys.filterMap fun link =>
    link.2.map fun callee => .edge (edgeEnd link.1) (edgeEnd callee)

/-- The mentions of the DOT text of a graph, in the order of the text: those of its own
statements, and those that are read in the legend. -/
def mentions (scheme : ColorScheme) (graph : Graph) : List Mention :=
  (statements scheme graph).filterMap Statement.mention? ++ mentionsIn (legend scheme)

section Statements

variable (scheme : ColorScheme) (graph : Graph)

theorem exists_common_of_mem_lookStatements {style : GraphStyle} {statement : Statement}
    (member : statement ∈ lookStatements style) :
    ∃ subject attributes, statement = .common subject attributes := by
  unfold lookStatements at member
  simp only [List.mem_cons, List.mem_append, Option.mem_toList, Option.map_eq_some_iff] at member
  rcases member with rfl | (⟨_, _, rfl⟩ | ofNodes) | ofEdges
  · exact ⟨_, _, rfl⟩
  · exact ⟨_, _, rfl⟩
  · split at ofNodes
    · contradiction
    · exact ⟨_, _, List.mem_singleton.mp ofNodes⟩
  · split at ofEdges
    · contradiction
    · exact ⟨_, _, List.mem_singleton.mp ofEdges⟩

theorem filterMap_mention?_nodeStatements :
    (nodeStatements scheme graph).filterMap Statement.mention? = nodeMentions graph := by
  rw [nodeStatements, nodeMentions, List.filterMap_map, Table.keys, List.map_map,
    ← List.filterMap_eq_map]
  rfl

theorem filterMap_mention?_edgeStatements :
    (edgeStatements scheme graph).filterMap Statement.mention? = edgeMentions graph := by
  rw [edgeStatements, edgeMentions, List.filterMap_filterMap, Table.keys, List.filterMap_map]
  congr 1
  funext entry
  obtain ⟨⟨caller, callee⟩, kind⟩ := entry
  cases callee <;> rfl

theorem mentions_eq :
    mentions scheme graph =
      nodeMentions graph ++ (edgeMentions graph ++ mentionsIn (legend scheme)) := by
  have ofLook : (lookStatements scheme.graph).filterMap Statement.mention? = [] := by
    apply List.filterMap_eq_nil_iff.mpr
    intro statement member
    obtain ⟨_, _, rfl⟩ := exists_common_of_mem_lookStatements member
    rfl
  rw [mentions, statements, List.filterMap_append, List.filterMap_append, ofLook,
    filterMap_mention?_nodeStatements, filterMap_mention?_edgeStatements, List.nil_append,
    List.append_assoc]

end Statements

/-! ### Every end is declared -/

/-- A graph whose nodes can be told apart in a DOT text and whose edges lead from node to
node. -/
structure Drawable (graph : Graph) : Prop where
  names : ∀ name ∈ graph.nodes.keys, IsNodeName name
  distinct : graph.nodes.keys.Nodup
  callers : ∀ link ∈ graph.edges.keys, link.1 ∈ graph.nodes.keys
  callees : ∀ link ∈ graph.edges.keys, ∀ callee, link.2 = some callee → callee ∈ graph.nodes.keys

/-- What stands in front of all places of an item stands before each of them. -/
theorem mem_before_of_not_mem {α : Type} {front back before after : List α} {item other : α}
    (split : front ++ back = before ++ item :: after) (absent : item ∉ front)
    (member : other ∈ front) : other ∈ before := by
  rcases List.append_eq_append_iff.mp split with ⟨between, rfl, -⟩ | ⟨between, rfl, rest⟩
  · exact List.mem_append_left between member
  · cases between with
    | nil => simpa using member
    | cons first later =>
        obtain ⟨rfl, -⟩ := List.cons.inj rest
        simp at absent

section Ends

variable {scheme : ColorScheme} {graph : Graph} {before after : List Mention}
  {tail head written : String}

theorem edge_not_mem_nodeMentions : .edge tail head ∉ nodeMentions graph := by
  simp [nodeMentions]

/-- An edge that is not of the graph is of the legend, which declares its ends. -/
theorem declares_legendEdge
    (inText : nodeMentions graph ++ (edgeMentions graph ++ (legendNodes ++ legendEdges)) =
      before ++ .edge tail head :: after)
    (foreign : .edge tail head ∉ edgeMentions graph) (isEnd : written ∈ [tail, head]) :
    written ∈ legendNames ∧ .node written ∈ before := by
  have split : (nodeMentions graph ++ edgeMentions graph ++ legendNodes) ++ legendEdges =
      before ++ .edge tail head :: after := by
    simpa using inText
  have absent : .edge tail head ∉ nodeMentions graph ++ edgeMentions graph ++ legendNodes := by
    simp [edge_not_mem_nodeMentions, foreign, legendNodes]
  have isLast : .edge tail head ∈ legendEdges := by
    have member : .edge tail head ∈ before ++ .edge tail head :: after :=
      List.mem_append_right before List.mem_cons_self
    rw [← split] at member
    exact (List.mem_append.mp member).resolve_left absent
  obtain ⟨rfl, rfl⟩ : tail = "key" ∧ head = "key2" := by simpa [legendEdges] using isLast
  have inLegend : written ∈ legendNames := isEnd
  exact ⟨inLegend,
    mem_before_of_not_mem split absent (List.mem_append_right _ (List.mem_map_of_mem inLegend))⟩

namespace Drawable

theorem nodup_nodeMentions (drawable : Drawable graph) : (nodeMentions graph).Nodup := by
  refine drawable.distinct.map_on ?_
  intro left isLeft right isRight same
  exact identifier_injective (drawable.names left isLeft).2 (drawable.names right isRight).2
    (Mention.node.inj same)

/-- The edges of a graph lead between nodes that it declares. -/
theorem declares_edgeMentions (drawable : Drawable graph)
    (isEdge : .edge tail head ∈ edgeMentions graph) (isEnd : written ∈ [tail, head]) :
    .node written ∈ nodeMentions graph := by
  have declared : ∀ name ∈ graph.nodes.keys, .node (edgeEnd name) ∈ nodeMentions graph := by
    intro name isNode
    rw [edgeEnd_eq_identifier (drawable.names name isNode).1]
    exact List.mem_map_of_mem isNode
  obtain ⟨⟨caller, callee?⟩, isLink, mentioned⟩ := List.mem_filterMap.mp isEdge
  obtain ⟨callee, isCallee, same⟩ := Option.map_eq_some_iff.mp mentioned
  obtain ⟨rfl, rfl⟩ := Mention.edge.inj same
  rcases List.mem_pair.mp isEnd with rfl | rfl
  · exact declared caller (drawable.callers _ isLink)
  · exact declared callee (drawable.callees _ isLink callee isCallee)

/-- A name of the legend is written as it is. -/
theorem mem_nodeMentions_iff (drawable : Drawable graph) (inLegend : written ∈ legendNames) :
    .node written ∈ nodeMentions graph ↔ written ∈ graph.nodes.keys := by
  have plain : ∀ name ∈ legendNames, identifier name = name ∧ '"' ∉ name.toList := by
    decide +kernel
  obtain ⟨asItIs, noQuote⟩ := plain written inLegend
  constructor
  · intro isNode
    obtain ⟨name, isName, same⟩ := List.mem_map.mp isNode
    have identifiers : identifier name = identifier written :=
      (Mention.node.inj same).trans asItIs.symm
    exact identifier_injective (drawable.names name isName).2 noQuote identifiers ▸ isName
  · intro isName
    have mentioned := List.mem_map_of_mem (f := fun name => Mention.node (identifier name)) isName
    rwa [asItIs] at mentioned

theorem count_node (drawable : Drawable graph) (plain : scheme.HasPlainLegend)
    (written : String) :
    (mentions scheme graph).count (.node written) =
      (if .node written ∈ nodeMentions graph then 1 else 0) +
        if written ∈ legendNames then 1 else 0 := by
  have ofEdges : (edgeMentions graph).count (.node written) = 0 := by
    apply List.count_eq_zero.mpr
    intro member
    obtain ⟨link, -, mentioned⟩ := List.mem_filterMap.mp member
    obtain ⟨callee, -, same⟩ := Option.map_eq_some_iff.mp mentioned
    cases same
  have ofLegend : (legendNodes ++ legendEdges).count (.node written) =
      if written ∈ legendNames then 1 else 0 := by
    have inEdges : (legendEdges).count (.node written) = 0 := by
      simp [legendEdges]
    have inNodes : legendNodes.count (.node written) = legendNames.count written :=
      List.count_map_of_injective _ _ (fun _ _ => Mention.node.inj) _
    rw [List.count_append, inEdges, inNodes, Nat.add_zero]
    exact List.Nodup.count (by decide)
  rw [mentions_eq, mentionsIn_legend plain, List.count_append, List.count_append, ofEdges,
    ofLegend, Nat.zero_add, List.Nodup.count drawable.nodup_nodeMentions]

/-- Each end of an edge is declared before the edge, and twice exactly if both the graph and
the legend have a node of that name. -/
theorem declares_end (drawable : Drawable graph) (plain : scheme.HasPlainLegend)
    (inText : mentions scheme graph = before ++ .edge tail head :: after)
    (isEnd : written ∈ [tail, head]) :
    .node written ∈ before ∧
      (mentions scheme graph).count (.node written) =
        if written ∈ legendNames ∧ written ∈ graph.nodes.keys then 2 else 1 := by
  have counted := drawable.count_node plain written
  rw [mentions_eq, mentionsIn_legend plain] at inText
  by_cases inGraph : .node written ∈ nodeMentions graph
  · refine ⟨mem_before_of_not_mem inText edge_not_mem_nodeMentions inGraph, ?_⟩
    by_cases inLegend : written ∈ legendNames
    · have isNode := (drawable.mem_nodeMentions_iff inLegend).mp inGraph
      simp [counted, inGraph, inLegend, isNode]
    · simp [counted, inGraph, inLegend]
  · -- The edge is one of the legend, since those of the graph have their ends in the graph.
    obtain ⟨inLegend, isBefore⟩ := declares_legendEdge inText
      (fun isEdge => inGraph (drawable.declares_edgeMentions isEdge isEnd)) isEnd
    have isNoNode : written ∉ graph.nodes.keys :=
      fun isNode => inGraph ((drawable.mem_nodeMentions_iff inLegend).mpr isNode)
    exact ⟨isBefore, by simp [counted, inGraph, inLegend, isNoNode]⟩

end Drawable

end Ends

/-! ### Programs -/

theorem drawable_analyze {units : List SourceUnit} {orders : Linearization.Orders}
    (linearized : Linearization.linearize (unitBases units) = .ok orders)
    (spellings : ∀ contract ∈ unitContracts units, ∀ text ∈ contract.spellings, IsNodeName text)
    (omitLibraries : Bool) : Drawable (freshAnalysis omitLibraries units orders).graph := by
  have success := analyze_of_linearize linearized omitLibraries
  have consistent := (Collection.develops_analyze success Collection.consistent_empty).1
  have ends : ∀ link ∈ (freshAnalysis omitLibraries units orders).graph.edges.keys,
      link.1 ∈ (freshAnalysis omitLibraries units orders).graph.nodes.keys ∧
        ∃ callee, link.2 = some callee ∧
          callee ∈ (freshAnalysis omitLibraries units orders).graph.nodes.keys := by
    intro link isEdge
    obtain ⟨-, caller, callee, isCallee, node⟩ := consistent.ends link.1 link.2
      ((Table.contains_iff_mem_keys _ _).mpr isEdge)
    exact ⟨(Table.contains_iff_mem_keys _ _).mp caller, callee, isCallee,
      (Table.contains_iff_mem_keys _ _).mp node⟩
  refine ⟨?_, consistent.nodesDistinct, fun link isEdge => (ends link isEdge).1, ?_⟩
  · intro name isNode
    exact isNodeName_of_nodeSource spellings (nodeSource_of_mem_nodes linearized isNode)
  · intro link isEdge callee isCallee
    obtain ⟨-, other, isOther, node⟩ := ends link isEdge
    rw [isCallee] at isOther
    exact Option.some.inj isOther ▸ node

/-- In a fresh program whose base map is linearized, let no contract name, base name,
identifier, number literal or user-defined type name hold a colon or a double quote.  Then
no node name holds one either.  The DOT text of every scheme is that of its statements, then
the legend and the closing brace.  If the colours of the legend stay in their attributes,
then for each edge statement of the whole text, each end is written with the identifier of a
node statement that stands before the edge.  There is exactly one such node statement, unless
a contract has the name of a node of the legend: then there are two. -/
theorem analyze_edge_ends_declared {units : List SourceUnit} {orders : Linearization.Orders}
    (linearized : Linearization.linearize (unitBases units) = .ok orders)
    (spellings : ∀ contract ∈ unitContracts units, ∀ text ∈ contract.spellings, IsNodeName text)
    (omitLibraries : Bool) :
    ∃ analysis, analyze {} omitLibraries units = .ok analysis ∧
      (∀ name ∈ analysis.graph.nodes.keys, IsNodeName name) ∧
      ∀ scheme,
        document scheme analysis.graph =
          opening (statements scheme analysis.graph) ++ legend scheme ++ "\x7d\n" ∧
        (∀ statement ∈ statements scheme analysis.graph, statement.ShowsMention) ∧
        (scheme.HasPlainLegend →
          ∀ before tail head after,
            mentions scheme analysis.graph = before ++ .edge tail head :: after →
            ∀ written ∈ [tail, head],
              .node written ∈ before ∧
              (mentions scheme analysis.graph).count (.node written) =
                if written ∈ legendNames ∧ written ∈ analysis.graph.nodes.keys then 2 else 1) := by
  have drawable := drawable_analyze linearized spellings omitLibraries
  refine ⟨_, analyze_of_linearize linearized omitLibraries, drawable.names, ?_⟩
  intro scheme
  refine ⟨document_eq scheme _, fun statement _ => statement.showsMention, ?_⟩
  intro plain before tail head after inText written isEnd
  exact drawable.declares_end plain inText isEnd

/-- Calls on a variable, on an address in figures, on a converted expression with colons and
quotes in its text, and on a base. -/
def purseUnits : List SourceUnit :=
  [{ contracts := [{
      name := "Purse"
      bases := ["Base"]
      members := [
        .stateVariable "coin" (.userDefined "Token"),
        .function (some "pay") .function
          { body := some [
              .expression (.call (.member (.identifier "coin") "send") [] 3),
              .expression (.call (.member
                (.call (.elementaryType "address") [.number "0x1"] 4) "ping") [] 4),
              .expression (.call (.member (.call (.elementaryType "address")
                [.other "a ? \"b:c\" : d" []] 5) "ping") [] 5),
              .expression (.call (.member (.identifier "super") "pay") [] 6)] }] }] }]

theorem analyze_edge_ends_declared_purse :
    Linearization.linearize (unitBases purseUnits) =
        .ok ⟨[("Base", ["Base"]), ("Purse", ["Purse", "Base"])]⟩ ∧
      (∀ contract ∈ unitContracts purseUnits, ∀ text ∈ contract.spellings, IsNodeName text) ∧
      ∃ analysis, analyze {} false purseUnits = .ok analysis ∧
        analysis.graph.edges.keys =
          [("Purse", some "Token"), ("Purse", some "address(0x1)"),
            ("Purse", some "a ? b c   d"), ("Purse", some "Base")] ∧
        ∃ before after,
          mentions .dark analysis.graph =
            before ++ .edge "Purse" "\"a ? b c   d\"" :: after ∧
          .node "Purse" ∈ before ∧ .node "\"a ? b c   d\"" ∈ before ∧
          (mentions .dark analysis.graph).count (.node "Purse") = 1 := by
  have linearized : Linearization.linearize (unitBases purseUnits) =
      .ok ⟨[("Base", ["Base"]), ("Purse", ["Purse", "Base"])]⟩ := by
    decide +kernel
  have spellings : ∀ contract ∈ unitContracts purseUnits, ∀ text ∈ contract.spellings,
      IsNodeName text := by
    decide
  obtain ⟨analysis, success, -, inText⟩ := analyze_edge_ends_declared linearized spellings false
  have edges : analysis.graph.edges.entries =
      [(("Purse", some "Token"), .external), (("Purse", some "address(0x1)"), .external),
        (("Purse", some "a ? b c   d"), .external), (("Purse", some "Base"), .super)] := by
    obtain rfl := Except.ok.inj (success.symm.trans (analyze_of_linearize linearized false))
    refine (edges_drawUnits _ purseUnits).trans ?_
    decide +kernel
  have member : .edge "Purse" "\"a ? b c   d\"" ∈ mentions .dark analysis.graph := by
    have isEdge : .edge "Purse" "\"a ? b c   d\"" ∈ edgeMentions analysis.graph := by
      rw [edgeMentions, Table.keys, edges]
      decide +kernel
    simp [mentions_eq, isEdge]
  obtain ⟨before, after, split⟩ := List.append_of_mem member
  have declared := (inText .dark).2.2 (by decide +kernel) before _ _ after split
  obtain ⟨isBefore, counted⟩ := declared "Purse" List.mem_cons_self
  refine ⟨linearized, spellings, analysis, success, by rw [Table.keys, edges]; rfl, before, after,
    split, isBefore, (declared "\"a ? b c   d\"" (by simp)).1, ?_⟩
  rw [counted, if_neg]
  exact fun both => absurd both.1 (by decide)

/-- A contract with the name of a node of the legend. -/
def keyUnits : List SourceUnit :=
  [{ contracts := [{
      name := "key"
      members := [
        .stateVariable "coin" (.userDefined "Token"),
        .function (some "pay") .function
          { body := some [.expression (.call (.member (.identifier "coin") "send") [] 1)] }] }] }]

/-- An end of an edge can be declared twice: by a contract with the name of a node of the
legend, and by a colour that brings a node statement into the legend. -/
theorem ends_declared_twice :
    (∀ contract ∈ unitContracts keyUnits, ∀ text ∈ contract.spellings, IsNodeName text) ∧
      ∃ analysis, analyze {} false keyUnits = .ok analysis ∧
        .edge "key" "Token" ∈ mentions {} analysis.graph ∧
        (mentions {} analysis.graph).count (.node "key") = 2 ∧
        .edge "key" "Token" ∈ mentions breakingScheme analysis.graph ∧
        (mentions breakingScheme analysis.graph).count (.node "Token") = 2 := by
  have linearized : Linearization.linearize (unitBases keyUnits) = .ok ⟨[("key", ["key"])]⟩ := by
    decide +kernel
  have drawn : nodeMentions (freshAnalysis false keyUnits ⟨[("key", ["key"])]⟩).graph =
        [.node "key", .node "Token"] ∧
      edgeMentions (freshAnalysis false keyUnits ⟨[("key", ["key"])]⟩).graph =
        [.edge "key" "Token"] := by
    decide +kernel
  refine ⟨by decide, _, analyze_of_linearize linearized false, ?_⟩
  rw [mentions_eq, mentions_eq, drawn.1, drawn.2, mentionsIn_legend (by decide +kernel),
    mentionsIn_legend_breakingScheme]
  decide

end ContractCalls.Dot
