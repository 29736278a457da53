import ContractCalls.Proofs.Bodies.CallSites

/-!
Contract: the items of a body, against the nodes of its syntax tree.

Owns:
- the nodes of a body that its items stand for: declarations and calls that are
  not inside of others;
- the law that a body is read, that its items are one for one these nodes, and
  that the calls of the items are the calls of the tree, in source order.

The reading of a body goes down to the nodes of its items and leaves the rest to
the reading of expressions, so the two laws meet at the calls.
-/

set_option autoImplicit false

namespace ContractCalls.Solidity.FromTree

open ContractCalls.Syntax

/-! ### The nodes of items -/

def declarationKinds : List String := ["variable_declaration", "parameter"]

def itemKinds : List String := declarationKinds ++ callKinds

/-- Whether steps lead through a declaration or a call. -/
def pathInItem (above : List Step) : Bool :=
  above.any fun step => itemKinds.contains step.parent.kind

/-- A declaration or a call that is not inside of another one. -/
def Occurrence.isItem (occurrence : Occurrence) : Bool :=
  itemKinds.contains occurrence.node.kind && !pathInItem occurrence.above

/-- An item is that of a node: the declaration of its variable, or an expression
with all its calls. -/
def ItemOf (occurrence : Occurrence) : BodyItem → Prop
  | .declaration declared =>
      occurrence.node.kind ∈ declarationKinds ∧ declared = variableOf occurrence.node
  | .expression whole =>
      occurrence.node.kind ∈ callKinds ∧
        whole.callSites.map CallSite.line =
          callLines (occurrences occurrence.above occurrence.node)

/-- The calls that a walk over the item meets. -/
def visitedSites : BodyItem → List CallSite
  | .declaration _ => []
  | .expression whole => whole.callSites

section Paths

variable {above : List Step} {node : Node}

theorem pathInItem_cons (step : Step) :
    pathInItem (step :: above) = (itemKinds.contains step.parent.kind || pathInItem above) :=
  List.any_cons

theorem pathInCall_of_pathInItem (outside : pathInItem above = false) :
    pathInCall above = false := by
  rw [pathInItem, List.any_eq_false] at outside
  rw [pathInCall, List.any_eq_false]
  intro step isAbove inCall
  refine outside step isAbove ?_
  simp only [itemKinds, List.contains_iff_mem, List.mem_append] at inCall ⊢
  exact .inr inCall

/-- The node of an item holds no other. -/
theorem items_of_item (isItem : itemKinds.contains node.kind = true)
    (outside : pathInItem above = false) :
    (occurrences above node).filter Occurrence.isItem = [{ node, above }] := by
  have isFirst : Occurrence.isItem { node, above } = true := by
    simp only [Occurrence.isItem, isItem, outside, Bool.not_false, Bool.and_self]
  rw [occurrences, List.filter_cons_of_pos isFirst]
  congr 1
  rw [List.filter_eq_nil_iff]
  intro occurrence below
  obtain ⟨child, _, inChild⟩ := List.mem_flatMap.mp below
  have stepAbove : ⟨node, child⟩ ∈ occurrence.above :=
    (suffix_above_of_mem_occurrences _ _ inChild).subset List.mem_cons_self
  have inItem : pathInItem occurrence.above = true :=
    List.any_eq_true.mpr ⟨_, stepAbove, isItem⟩
  simp [Occurrence.isItem, inItem]

theorem items_of_other (notItem : itemKinds.contains node.kind = false) :
    (occurrences above node).filter Occurrence.isItem =
      node.namedSlots.flatMap fun child =>
        (occurrences (⟨node, child⟩ :: above) child.node).filter Occurrence.isItem := by
  have isNot : ¬ Occurrence.isItem { node, above } = true := by
    rw [Occurrence.isItem, notItem, Bool.false_and]
    exact Bool.false_ne_true
  rw [occurrences, List.filter_cons_of_neg isNot, List.filter_flatMap]

end Paths

/-! ### Emitted events -/

theorem reads_emission {above : List Step} {node : Node} (regular : RegularFrom above node)
    (isEmission : node.kind = "emit_statement") :
    ∃ read, emission node = .ok read ∧
      read.callSites.map CallSite.line = callLines (occurrences above node) := by
  have inCallBelow : ∀ child, pathInCall (⟨node, child⟩ :: above) = true := by
    intro child
    simp [pathInCall_cons, callKinds, isEmission]
  have parts : ∀ (part : Node) (path : List Step), sizeOf part < sizeOf node →
      RegularFrom path part → pathInCall path = true → Reads path part :=
    fun part path _ partRegular inCall => reads_expression part path partRegular (.inr (.inr inCall))
  obtain ⟨event, leads, isEvent⟩ := exists_lead (regular.self.emission isEmission)
  obtain ⟨called, eventRead, eventLines⟩ :=
    reads_child regular inCallBelow parts (List.mem_of_mem_head? leads)
  obtain ⟨given, argumentsRead, argumentLines⟩ :=
    readsArguments regular inCallBelow parts (some event)
  refine ⟨.call called given (lineOf node), ?_, ?_⟩
  · unfold emission
    rw [isEvent]
    simp [eventRead, argumentsRead, bind, Except.bind, pure, Except.pure]
  · exact callLines_of_lead regular (by simp [Occurrence.isCall, callKinds, isEmission]) leads
      eventLines argumentLines

/-! ### The items of nodes and bodies -/

/-- The items of a single node in a body. -/
def nodeItems (node : Node) : Except Defect (List BodyItem) :=
  if node.kind == "variable_declaration" || node.kind == "parameter" then
    .ok [.declaration (variableOf node)]
  else if node.kind == "call_expression" || node.kind == "type_cast_expression" then
    (expression node).map fun call => [.expression call]
  else if node.kind == "emit_statement" then
    (emission node).map fun call => [.expression call]
  else bodyItems node

theorem bodyItems_eq (node : Node) :
    bodyItems node = do
      let items ← node.namedSlots.mapM fun child => nodeItems child.node
      return items.flatten := by
  rw [bodyItems]
  rfl

/-- The items read for some nodes are one for one those of the nodes, and their
calls are the calls of the nodes. -/
structure Complete (listed : List Occurrence) (items : List BodyItem) : Prop where
  standFor : List.Forall₂ ItemOf (listed.filter Occurrence.isItem) items
  sites : (items.flatMap visitedSites).map CallSite.line = callLines listed

theorem Complete.flatten {α : Type} {listed : α → List Occurrence} {each : List α}
    {items : List (List BodyItem)}
    (complete : List.Forall₂ (fun one items => Complete (listed one) items) each items) :
    Complete (each.flatMap listed) items.flatten := by
  constructor
  · rw [List.filter_flatMap, List.flatMap_def]
    apply List.rel_flatten
    exact List.forall₂_map_left_iff.mpr (complete.imp fun _ _ one => one.standFor)
  · have lines := flatMap_eq_of_forall₂ (complete.imp fun _ _ one => one.sites)
    rw [callLines_flatMap, ← lines, ← List.flatMap_id, List.flatMap_assoc, List.map_flatMap]
    rfl

theorem Complete.of_children {above : List Step} {node : Node} {items : List BodyItem}
    (complete : Complete (node.namedSlots.flatMap fun child =>
      occurrences (⟨node, child⟩ :: above) child.node) items)
    (notItem : itemKinds.contains node.kind = false) (outside : pathInItem above = false) :
    Complete (occurrences above node) items := by
  have notCall : Occurrence.isCall { node, above } = false := by
    simp only [itemKinds, List.contains_append, Bool.or_eq_false_iff] at notItem
    rw [Occurrence.isCall, notItem.2, pathInCall_of_pathInItem outside, Bool.and_false,
      Bool.false_or]
  constructor
  · rw [items_of_other notItem, ← List.filter_flatMap]
    exact complete.standFor
  · rw [callLines_of_not_call notCall]
    exact complete.sites.trans (callLines_flatMap _ node.namedSlots)

theorem exists_bodyItems {node : Node} {listed : Syntax.Tree.Child node → List Occurrence}
    (children : ∀ child ∈ node.namedSlots,
      ∃ items, nodeItems child.node = .ok items ∧ Complete (listed child) items) :
    ∃ items, bodyItems node = .ok items ∧ Complete (node.namedSlots.flatMap listed) items := by
  obtain ⟨items, areRead, complete⟩ := exists_forall₂_mapM children
  refine ⟨items.flatten, ?_, Complete.flatten complete⟩
  rw [bodyItems_eq, areRead]
  rfl

theorem complete_call {above : List Step} {node : Node} {whole : Expression}
    (isCall : node.kind ∈ callKinds) (outside : pathInItem above = false)
    (lines : whole.callSites.map CallSite.line = callLines (occurrences above node)) :
    Complete (occurrences above node) [.expression whole] := by
  have isItem : itemKinds.contains node.kind = true :=
    List.contains_iff_mem.mpr (List.mem_append_right _ isCall)
  constructor
  · rw [items_of_item isItem outside]
    exact .cons ⟨isCall, lines⟩ .nil
  · rw [List.flatMap_singleton]
    exact lines

theorem complete_declaration {above : List Step} {node : Node} (regular : RegularFrom above node)
    (isDeclaration : node.kind ∈ declarationKinds) (outside : pathInItem above = false) :
    Complete (occurrences above node) [.declaration (variableOf node)] := by
  have isItem : itemKinds.contains node.kind = true :=
    List.contains_iff_mem.mpr (List.mem_append_left _ isDeclaration)
  have kinds : node.kind = "variable_declaration" ∨ node.kind = "parameter" := by
    simpa [declarationKinds] using isDeclaration
  constructor
  · rw [items_of_item isItem outside]
    exact .cons ⟨isDeclaration, rfl⟩ .nil
  · have notCall : Occurrence.isCall { node, above } = false := by
      rcases kinds with kind | kind <;> simp [Occurrence.isCall, callKinds, kind]
    have closed : closedKinds.contains node.kind = true := by
      rcases kinds with kind | kind <;> simp [closedKinds, kind]
    rw [callLines_of_not_call notCall, regular.linesBelow_of_closedKind closed]
    rfl

/-- A node that is not inside of an item is read with all its items and calls. -/
theorem reads_nodeItems (node : Node) (above : List Step) (regular : RegularFrom above node)
    (outside : pathInItem above = false) :
    ∃ items, nodeItems node = .ok items ∧ Complete (occurrences above node) items := by
  by_cases isDeclaration : node.kind = "variable_declaration" ∨ node.kind = "parameter"
  · refine ⟨_, ?_, complete_declaration regular (by simpa [declarationKinds] using isDeclaration)
      outside⟩
    simp [nodeItems, isDeclaration]
  by_cases isCall : node.kind = "call_expression" ∨ node.kind = "type_cast_expression"
  · obtain ⟨whole, isRead, lines⟩ :=
      reads_expression node above regular (or_assoc.mp (.inl isCall))
    refine ⟨[.expression whole], ?_, complete_call ?_ outside lines⟩
    · simp [nodeItems, isDeclaration, isCall, isRead, Except.map]
    · rcases isCall with kind | kind <;> simp [callKinds, kind]
  by_cases isEmission : node.kind = "emit_statement"
  · obtain ⟨whole, isRead, lines⟩ := reads_emission regular isEmission
    refine ⟨[.expression whole], ?_, complete_call ?_ outside lines⟩
    · simp [nodeItems, isEmission, isRead, Except.map]
    · simp [callKinds, isEmission]
  have notItem : itemKinds.contains node.kind = false := by
    simp only [not_or] at isDeclaration isCall
    simp [itemKinds, declarationKinds, callKinds, isDeclaration, isCall, isEmission]
  have children : ∀ child ∈ node.namedSlots, ∃ items, nodeItems child.node = .ok items ∧
      Complete (occurrences (⟨node, child⟩ :: above) child.node) items := by
    intro child named
    have stillOutside : pathInItem (⟨node, child⟩ :: above) = false := by
      rw [pathInItem_cons, notItem, outside, Bool.false_or]
    exact reads_nodeItems child.node _ (regular.child named) stillOutside
  obtain ⟨items, areRead, complete⟩ := exists_bodyItems children
  refine ⟨items, ?_, complete.of_children notItem outside⟩
  simp [nodeItems, isDeclaration, isCall, isEmission, areRead]
termination_by sizeOf node
decreasing_by exact Syntax.Tree.Child.sizeOf_node_lt _

theorem exists_bodyItems_of_regular {body : Node}
    (regular : ∀ occurrence ∈ bodyOccurrences body, occurrence.Regular) :
    ∃ items, bodyItems body = .ok items ∧ Complete (bodyOccurrences body) items := by
  refine exists_bodyItems fun child named => reads_nodeItems child.node [] ?_ rfl
  intro occurrence inside
  exact regular occurrence (List.mem_flatMap.mpr ⟨child, named, inside⟩)

/-- A definition whose body has the shape of the grammar is read; the calls that
a walk over its items meets are on the lines of the calls in the tree, in source
order, and the items are one for one the declarations and calls that are not
inside of others. -/
theorem bodyOf_visits_all_calls {definition : Node} {body : Syntax.Tree.Child definition}
    (isBody : (definition.fieldSlot? "body").or (definition.kindSlot? "function_body") = some body)
    (regular : ∀ occurrence ∈ bodyOccurrences body.node, occurrence.Regular) :
    ∃ items, bodyOf definition = .ok (some items) ∧
      (items.flatMap visitedSites).map CallSite.line = callLines (bodyOccurrences body.node) ∧
      List.Forall₂ ItemOf ((bodyOccurrences body.node).filter Occurrence.isItem) items := by
  obtain ⟨items, areRead, complete⟩ := exists_bodyItems_of_regular regular
  refine ⟨items, ?_, complete.sites, complete.standFor⟩
  rw [bodyOf, isBody]
  exact congrArg (Except.map some) areRead

def nodeAt (row : Nat) (kind : String) (children : List Node) : Node :=
  { kind, extent := { text := "", start := { row, column := 0 } }, children }

/-- A body that declares a variable by nested calls, one of them of a member and
one a conversion to a payable address, and then emits an event with a conversion. -/
def purchase : Node :=
  nodeAt 0 "function_definition" [
    nodeAt 0 "function_body" [
      nodeAt 1 "variable_declaration_statement" [
        nodeAt 1 "variable_declaration" [nodeAt 1 "type_name" [], nodeAt 1 "identifier" []],
        nodeAt 1 "call_expression" [
          nodeAt 1 "identifier" [],
          nodeAt 2 "call_argument" [
            nodeAt 2 "call_expression" [
              nodeAt 2 "member_expression" [nodeAt 2 "identifier" [], nodeAt 2 "identifier" []],
              nodeAt 3 "comment" [],
              nodeAt 4 "call_argument" [
                nodeAt 4 "payable_conversion_expression" [
                  nodeAt 4 "call_argument" [nodeAt 4 "identifier" []]]]]]]],
      nodeAt 5 "emit_statement" [
        nodeAt 5 "identifier" [],
        nodeAt 6 "call_argument" [
          nodeAt 6 "type_cast_expression" [
            nodeAt 6 "primitive_type" [],
            nodeAt 6 "call_argument" [nodeAt 6 "identifier" []]]]]]]

def purchaseBody : Syntax.Tree.Child purchase := ⟨⟨0, Nat.zero_lt_one⟩⟩

theorem bodyOf_visits_all_calls_purchase :
    (purchase.fieldSlot? "body").or (purchase.kindSlot? "function_body") = some purchaseBody ∧
      (∀ occurrence ∈ bodyOccurrences purchaseBody.node, occurrence.Regular) ∧
      ∃ items, bodyOf purchase = .ok (some items) ∧
        (items.flatMap visitedSites).map CallSite.line = [2, 3, 5, 6, 7] ∧
        items.length = 3 := by
  have isBody : (purchase.fieldSlot? "body").or (purchase.kindSlot? "function_body") =
      some purchaseBody := by
    decide
  have regular : ∀ occurrence ∈ bodyOccurrences purchaseBody.node, occurrence.Regular := by
    decide +kernel
  obtain ⟨items, isRead, visited, standFor⟩ := bodyOf_visits_all_calls isBody regular
  refine ⟨isBody, regular, items, isRead, visited.trans ?_, ?_⟩
  · decide +kernel
  · rw [← standFor.length_eq]
    decide +kernel

end ContractCalls.Solidity.FromTree
