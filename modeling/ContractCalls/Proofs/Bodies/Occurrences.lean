import ContractCalls.Solidity.FromTree.Bodies
import Mathlib.Data.List.Nodup
import Mathlib.Data.List.FinRange
import Mathlib.Tactic.MkIffOfInductiveProp

/-!
Contract: the nodes of a syntax tree in the order of the source.

Owns:
- the named nodes of a tree, each before its children, with the steps that lead
  to them;
- which of them are calls, and the lines of these;
- the shape that the grammar gives to trees, as far as calls depend on it;
- the parts of a tree of that shape in which no calls are.

Does not own: how expressions and bodies are read.
-/

set_option autoImplicit false

namespace ContractCalls.Syntax.Tree

variable {ε : Type}

theorem nodup_namedSlots (tree : Tree ε) : tree.namedSlots.Nodup := by
  have injective : Function.Injective (Child.mk : Fin tree.children.length → Child tree) := by
    intro left right same
    exact congrArg Child.slot same
  exact ((List.nodup_finRange _).map injective).filter _

theorem namedSlots_of_soleSlot? {tree : Tree ε} {only : Child tree}
    (sole : tree.soleSlot? = some only) : tree.namedSlots = [only] := by
  unfold soleSlot? at sole
  split at sole
  next named =>
    rw [← Option.some.inj sole]
    exact named
  next => contradiction

end ContractCalls.Syntax.Tree

namespace ContractCalls.Solidity.FromTree

open ContractCalls.Syntax

/-! ### Occurrences -/

/-- A step from a node to one of its children. -/
structure Step where
  parent : Node
  child : Syntax.Tree.Child parent

/-- A node with the steps that lead to it, the last one first. -/
structure Occurrence where
  node : Node
  above : List Step

/-- A node and the named nodes in it, each before its children and the children
from left to right. -/
def occurrences (above : List Step) (node : Node) : List Occurrence :=
  { node, above } ::
    node.namedSlots.flatMap fun child => occurrences (⟨node, child⟩ :: above) child.node
termination_by sizeOf node
decreasing_by exact Syntax.Tree.Child.sizeOf_node_lt _

/-- The named nodes inside a body. -/
def bodyOccurrences (body : Node) : List Occurrence :=
  body.namedSlots.flatMap fun child => occurrences [] child.node

theorem self_mem_occurrences (above : List Step) (node : Node) :
    { node, above } ∈ occurrences above node := by
  rw [occurrences]
  exact List.mem_cons_self

theorem mem_occurrences_of_child {above : List Step} {node : Node}
    {child : Syntax.Tree.Child node} (named : child ∈ node.namedSlots) {occurrence : Occurrence}
    (inside : occurrence ∈ occurrences (⟨node, child⟩ :: above) child.node) :
    occurrence ∈ occurrences above node := by
  rw [occurrences]
  exact List.mem_cons_of_mem _ (List.mem_flatMap.mpr ⟨child, named, inside⟩)

theorem suffix_above_of_mem_occurrences (node : Node) (above : List Step) {occurrence : Occurrence}
    (member : occurrence ∈ occurrences above node) : above <:+ occurrence.above := by
  rw [occurrences] at member
  rcases List.mem_cons.mp member with rfl | deeper
  · exact List.suffix_rfl
  · obtain ⟨child, _, inChild⟩ := List.mem_flatMap.mp deeper
    have longer := suffix_above_of_mem_occurrences child.node (⟨node, child⟩ :: above) inChild
    exact (List.suffix_cons ⟨node, child⟩ above).trans longer
termination_by sizeOf node
decreasing_by exact Syntax.Tree.Child.sizeOf_node_lt _

/-! ### Calls -/

/-- The kinds of nodes that are calls wherever they stand. -/
def callKinds : List String := ["call_expression", "type_cast_expression", "emit_statement"]

/-- Whether steps lead through a call. -/
def pathInCall (above : List Step) : Bool :=
  above.any fun step => callKinds.contains step.parent.kind

theorem pathInCall_cons (step : Step) (above : List Step) :
    pathInCall (step :: above) = (callKinds.contains step.parent.kind || pathInCall above) :=
  List.any_cons

/-- A conversion to a payable address counts as a call only inside of calls. -/
def Occurrence.isCall (occurrence : Occurrence) : Bool :=
  callKinds.contains occurrence.node.kind ||
    (occurrence.node.kind == "payable_conversion_expression" && pathInCall occurrence.above)

def callLines (listed : List Occurrence) : List Nat :=
  (listed.filter Occurrence.isCall).map fun occurrence => lineOf occurrence.node

theorem callLines_flatMap {α : Type} (listed : α → List Occurrence) (each : List α) :
    callLines (each.flatMap listed) = each.flatMap fun one => callLines (listed one) := by
  rw [callLines, List.filter_flatMap, List.map_flatMap]
  rfl

/-- The lines of the calls in a child of a node. -/
def linesIn (above : List Step) {node : Node} (child : Syntax.Tree.Child node) : List Nat :=
  callLines (occurrences (⟨node, child⟩ :: above) child.node)

/-- The lines of the calls below a node. -/
def linesBelow (above : List Step) (node : Node) : List Nat :=
  node.namedSlots.flatMap (linesIn above)

section Lines

variable {above : List Step} {node : Node}

theorem callLines_of_call (isCall : Occurrence.isCall { node, above } = true) :
    callLines (occurrences above node) = lineOf node :: linesBelow above node := by
  rw [occurrences, callLines, List.filter_cons_of_pos isCall, List.map_cons]
  exact congrArg (lineOf node :: ·) (callLines_flatMap _ node.namedSlots)

theorem callLines_of_not_call (notCall : Occurrence.isCall { node, above } = false) :
    callLines (occurrences above node) = linesBelow above node := by
  rw [occurrences, callLines, List.filter_cons_of_neg (by simp [notCall])]
  exact callLines_flatMap _ node.namedSlots

theorem callLines_of_sole {only : Syntax.Tree.Child node} (sole : node.soleSlot? = some only)
    (notCall : Occurrence.isCall { node, above } = false) :
    callLines (occurrences above node) = linesIn above only := by
  rw [callLines_of_not_call notCall, linesBelow, Syntax.Tree.namedSlots_of_soleSlot? sole]
  exact List.flatMap_singleton _ _

end Lines

/-! ### The shape of trees -/

/-- The kinds of nodes in which no calls are. -/
def closedKinds : List String :=
  ["identifier", "number_literal", "primitive_type", "comment", "variable_declaration",
    "parameter"]

/-- A step behind which no calls are: from a node of a closed kind, to the type of
a conversion, or to another part of a member access than its object. -/
def Step.closed (step : Step) : Bool :=
  closedKinds.contains step.parent.kind ||
    (step.parent.kind == "type_cast_expression" &&
      step.parent.namedSlots.head? == some step.child) ||
    (step.parent.kind == "member_expression" &&
      step.parent.namedSlots.head? != some step.child)

/-- A node has a named child, and the first of them is in a role if any is. -/
def LeadsWith (node : Node) (role : String) : Prop :=
  node.namedSlots ≠ [] ∧ ∀ child ∈ node.fieldSlot? role, node.namedSlots.head? = some child

instance (node : Node) (role : String) : Decidable (LeadsWith node role) :=
  inferInstanceAs (Decidable (_ ∧ _))

/-- The shape of a node at its place. -/
@[mk_iff]
structure Occurrence.Regular (occurrence : Occurrence) : Prop where
  call : occurrence.node.kind = "call_expression" → LeadsWith occurrence.node "function"
  emission : occurrence.node.kind = "emit_statement" → LeadsWith occurrence.node "name"
  member : occurrence.node.kind = "member_expression" → LeadsWith occurrence.node "object"
  cast : occurrence.node.kind = "type_cast_expression" → occurrence.node.namedSlots ≠ []
  /-- No event is emitted inside of an expression. -/
  apart : occurrence.node.kind = "emit_statement" → pathInCall occurrence.above = false
  reached : occurrence.isCall = true → ∀ step ∈ occurrence.above, step.closed = false

instance (occurrence : Occurrence) : Decidable occurrence.Regular :=
  decidable_of_iff _ (Occurrence.regular_iff occurrence).symm

/-- All nodes from a node on have the shape of the grammar. -/
def RegularFrom (above : List Step) (node : Node) : Prop :=
  ∀ occurrence ∈ occurrences above node, occurrence.Regular

namespace RegularFrom

variable {above : List Step} {node : Node} (regular : RegularFrom above node)

include regular

theorem self : Occurrence.Regular { node, above } :=
  regular _ (self_mem_occurrences above node)

theorem child {child : Syntax.Tree.Child node} (named : child ∈ node.namedSlots) :
    RegularFrom (⟨node, child⟩ :: above) child.node :=
  fun occurrence inside => regular occurrence (mem_occurrences_of_child named inside)

/-! ### Parts without calls -/

theorem callLines_of_closed {step : Step} (isAbove : step ∈ above) (closed : step.closed = true) :
    callLines (occurrences above node) = [] := by
  have noCalls : (occurrences above node).filter Occurrence.isCall = [] := by
    rw [List.filter_eq_nil_iff]
    intro occurrence member isCall
    have stepAbove := (suffix_above_of_mem_occurrences node above member).subset isAbove
    have isOpen := (regular occurrence member).reached isCall step stepAbove
    rw [closed] at isOpen
    contradiction
  rw [callLines, noCalls]
  rfl

theorem linesBelow_of_closedKind (closedKind : closedKinds.contains node.kind = true) :
    linesBelow above node = [] := by
  rw [linesBelow, List.flatMap_eq_nil_iff]
  intro child named
  have closed : Step.closed ⟨node, child⟩ = true := by
    simp only [Step.closed, closedKind, Bool.true_or]
  exact (regular.child named).callLines_of_closed List.mem_cons_self closed

theorem linesBelow_of_leaf_or_kind {kind : String} (closedKind : closedKinds.contains kind = true)
    (isLeaf : node.kind = kind ∨ node.namedSlots.isEmpty = true) : linesBelow above node = [] := by
  rcases isLeaf with rfl | empty
  · exact regular.linesBelow_of_closedKind closedKind
  · rw [linesBelow, List.isEmpty_iff.mp empty]
    rfl

theorem callLines_of_comment (isComment : node.kind = "comment") :
    callLines (occurrences above node) = [] := by
  have notCall : Occurrence.isCall { node, above } = false := by
    simp [Occurrence.isCall, callKinds, isComment]
  rw [callLines_of_not_call notCall]
  exact regular.linesBelow_of_closedKind (by simp [closedKinds, isComment])

/-- Comments may be left out of any of the children. -/
theorem flatMap_operands {children : List (Syntax.Tree.Child node)}
    (named : ∀ child ∈ children, child ∈ node.namedSlots) :
    (children.filter fun child => child.node.kind != "comment").flatMap (linesIn above) =
      children.flatMap (linesIn above) := by
  induction children with
  | nil => rfl
  | cons first later inductionHypothesis =>
      have inLater := inductionHypothesis fun child isLater =>
        named child (List.mem_cons_of_mem first isLater)
      by_cases isComment : first.node.kind = "comment"
      · have noCalls : linesIn above first = [] :=
          (regular.child (named first List.mem_cons_self)).callLines_of_comment isComment
        rw [List.filter_cons_of_neg (by simp [isComment]), inLater, List.flatMap_cons, noCalls]
        rfl
      · rw [List.filter_cons_of_pos (by simp [isComment]), List.flatMap_cons, List.flatMap_cons,
          inLater]

theorem flatMap_operandSlots :
    (operandSlots node).flatMap (linesIn above) = linesBelow above node :=
  regular.flatMap_operands fun _ named => named

/-- The calls below a node are those in its first named child and those in the
other operands. -/
theorem linesBelow_of_lead {lead : Syntax.Tree.Child node}
    (leads : node.namedSlots.head? = some lead) :
    linesBelow above node =
      linesIn above lead ++
        ((operandSlots node).filter fun child => some child ≠ some lead).flatMap
          (linesIn above) := by
  obtain ⟨later, slots⟩ := List.head?_eq_some_iff.mp leads
  have distinct := node.nodup_namedSlots
  rw [slots] at distinct
  have others : (node.namedSlots.filter fun child => some child ≠ some lead) = later := by
    rw [slots, List.filter_cons_of_neg (by simp), List.filter_eq_self]
    intro child isLater
    have different : child ≠ lead := by
      rintro rfl
      exact (List.nodup_cons.mp distinct).1 isLater
    simp [different]
  have named : ∀ child ∈ later, child ∈ node.namedSlots := by
    intro child isLater
    rw [slots]
    exact List.mem_cons_of_mem lead isLater
  have operands := regular.flatMap_operands named
  rw [operandSlots, List.filter_comm, others, operands, linesBelow, slots, List.flatMap_cons]

/-- No calls are in the parts of a member access but its object. -/
theorem linesBelow_of_object {object : Syntax.Tree.Child node}
    (isMember : node.kind = "member_expression")
    (leads : node.namedSlots.head? = some object) :
    linesBelow above node = linesIn above object := by
  have elsewhere : ((operandSlots node).filter fun child => some child ≠ some object).flatMap
      (linesIn above) = [] := by
    rw [List.flatMap_eq_nil_iff]
    intro child isOther
    obtain ⟨isOperand, different⟩ := List.mem_filter.mp isOther
    have named := (List.mem_filter.mp isOperand).1
    have different : some object ≠ some child := Ne.symm (of_decide_eq_true different)
    have closed : Step.closed ⟨node, child⟩ = true := by
      simp [Step.closed, isMember, leads, Option.some_inj.not.mp different]
    exact (regular.child named).callLines_of_closed List.mem_cons_self closed
  rw [regular.linesBelow_of_lead leads, elsewhere, List.append_nil]

/-- No calls are in the type of a conversion. -/
theorem linesBelow_of_type {type : Syntax.Tree.Child node}
    (isCast : node.kind = "type_cast_expression") (leads : node.namedSlots.head? = some type) :
    linesBelow above node =
      ((operandSlots node).filter fun child => some child ≠ some type).flatMap
        (linesIn above) := by
  have closed : Step.closed ⟨node, type⟩ = true := by
    simp [Step.closed, isCast, leads]
  have named : type ∈ node.namedSlots := List.mem_of_mem_head? leads
  have noCalls : linesIn above type = [] :=
    (regular.child named).callLines_of_closed List.mem_cons_self closed
  rw [regular.linesBelow_of_lead leads, noCalls, List.nil_append]

end RegularFrom

end ContractCalls.Solidity.FromTree
