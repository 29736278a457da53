import ContractCalls.Proofs.Bodies.Occurrences
import Mathlib.Data.List.Forall2

/-!
Contract: the calls of an expression, against the calls of its syntax tree.

Owns the law that a node inside of a call is read, and that the calls of the
result are on the lines of the calls in the node, in the same order.  There is
one statement for each form of expressions; an induction on the size of the node
joins them, since an argument may stand for its only child.
-/

set_option autoImplicit false

namespace ContractCalls.Solidity.FromTree

open ContractCalls.Syntax

/-! ### Readings of lists -/

theorem exists_forall₂_mapM {α β ε : Type} {read : α → Except ε β} {related : α → β → Prop}
    {each : List α} (reads : ∀ one ∈ each, ∃ result, read one = .ok result ∧ related one result) :
    ∃ results, each.mapM read = .ok results ∧ List.Forall₂ related each results := by
  induction each with
  | nil => exact ⟨[], rfl, .nil⟩
  | cons first later inductionHypothesis =>
      obtain ⟨result, isRead, isRelated⟩ := reads first List.mem_cons_self
      obtain ⟨results, areRead, areRelated⟩ := inductionHypothesis fun one isLater =>
        reads one (List.mem_cons_of_mem first isLater)
      refine ⟨result :: results, ?_, .cons isRelated areRelated⟩
      rw [List.mapM_cons, isRead, areRead]
      rfl

theorem flatMap_eq_of_forall₂ {α β γ : Type} {found : β → List γ} {expected : α → List γ}
    {each : List α} {results : List β}
    (related : List.Forall₂ (fun one result => found result = expected one) each results) :
    results.flatMap found = each.flatMap expected := by
  induction related with
  | nil => rfl
  | cons same _ inductionHypothesis =>
      rw [List.flatMap_cons, List.flatMap_cons, same, inductionHypothesis]

theorem exists_flatMap_mapM {α β γ ε : Type} {read : α → Except ε β} {found : β → List γ}
    {expected : α → List γ} {each : List α}
    (reads : ∀ one ∈ each, ∃ result, read one = .ok result ∧ found result = expected one) :
    ∃ results, each.mapM read = .ok results ∧ results.flatMap found = each.flatMap expected := by
  obtain ⟨results, areRead, related⟩ := exists_forall₂_mapM reads
  exact ⟨results, areRead, flatMap_eq_of_forall₂ related⟩

/-! ### Children in roles -/

theorem exists_lead {node : Node} {role : String} (leads : LeadsWith node role) :
    ∃ lead, node.namedSlots.head? = some lead ∧ roleOrFirst node role = .ok lead := by
  obtain ⟨nonempty, inRole⟩ := leads
  obtain ⟨lead, isFirst⟩ := Option.isSome_iff_exists.mp (List.isSome_head?.mpr nonempty)
  refine ⟨lead, isFirst, ?_⟩
  unfold roleOrFirst
  cases found : node.fieldSlot? role with
  | none => rw [isFirst]; rfl
  | some child =>
      obtain rfl : lead = child := Option.some.inj (isFirst.symm.trans (inRole child found))
      rfl

theorem exists_roleOrLast {node : Node} (nonempty : node.namedSlots ≠ []) (role : String) :
    ∃ child, roleOrLast node role = .ok child := by
  obtain ⟨last, isLast⟩ := Option.isSome_iff_exists.mp (List.getLast?_isSome.mpr nonempty)
  unfold roleOrLast
  rw [isLast]
  cases node.fieldSlot? role with
  | none => exact ⟨last, rfl⟩
  | some child => exact ⟨child, rfl⟩

/-! ### What it is to be read with all calls -/

/-- The node is read, and the calls of the result are on the lines of the calls
in it. -/
def Reads (above : List Step) (node : Node) : Prop :=
  ∃ read, expression node = .ok read ∧
    read.callSites.map CallSite.line = callLines (occurrences above node)

/-- The same of the arguments of a call. -/
def ReadsArguments (above : List Step) (node : Node) (called : Option (Syntax.Tree.Child node)) :
    Prop :=
  ∃ read, arguments node called = .ok read ∧
    (Expression.callSitesOf read).map CallSite.line =
      ((operandSlots node).filter fun child => some child ≠ called).flatMap (linesIn above)

section Forms

variable {above : List Step} {node : Node}

theorem soleSlot?_of_transparent? {inner : Syntax.Tree.Child node}
    (standsFor : transparent? node = some inner) :
    (node.kind = "expression" ∨ node.kind = "parenthesized_expression") ∧
      node.soleSlot? = some inner := by
  simpa [transparent?] using standsFor

theorem soleSlot?_of_argumentValue? {value : Syntax.Tree.Child node}
    (standsFor : argumentValue? node = some value) :
    node.kind = "call_argument" ∧ node.soleSlot? = some value := by
  simpa [argumentValue?] using standsFor

theorem reads_of_transparent {inner : Syntax.Tree.Child node}
    (standsFor : transparent? node = some inner)
    (reads : Reads (⟨node, inner⟩ :: above) inner.node) : Reads above node := by
  obtain ⟨read, isRead, lines⟩ := reads
  obtain ⟨wrapper, sole⟩ := soleSlot?_of_transparent? standsFor
  have notCall : Occurrence.isCall { node, above } = false := by
    rcases wrapper with kind | kind <;> simp [Occurrence.isCall, callKinds, kind]
  refine ⟨read, ?_, lines.trans (callLines_of_sole sole notCall).symm⟩
  rw [expression, standsFor]
  exact isRead

/-- A form without parts that are looked into. -/
theorem reads_of_atom {read : Expression} (isRead : expression node = .ok read)
    (noSites : read.callSites = []) (notCall : Occurrence.isCall { node, above } = false)
    (noLines : linesBelow above node = []) : Reads above node := by
  refine ⟨read, isRead, ?_⟩
  rw [noSites, callLines_of_not_call notCall, noLines]
  rfl

/-! ### Parts that are smaller -/

section Parts

variable (regular : RegularFrom above node)
  (inCallBelow : ∀ child, pathInCall (⟨node, child⟩ :: above) = true)
  (smaller : ∀ (part : Node) (path : List Step), sizeOf part < sizeOf node →
    RegularFrom path part → pathInCall path = true → Reads path part)

include regular inCallBelow smaller

theorem reads_child {child : Syntax.Tree.Child node} (named : child ∈ node.namedSlots) :
    Reads (⟨node, child⟩ :: above) child.node :=
  smaller child.node _ child.sizeOf_node_lt (regular.child named) (inCallBelow child)

theorem reads_argumentValue {child : Syntax.Tree.Child node} (named : child ∈ node.namedSlots)
    {value : Syntax.Tree.Child child.node} (standsFor : argumentValue? child.node = some value) :
    Reads (⟨child.node, value⟩ :: ⟨node, child⟩ :: above) value.node := by
  have isNamed : value ∈ child.node.namedSlots := by
    rw [Syntax.Tree.namedSlots_of_soleSlot? (soleSlot?_of_argumentValue? standsFor).2]
    exact List.mem_singleton_self value
  have inCall : pathInCall (⟨child.node, value⟩ :: ⟨node, child⟩ :: above) = true := by
    rw [pathInCall_cons, inCallBelow, Bool.or_true]
  have isSmaller : sizeOf value.node < sizeOf node :=
    Nat.lt_trans value.sizeOf_node_lt child.sizeOf_node_lt
  exact smaller value.node _ isSmaller ((regular.child named).child isNamed) inCall

theorem readsArguments (called : Option (Syntax.Tree.Child node)) :
    ReadsArguments above node called := by
  unfold ReadsArguments
  rw [arguments]
  simp only [Expression.callSitesOf_eq_flatMap, List.map_flatMap]
  refine exists_flatMap_mapM ?_
  intro child isArgument
  have named := (List.mem_filter.mp (List.mem_filter.mp isArgument).1).1
  cases standsFor : argumentValue? child.node with
  | none => exact reads_child regular inCallBelow smaller named
  | some value =>
      obtain ⟨kind, sole⟩ := soleSlot?_of_argumentValue? standsFor
      obtain ⟨read, isRead, lines⟩ :=
        reads_argumentValue regular inCallBelow smaller named standsFor
      have notCall : Occurrence.isCall ⟨child.node, ⟨node, child⟩ :: above⟩ = false := by
        simp [Occurrence.isCall, callKinds, kind]
      exact ⟨read, isRead, lines.trans (callLines_of_sole sole notCall).symm⟩

end Parts

/-! ### The forms of expressions -/

/-- A call of the first named child has the calls of that child and those of the
arguments. -/
theorem callLines_of_lead (regular : RegularFrom above node)
    (isCall : Occurrence.isCall { node, above } = true) {lead : Syntax.Tree.Child node}
    (leads : node.namedSlots.head? = some lead) {called : Expression} {given : List Expression}
    (calledLines : called.callSites.map CallSite.line = linesIn above lead)
    (givenLines : (Expression.callSitesOf given).map CallSite.line =
      ((operandSlots node).filter fun child => some child ≠ some lead).flatMap (linesIn above)) :
    (Expression.call called given (lineOf node)).callSites.map CallSite.line =
      callLines (occurrences above node) := by
  rw [callLines_of_call isCall, regular.linesBelow_of_lead leads, ← calledLines, ← givenLines,
    Expression.callSites, List.map_cons, List.map_append]

section Children

variable (children : ∀ child ∈ node.namedSlots, Reads (⟨node, child⟩ :: above) child.node)

include children

variable (regular : RegularFrom above node)

include regular

theorem reads_call (isCall : node.kind = "call_expression")
    (passed : ∀ called, ReadsArguments above node called) : Reads above node := by
  obtain ⟨callee, leads, isCallee⟩ := exists_lead (regular.self.call isCall)
  obtain ⟨called, calleeRead, calleeLines⟩ := children callee (List.mem_of_mem_head? leads)
  obtain ⟨given, argumentsRead, argumentLines⟩ := passed (some callee)
  refine ⟨.call called given (lineOf node), ?_, ?_⟩
  · rw [expression]
    simp [transparent?, isCall, isCallee, calleeRead, argumentsRead, bind, Except.bind, pure,
      Except.pure]
  · exact callLines_of_lead regular (by simp [Occurrence.isCall, callKinds, isCall]) leads
      calleeLines argumentLines

theorem reads_member (isMember : node.kind = "member_expression") : Reads above node := by
  obtain ⟨object, leads, isObject⟩ := exists_lead (regular.self.member isMember)
  obtain ⟨property, isProperty⟩ := exists_roleOrLast (regular.self.member isMember).1 "property"
  obtain ⟨read, isRead, lines⟩ := children object (List.mem_of_mem_head? leads)
  refine ⟨.member read (textOf property.node), ?_, ?_⟩
  · rw [expression]
    simp [transparent?, isMember, isObject, isProperty, isRead, bind, Except.bind, pure,
      Except.pure]
  · rw [callLines_of_not_call (by simp [Occurrence.isCall, callKinds, isMember]),
      regular.linesBelow_of_object isMember leads]
    exact lines

/-- A form that is not looked into is read with all its operands. -/
theorem reads_other
    (form : expression node = do
      return .other (textOf node)
        (← (operandSlots node).mapM fun operand => expression operand.node))
    (notCall : Occurrence.isCall { node, above } = false) : Reads above node := by
  have reads : ∀ operand ∈ operandSlots node, Reads (⟨node, operand⟩ :: above) operand.node :=
    fun operand isOperand => children operand (List.mem_filter.mp isOperand).1
  obtain ⟨operands, areRead, lines⟩ := exists_flatMap_mapM reads
  refine ⟨.other (textOf node) operands, ?_, ?_⟩
  · rw [form, areRead]
    rfl
  · rw [callLines_of_not_call notCall, ← regular.flatMap_operandSlots, Expression.callSites,
      Expression.callSitesOf_eq_flatMap, List.map_flatMap]
    exact lines

/-- The forms that are neither calls nor member accesses. -/
theorem reads_plainForm (standsAlone : transparent? node = none)
    (notCall : node.kind ≠ "call_expression") (notCast : node.kind ≠ "type_cast_expression")
    (notPayable : node.kind ≠ "payable_conversion_expression")
    (notMember : node.kind ≠ "member_expression") (notEmission : node.kind ≠ "emit_statement") :
    Reads above node := by
  have countsNot : Occurrence.isCall { node, above } = false := by
    simp [Occurrence.isCall, callKinds, notCall, notCast, notPayable, notEmission]
  by_cases isType : node.kind = "primitive_type"
  · have isRead : expression node = .ok (.elementaryType (elementaryName node)) := by
      rw [expression]
      simp [standsAlone, isType]
    exact reads_of_atom isRead rfl countsNot
      (regular.linesBelow_of_leaf_or_kind (by decide) (.inl isType))
  by_cases isNumber : isNumberNode node = true
  · have isRead : expression node = .ok (.number (textOf node)) := by
      rw [expression]
      simp [standsAlone, notCall, notCast, notPayable, notMember, isType, isNumber]
    have isLeaf : node.kind = "number_literal" ∨ node.namedSlots.isEmpty = true := by
      simp only [isNumberNode, Bool.or_eq_true, beq_iff_eq, Bool.and_eq_true] at isNumber
      exact isNumber.imp_right And.left
    exact reads_of_atom isRead rfl countsNot
      (regular.linesBelow_of_leaf_or_kind (by decide) isLeaf)
  by_cases isIdentifier : isIdentifierNode node = true
  · have isRead : expression node = .ok (.identifier (textOf node)) := by
      rw [expression]
      simp [standsAlone, notCall, notCast, notPayable, notMember, isType, isNumber, isIdentifier]
    have isLeaf : node.kind = "identifier" ∨ node.namedSlots.isEmpty = true := by
      simp only [isIdentifierNode, Bool.or_eq_true, beq_iff_eq, Bool.and_eq_true] at isIdentifier
      exact isIdentifier.imp_right And.left
    exact reads_of_atom isRead rfl countsNot
      (regular.linesBelow_of_leaf_or_kind (by decide) isLeaf)
  refine reads_other children regular ?_ countsNot
  rw [expression]
  simp [standsAlone, notCall, notCast, notPayable, notMember, isType, isNumber, isIdentifier]

end Children

section Arguments

variable (regular : RegularFrom above node) (passed : ∀ called, ReadsArguments above node called)

include regular passed

theorem reads_cast (isCast : node.kind = "type_cast_expression") : Reads above node := by
  obtain ⟨type, leads⟩ :=
    Option.isSome_iff_exists.mp (List.isSome_head?.mpr (regular.self.cast isCast))
  obtain ⟨given, argumentsRead, argumentLines⟩ := passed (some type)
  refine ⟨.call (.elementaryType (elementaryName type.node)) given (lineOf node), ?_, ?_⟩
  · rw [expression]
    simp [transparent?, isCast, leads, argumentsRead, bind, Except.bind, pure, Except.pure]
  · rw [callLines_of_call (by simp [Occurrence.isCall, callKinds, isCast]),
      regular.linesBelow_of_type isCast leads, ← argumentLines]
    simp [Expression.callSites]

theorem reads_payable (isPayable : node.kind = "payable_conversion_expression")
    (inCall : pathInCall above = true) : Reads above node := by
  obtain ⟨given, argumentsRead, argumentLines⟩ := passed none
  have allOperands : ((operandSlots node).filter fun child => some child ≠ none) =
      operandSlots node := by
    simp
  rw [allOperands, regular.flatMap_operandSlots] at argumentLines
  refine ⟨.call (.elementaryType "address payable") given (lineOf node), ?_, ?_⟩
  · rw [expression]
    simp [transparent?, isPayable, argumentsRead, bind, Except.bind, pure, Except.pure]
  · rw [callLines_of_call (by simp [Occurrence.isCall, isPayable, inCall]), ← argumentLines]
    simp [Expression.callSites]

end Arguments

end Forms

/-! ### All expressions -/

/-- Calls and conversions, and all nodes inside of calls, are read with their
calls. -/
theorem reads_expression (node : Node) (above : List Step) (regular : RegularFrom above node)
    (inside : node.kind = "call_expression" ∨ node.kind = "type_cast_expression" ∨
      pathInCall above = true) : Reads above node := by
  have inCallBelow : ∀ child, pathInCall (⟨node, child⟩ :: above) = true := by
    intro child
    rw [pathInCall_cons]
    rcases inside with kind | kind | inCall
    · simp [callKinds, kind]
    · simp [callKinds, kind]
    · rw [inCall, Bool.or_true]
  have smaller : ∀ (part : Node) (path : List Step), sizeOf part < sizeOf node →
      RegularFrom path part → pathInCall path = true → Reads path part := by
    intro part path isSmaller partRegular inCall
    exact reads_expression part path partRegular (.inr (.inr inCall))
  have children : ∀ child ∈ node.namedSlots, Reads (⟨node, child⟩ :: above) child.node :=
    fun _ named => reads_child regular inCallBelow smaller named
  have passed := readsArguments regular inCallBelow smaller
  cases standsFor : transparent? node with
  | some inner =>
      have isNamed : inner ∈ node.namedSlots := by
        rw [Syntax.Tree.namedSlots_of_soleSlot? (soleSlot?_of_transparent? standsFor).2]
        exact List.mem_singleton_self inner
      exact reads_of_transparent standsFor (children inner isNamed)
  | none =>
      by_cases isCall : node.kind = "call_expression"
      · exact reads_call children regular isCall passed
      by_cases isCast : node.kind = "type_cast_expression"
      · exact reads_cast regular passed isCast
      -- Any other node is inside of a call, where no event is emitted.
      have inCall : pathInCall above = true := by simpa [isCall, isCast] using inside
      have notEmission : node.kind ≠ "emit_statement" := by
        intro isEmission
        have outside := regular.self.apart isEmission
        rw [inCall] at outside
        contradiction
      by_cases isPayable : node.kind = "payable_conversion_expression"
      · exact reads_payable regular passed isPayable inCall
      by_cases isMember : node.kind = "member_expression"
      · exact reads_member children regular isMember
      exact reads_plainForm children regular standsFor isCall isCast isPayable isMember notEmission
termination_by sizeOf node
decreasing_by exact isSmaller

end ContractCalls.Solidity.FromTree
