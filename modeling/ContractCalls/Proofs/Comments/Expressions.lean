import ContractCalls.Proofs.Comments.Types
import ContractCalls.Proofs.Rewriting

/-!
Contract: expressions read from trees with overlooked comments.

Owns:
- expressions without lines and without the texts of forms that are not looked into,
  which are all that comments can change;
- the reading of each form up to these;
- the law that an expression is read the same, as a whole and as an argument.
-/

set_option autoImplicit false

namespace ContractCalls.Solidity

namespace Expression

mutual

/-- An expression without lines and without the texts of other forms. -/
def bare : Expression → Expression
  | identifier name => identifier name
  | number literal => number literal
  | elementaryType name => elementaryType name
  | member object name => member object.bare name
  | call callee arguments _ => call callee.bare (bares arguments) 0
  | other _ operands => other "" (bares operands)

def bares : List Expression → List Expression
  | [] => []
  | expression :: rest => expression.bare :: bares rest

end

theorem bares_eq_map (expressions : List Expression) :
    bares expressions = expressions.map bare := by
  induction expressions with
  | nil => rfl
  | cons expression rest inductionHypothesis => simp [bares, inductionHypothesis]

end Expression

/-- Forget lines and the texts of other forms, everywhere in a source. -/
def Rewriting.bare : Rewriting := { expression := Expression.bare }

namespace FromTree

open ContractCalls.Syntax

theorem map_mapM {α β γ ε : Type} (change : β → γ) (read : α → Except ε β) (list : List α) :
    (list.mapM read).map (List.map change) = list.mapM fun each => (read each).map change := by
  induction list with
  | nil => rfl
  | cons first rest inductionHypothesis =>
      rw [List.mapM_cons, List.mapM_cons, ← inductionHypothesis]
      cases read first with
      | error failure => rfl
      | ok value => cases rest.mapM read <;> rfl

theorem mapM_congr {α β ε : Type} {left right : α → Except ε β} {list : List α}
    (same : ∀ each ∈ list, left each = right each) : list.mapM left = list.mapM right := by
  induction list with
  | nil => rfl
  | cons first rest inductionHypothesis =>
      rw [List.mapM_cons, List.mapM_cons, same first List.mem_cons_self,
        inductionHypothesis fun each member => same each (List.mem_cons_of_mem _ member)]

/-! ### Each form -/

def readBare (node : Node) : Except Defect Expression :=
  (expression node).map Expression.bare

/-- An argument is read as the expression that it stands for. -/
def argumentBare (node : Node) : Except Defect Expression :=
  readBare ((argumentValue? node).elim node fun value => value.node)

def argumentsBare (node : Node) (called : Option (Syntax.Tree.Child node)) :
    Except Defect (List Expression) :=
  ((operandSlots node).filter fun child => some child ≠ called).mapM fun child =>
    argumentBare child.node

theorem map_arguments (node : Node) (called : Option (Syntax.Tree.Child node)) :
    (arguments node called).map Expression.bares = argumentsBare node called := by
  rw [arguments, funext Expression.bares_eq_map, map_mapM]
  refine mapM_congr fun child _ => ?_
  unfold argumentBare readBare
  cases argumentValue? child.node <;> rfl

/-- A call of the child in a role, or else of the first. -/
def callBare (node : Node) (role : String) : Except Defect Expression := do
  let callee ← roleOrFirst node role
  let called ← readBare callee.node
  return .call called (← argumentsBare node (some callee)) 0

/-- The member that the last child names, of the first. -/
def memberBare (node : Node) : Except Defect Expression := do
  let object ← roleOrFirst node "object"
  let member ← roleOrLast node "property"
  return .member (← readBare object.node) (textOf member.node)

section Forms

variable {node : Node}

theorem readBare_of_transparent {inner : Syntax.Tree.Child node}
    (looksThrough : transparent? node = some inner) : readBare node = readBare inner.node := by
  unfold readBare
  rw [expression, looksThrough]

theorem transparent?_of_kind {kind : String} (isKind : node.kind = kind)
    (whole : kind ≠ "expression") (bracketed : kind ≠ "parenthesized_expression") :
    transparent? node = none := by
  simp [transparent?, isKind, whole, bracketed]

theorem map_call (node : Node) (role : String) (line : Nat) :
    Except.map Expression.bare (do
      let callee ← roleOrFirst node role
      let called ← expression callee.node
      return .call called (← arguments node (some callee)) line) = callBare node role := by
  unfold callBare
  cases roleOrFirst node role with
  | error failure => rfl
  | ok callee =>
      have given := map_arguments node (some callee)
      simp only [bind, Except.bind, readBare]
      cases expression callee.node with
      | error failure => rfl
      | ok called =>
          rw [← given]
          cases arguments node (some callee) <;> rfl

theorem readBare_call (isCall : node.kind = "call_expression") :
    readBare node = callBare node "function" := by
  unfold readBare
  rw [expression, transparent?_of_kind isCall (by decide) (by decide)]
  simp only [isCall, beq_self_eq_true, if_true]
  exact map_call node "function" (lineOf node)

theorem readBare_cast (isCast : node.kind = "type_cast_expression") :
    readBare node = node.namedSlots.head?.elim (.error .noNamedChild) fun type =>
      (argumentsBare node (some type)).map fun given =>
        .call (.elementaryType (elementaryName type.node)) given 0 := by
  unfold readBare
  rw [expression, transparent?_of_kind isCast (by decide) (by decide)]
  simp only [isCast, String.reduceBEq, Bool.false_eq_true, if_false, if_true]
  cases node.namedSlots.head? with
  | none => rfl
  | some type =>
      rw [Option.elim_some, ← map_arguments node (some type)]
      dsimp only
      cases arguments node (some type) <;> rfl

theorem readBare_payable (isPayable : node.kind = "payable_conversion_expression") :
    readBare node = (argumentsBare node none).map fun given =>
      .call (.elementaryType "address payable") given 0 := by
  unfold readBare
  rw [expression, transparent?_of_kind isPayable (by decide) (by decide), ← map_arguments]
  simp only [isPayable, String.reduceBEq, Bool.false_eq_true, if_false, if_true]
  cases arguments node none <;> rfl

theorem readBare_member (isMember : node.kind = "member_expression") :
    readBare node = memberBare node := by
  unfold memberBare readBare
  rw [expression, transparent?_of_kind isMember (by decide) (by decide)]
  simp only [isMember, String.reduceBEq, Bool.false_eq_true, if_false, if_true, bind, Except.bind]
  cases roleOrFirst node "object" with
  | error failure => rfl
  | ok object =>
      cases roleOrLast node "property" with
      | error failure => rfl
      | ok member =>
          dsimp only
          cases expression object.node <;> rfl

/-- The forms that are known by more than their text. -/
def structuredKinds : List String :=
  ["call_expression", "type_cast_expression", "payable_conversion_expression",
    "member_expression"]

theorem readBare_rest (standsAlone : transparent? node = none)
    (rest : node.kind ∉ structuredKinds) :
    readBare node =
      if node.kind == "primitive_type" then .ok (.elementaryType (elementaryName node))
      else if isNumberNode node then .ok (.number (textOf node))
      else if isIdentifierNode node then .ok (.identifier (textOf node))
      else ((operandSlots node).mapM fun operand => readBare operand.node).map (.other "") := by
  simp only [structuredKinds, List.mem_cons, List.not_mem_nil, or_false, not_or] at rest
  obtain ⟨notCall, notCast, notPayable, notMember⟩ := rest
  unfold readBare
  rw [expression, standsAlone]
  simp only [notCall, notCast, notPayable, notMember, beq_iff_eq, if_false]
  split
  · rfl
  · split
    · rfl
    · split
      · rfl
      · rw [← map_mapM, ← funext Expression.bares_eq_map]
        simp only [bind, Except.bind]
        cases (operandSlots node).mapM fun operand => expression operand.node <;> rfl

end Forms

theorem firstSlot?_of_roleOrFirst {node : Node} {role : String} {child : Syntax.Tree.Child node}
    (found : roleOrFirst node role = .ok child) : firstSlot? node role = some child := by
  unfold roleOrFirst at found
  unfold firstSlot?
  split at found
  next only isFirst => rw [isFirst, Except.ok.inj found]
  next => cases found

theorem lastSlot?_of_roleOrLast {node : Node} {role : String} {child : Syntax.Tree.Child node}
    (found : roleOrLast node role = .ok child) : lastSlot? node role = some child := by
  unfold roleOrLast at found
  unfold lastSlot?
  split at found
  next only isLast => rw [isLast, Except.ok.inj found]
  next => cases found

/-! ### Each form with comments -/

section Commented

variable {plain commented : Node} (insertion : plain.Insertion commented)

theorem operandSlots_eq : operandSlots commented = (operandSlots plain).map insertion.lift :=
  insertion.filter_namedSlots (q := fun kind => kind != "comment") (by decide)

theorem roleOrFirst_eq {role : String}
    (overlooked : ∀ child, insertion.IsNew child →
      overlooksFirst plain (insertion.ahead child) role = true) :
    roleOrFirst commented role = (roleOrFirst plain role).map insertion.lift := by
  have sameFirst := firstSlot?_eq insertion overlooked
  unfold firstSlot? at sameFirst
  unfold roleOrFirst
  rw [sameFirst]
  cases (plain.fieldSlot? role).or plain.namedSlots.head? <;> rfl

theorem roleOrLast_eq {role : String}
    (overlooked : ∀ child, insertion.IsNew child →
      overlooksLast plain (insertion.ahead child) role = true) :
    roleOrLast commented role = (roleOrLast plain role).map insertion.lift := by
  have sameLast := lastSlot?_eq insertion overlooked
  unfold lastSlot? at sameLast
  unfold roleOrLast
  rw [sameLast]
  cases (plain.fieldSlot? role).or plain.namedSlots.getLast? <;> rfl

theorem argumentsBare_eq
    (arguments : ∀ old, argumentBare (insertion.lift old).node = argumentBare old.node)
    (called : Option (Syntax.Tree.Child plain)) :
    argumentsBare commented (called.map insertion.lift) = argumentsBare plain called := by
  unfold argumentsBare
  rw [operandSlots_eq insertion, List.filter_map, List.mapM_map]
  have sameOthers : ((fun child => decide (some child ≠ called.map insertion.lift)) ∘
      insertion.lift) = fun old => decide (some old ≠ called) := by
    funext old
    show decide ((some old).map insertion.lift ≠ called.map insertion.lift) = _
    exact decide_eq_decide.mpr (Option.map_injective insertion.lift_injective).ne_iff
  rw [sameOthers]
  exact mapM_congr fun old _ => arguments old

theorem callBare_eq {role : String}
    (overlooked : ∀ child, insertion.IsNew child →
      overlooksFirst plain (insertion.ahead child) role = true)
    (parts : ∀ old, readBare (insertion.lift old).node = readBare old.node)
    (arguments : ∀ old, argumentBare (insertion.lift old).node = argumentBare old.node) :
    callBare commented role = callBare plain role := by
  unfold callBare
  rw [roleOrFirst_eq insertion overlooked]
  cases roleOrFirst plain role with
  | error failure => rfl
  | ok callee =>
      have given := argumentsBare_eq insertion arguments (some callee)
      simp only [Except.map, bind, Except.bind, parts, ← given, Option.map_some]

theorem memberBare_eq
    (overlooked : ∀ child, insertion.IsNew child →
      overlooksFirst plain (insertion.ahead child) "object" = true ∧
        overlooksLast plain (insertion.ahead child) "property" = true)
    (parts : ∀ old, readBare (insertion.lift old).node = readBare old.node)
    (properties : ∀ old, lastSlot? plain "property" = some old →
      textOf (insertion.lift old).node = textOf old.node) :
    memberBare commented = memberBare plain := by
  unfold memberBare
  rw [roleOrFirst_eq insertion fun child isNew => (overlooked child isNew).1,
    roleOrLast_eq insertion fun child isNew => (overlooked child isNew).2]
  cases roleOrFirst plain "object" with
  | error failure => rfl
  | ok object =>
      cases found : roleOrLast plain "property" with
      | error failure => rfl
      | ok member =>
          have sameText := properties member (lastSlot?_of_roleOrLast found)
          simp only [Except.map, bind, Except.bind, parts, sameText]

theorem readBare_cast_eq (isCast : plain.kind = "type_cast_expression")
    (isCastToo : commented.kind = "type_cast_expression")
    (behind : ∀ child, insertion.IsNew child →
      plain.namedSlots.any (insertion.ahead child) = true)
    (types : ∀ old, plain.namedSlots.head? = some old →
      textOf (insertion.lift old).node = textOf old.node)
    (arguments : ∀ old, argumentBare (insertion.lift old).node = argumentBare old.node) :
    readBare commented = readBare plain := by
  rw [readBare_cast isCast, readBare_cast isCastToo, insertion.head?_namedSlots behind]
  cases isFirst : plain.namedSlots.head? with
  | none => rfl
  | some type =>
      have given := argumentsBare_eq insertion arguments (some type)
      simp only [Option.map_some, Option.elim_some, elementaryName, types type isFirst, ← given]

theorem isEmpty_namedSlots_eq
    (nonempty : ∀ child, insertion.IsNew child → plain.namedSlots.isEmpty = false) :
    commented.namedSlots.isEmpty = plain.namedSlots.isEmpty := by
  by_cases changed : ∃ child, insertion.IsNew child
  · obtain ⟨child, isNew⟩ := changed
    have longer := insertion.length_namedSlots_le
    have plainNonempty := nonempty child isNew
    rw [plainNonempty]
    rw [List.isEmpty_eq_false_iff, ← List.length_pos_iff] at plainNonempty ⊢
    omega
  · rw [insertion.namedSlots_of_unchanged (not_exists.mp changed), List.isEmpty_map]

/-- A form that is known by its text, or else by its operands. -/
theorem readBare_rest_eq (kind : commented.kind = plain.kind)
    (standsAlone : transparent? plain = none) (standsAloneToo : transparent? commented = none)
    (rest : plain.kind ∉ structuredKinds)
    (nonempty : ∀ child, insertion.IsNew child → plain.namedSlots.isEmpty = false)
    (text : Reading.expression.byText plain = true → textOf commented = textOf plain)
    (parts : ∀ old, readBare (insertion.lift old).node = readBare old.node) :
    readBare commented = readBare plain := by
  have sameOperands : ((operandSlots commented).mapM fun operand => readBare operand.node) =
      (operandSlots plain).mapM fun operand => readBare operand.node := by
    rw [operandSlots_eq insertion, List.mapM_map]
    exact mapM_congr fun old _ => parts old
  rw [readBare_rest standsAlone rest, readBare_rest standsAloneToo (kind ▸ rest), sameOperands]
  unfold isNumberNode isIdentifierNode elementaryName
  rw [kind, isEmpty_namedSlots_eq insertion nonempty]
  cases known : Reading.expression.byText plain with
  | true => rw [text known]
  | false =>
      simp only [Reading.byText, Bool.or_eq_false_iff, List.contains_eq_mem,
        decide_eq_false_iff_not, List.mem_cons, List.not_mem_nil, or_false, not_or] at known
      obtain ⟨hasNamed, notType, notNumber, notIdentifier⟩ := known
      simp [hasNamed, notType, notNumber, notIdentifier]

theorem wrapped_eq (kind : commented.kind = plain.kind)
    (overlooked : ∀ child, insertion.IsNew child →
      overlooksInExpression plain (insertion.ahead child) = true) :
    transparent? commented = (transparent? plain).map insertion.lift ∧
      argumentValue? commented = (argumentValue? plain).map insertion.lift := by
  have sameSole : isWrapper plain = true →
      commented.soleSlot? = plain.soleSlot?.map insertion.lift := by
    intro wrapper
    refine insertion.soleSlot?_eq fun child isNew => ?_
    simpa [overlooksInExpression, wrapper] using overlooked child isNew
  unfold transparent? argumentValue?
  rw [kind]
  constructor
  · split
    next looksThrough =>
      rw [Bool.or_eq_true, beq_iff_eq, beq_iff_eq] at looksThrough
      rcases looksThrough with isKind | isKind <;> exact sameSole (by simp [isWrapper, isKind])
    next => rfl
  · split
    next isArgument =>
      rw [beq_iff_eq] at isArgument
      exact sameSole (by simp [isWrapper, isArgument])
    next => rfl

theorem nonempty_of_overlooksInExpression {ahead : Syntax.Tree.Child plain → Bool}
    (rest : plain.kind ∉ structuredKinds) (overlooked : overlooksInExpression plain ahead = true) :
    plain.namedSlots.isEmpty = false := by
  simp only [structuredKinds, List.mem_cons, List.not_mem_nil, or_false, not_or] at rest
  obtain ⟨notCall, notCast, notPayable, notMember⟩ := rest
  unfold overlooksInExpression at overlooked
  split at overlooked
  · have several := of_decide_eq_true overlooked
    rw [List.isEmpty_eq_false_iff, ← List.length_pos_iff]
    omega
  · simpa [notCall, notCast, notPayable, notMember] using overlooked

theorem readBare_structured_eq (kind : commented.kind = plain.kind)
    (structured : plain.kind ∈ structuredKinds)
    (overlooked : ∀ child, insertion.IsNew child →
      overlooksInExpression plain (insertion.ahead child) = true)
    (parts : ∀ old, readBare (insertion.lift old).node = readBare old.node)
    (arguments : ∀ old, argumentBare (insertion.lift old).node = argumentBare old.node)
    (texts : ∀ old, Reading.ofChild plain old .expression .text = true →
      textOf (insertion.lift old).node = textOf old.node) :
    readBare commented = readBare plain := by
  simp only [structuredKinds, List.mem_cons, List.not_mem_nil, or_false] at structured
  rcases structured with isCall | isCast | isPayable | isMember
  · rw [readBare_call isCall, readBare_call (kind.trans isCall)]
    refine callBare_eq insertion (fun child isNew => ?_) parts arguments
    simpa [overlooksInExpression, isWrapper, isCall] using overlooked child isNew
  · refine readBare_cast_eq insertion isCast (kind.trans isCast) (fun child isNew => ?_)
      (fun type isFirst => texts type (by simp [Reading.ofChild, isCast, isFirst])) arguments
    simpa [overlooksInExpression, isWrapper, isCast] using overlooked child isNew
  · rw [readBare_payable isPayable, readBare_payable (kind.trans isPayable),
      ← argumentsBare_eq insertion arguments none, Option.map_none]
  · rw [readBare_member isMember, readBare_member (kind.trans isMember)]
    refine memberBare_eq insertion (fun child isNew => ?_) parts fun old isLast =>
      texts old (by simp [Reading.ofChild, isMember, isLast])
    simpa [overlooksInExpression, isWrapper, isMember] using overlooked child isNew

theorem readBare_eq_of_parts (kind : commented.kind = plain.kind)
    (overlooked : ∀ child, insertion.IsNew child →
      overlooksInExpression plain (insertion.ahead child) = true)
    (parts : ∀ old, readBare (insertion.lift old).node = readBare old.node)
    (arguments : ∀ old, argumentBare (insertion.lift old).node = argumentBare old.node)
    (texts : ∀ old, Reading.ofChild plain old .expression .text = true →
      textOf (insertion.lift old).node = textOf old.node)
    (text : Reading.expression.byText plain = true → textOf commented = textOf plain) :
    readBare commented = readBare plain := by
  obtain ⟨sameInner, -⟩ := wrapped_eq insertion kind overlooked
  cases standsAlone : transparent? plain with
  | some inner =>
      rw [readBare_of_transparent standsAlone,
        readBare_of_transparent (sameInner.trans (congrArg _ standsAlone))]
      exact parts inner
  | none =>
      by_cases structured : plain.kind ∈ structuredKinds
      · exact readBare_structured_eq insertion kind structured overlooked parts arguments texts
      · have nonempty := fun child isNew =>
          nonempty_of_overlooksInExpression structured (overlooked child isNew)
        exact readBare_rest_eq insertion kind standsAlone
          (sameInner.trans (congrArg _ standsAlone)) structured nonempty text parts

end Commented

/-! ### All forms -/

theorem readBare_of_commented {plain commented : Node}
    (alike : Commented .expression plain commented) :
    readBare commented = readBare plain ∧ argumentBare commented = argumentBare plain := by
  generalize isExpression : Reading.expression = reading at alike
  induction alike with
  | @intro reading plain commented insertion kind children text path overlooked inductionHypothesis =>
      subst isExpression
      have parts := fun old => (inductionHypothesis old .expression rfl rfl).1
      have whole := readBare_eq_of_parts insertion kind overlooked parts
        (fun old => (inductionHypothesis old .expression rfl rfl).2)
        (fun old isRead => (children old .text isRead).text_eq) text
      refine ⟨whole, ?_⟩
      unfold argumentBare
      rw [(wrapped_eq insertion kind overlooked).2]
      cases argumentValue? plain with
      | none => exact whole
      | some value => exact parts value

end FromTree

end ContractCalls.Solidity
