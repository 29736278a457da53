import ContractCalls.Proofs.Comments.Overlooked

/-!
Contract: types read from trees with overlooked comments.

Owns:
- the children that are found by role, kind or position, which are the old ones;
- the types of nodes and declarations, which are the same.
-/

set_option autoImplicit false

namespace ContractCalls.Solidity.FromTree

open ContractCalls.Syntax

/-! ### The children that are found -/

section Found

variable {plain commented : Node} (insertion : plain.Insertion commented)

theorem nameSlot?_eq : nameSlot? commented = (nameSlot? plain).map insertion.lift := by
  unfold nameSlot?
  rw [insertion.fieldSlot?_eq, insertion.kindSlot?_eq (by decide), Option.map_or]

theorem typeSlot?_eq : typeSlot? commented = (typeSlot? plain).map insertion.lift := by
  unfold typeSlot?
  rw [insertion.fieldSlot?_eq, insertion.kindSlot?_eq (by decide), Option.map_or]

theorem bodySlot?_eq (kind : String) (other : kind ≠ "comment") :
    bodySlot? commented kind = (bodySlot? plain kind).map insertion.lift := by
  unfold bodySlot?
  rw [insertion.fieldSlot?_eq, insertion.kindSlot?_eq other, Option.map_or]

theorem variableNameSlot?_eq :
    variableNameSlot? commented = (variableNameSlot? plain).map insertion.lift := by
  unfold variableNameSlot?
  rw [insertion.fieldSlot?_eq, insertion.filter_namedSlots (q := fun kind => kind == "identifier")
    (by decide), List.getLast?_map, Option.map_or]

theorem firstSlot?_eq {role : String}
    (overlooked : ∀ child, insertion.IsNew child →
      overlooksFirst plain (insertion.ahead child) role = true) :
    firstSlot? commented role = (firstSlot? plain role).map insertion.lift := by
  unfold firstSlot?
  rw [insertion.fieldSlot?_eq, Option.map_or]
  cases present : plain.fieldSlot? role with
  | some child => rfl
  | none =>
      rw [insertion.head?_namedSlots fun child isNew => ?_]
      simpa [overlooksFirst, present] using overlooked child isNew

theorem lastSlot?_eq {role : String}
    (overlooked : ∀ child, insertion.IsNew child →
      overlooksLast plain (insertion.ahead child) role = true) :
    lastSlot? commented role = (lastSlot? plain role).map insertion.lift := by
  unfold lastSlot?
  rw [insertion.fieldSlot?_eq, Option.map_or]
  cases present : plain.fieldSlot? role with
  | some child => rfl
  | none =>
      rw [insertion.getLast?_namedSlots fun child isNew => ?_]
      simpa [overlooksLast, present] using overlooked child isNew

theorem findKind?_eq {kind : String} (other : kind ≠ "comment") :
    (commented.slots.find? fun child => child.node.kind == kind) =
      (plain.slots.find? fun child => child.node.kind == kind).map insertion.lift := by
  refine insertion.find?_slots_node (q := fun node => node.kind == kind) ?_ ?_
  · intro left right same
    rw [same.kind]
  · intro node comment
    rw [comment.kind]
    simpa using other.symm

theorem anyKind_eq (insertion : plain.Insertion commented) {kind : String}
    (other : kind ≠ "comment") :
    (commented.children.any fun child => child.kind == kind) =
      plain.children.any fun child => child.kind == kind := by
  refine insertion.any_slots_node ?_ ?_
  · intro left right same
    rw [same.kind]
  · intro node comment
    rw [comment.kind]
    simpa using other.symm

end Found

/-! ### Mappings -/

/-- The index behind which the value of a mapping is looked for. -/
def arrowIndex (node : Node) : Nat :=
  ((arrowSlot? node).map fun arrow => arrow.slot.val).getD 0

theorem mappingValue?_eq_or (node : Node) :
    mappingValue? node = (node.fieldSlot? "value_type").or
      (node.slots.find? fun child =>
        decide (arrowIndex node < child.slot.val) && child.node.named) := by
  unfold mappingValue? arrowIndex arrowSlot?
  dsimp only
  rw [Syntax.Tree.findIdx?_children, Syntax.Tree.find?_slots_drop]
  rfl

section Types

variable {plain commented : Node} (insertion : plain.Insertion commented)

theorem leadingKind?_eq_map (node : Node) :
    leadingKind? node = node.slots.head?.map fun child => child.node.kind := by
  unfold leadingKind?
  rw [← Syntax.Tree.map_node_slots, List.head?_map, Option.map_map]
  rfl

theorem leadingKind?_eq
    (behind : ∀ child, insertion.IsNew child → plain.slots.any (insertion.ahead child) = true) :
    leadingKind? commented = leadingKind? plain := by
  rw [leadingKind?_eq_map, leadingKind?_eq_map, insertion.head?_slots behind, Option.map_map]
  congr 1
  funext old
  exact (insertion.lift_shape old).kind

theorem arrowIndex_lt_lift
    (behind : ∀ child, insertion.IsNew child → plain.slots.any (insertion.ahead child) = true)
    (old : Syntax.Tree.Child plain) :
    arrowIndex commented < (insertion.lift old).slot.val ↔ arrowIndex plain < old.slot.val := by
  have sameArrow : arrowSlot? commented = (arrowSlot? plain).map insertion.lift :=
    findKind?_eq insertion (by decide)
  unfold arrowIndex
  rw [sameArrow]
  cases arrowSlot? plain with
  | none => exact insertion.lift_pos_iff behind old
  | some arrow => exact insertion.lift_lt_lift

theorem mappingValue?_eq
    (behind : ∀ child, insertion.IsNew child → plain.slots.any (insertion.ahead child) = true)
    (overlooked : ∀ child, insertion.IsNew child →
      ((plain.fieldSlot? "value_type").isSome ||
        (arrowSlot? plain).any (fun arrow => !insertion.ahead child arrow) ||
        (mappingValue? plain).any (insertion.ahead child)) = true) :
    mappingValue? commented = (mappingValue? plain).map insertion.lift := by
  have sameField := insertion.fieldSlot?_eq "value_type"
  cases present : plain.fieldSlot? "value_type" with
  | some value =>
      rw [mappingValue?_eq_or, mappingValue?_eq_or, sameField, present]
      rfl
  | none =>
      have found := mappingValue?_eq_or plain
      rw [present, Option.none_or] at found
      rw [mappingValue?_eq_or, sameField, present, Option.map_none, Option.none_or, found]
      rw [insertion.find?_slots]
      · simp only [arrowIndex_lt_lift insertion behind, (insertion.lift_shape _).named]
      · -- A comment behind the arrow is behind the value.
        intro child isNew holds
        obtain ⟨behindArrow, -⟩ := Bool.and_eq_true_iff.mp holds
        have known := overlooked child isNew
        rw [present, Option.isSome_none, Bool.false_or, Bool.or_eq_true] at known
        rcases known with aheadOfArrow | behindValue
        · obtain ⟨arrow, isArrow, notAhead⟩ := (Option.any_eq_true _ _).mp aheadOfArrow
          have sameArrow : arrowSlot? commented = some (insertion.lift arrow) :=
            (findKind?_eq insertion (by decide)).trans (congrArg _ isArrow)
          have isAhead : insertion.ahead child arrow = true := by
            rw [arrowIndex, sameArrow] at behindArrow
            exact behindArrow
          simp [isAhead] at notAhead
        · obtain ⟨value, isValue, isAhead⟩ := (Option.any_eq_true _ _).mp behindValue
          obtain ⟨valueHolds, -⟩ :=
            Syntax.Tree.find?_slots_eq_some_iff.mp (found.symm.trans isValue)
          refine ⟨value, ?_, isAhead⟩
          rw [(insertion.lift_shape value).named]
          simpa only [arrowIndex_lt_lift insertion behind] using valueHolds

end Types

/-! ### Types -/

theorem typeName_eq (node : Node) :
    typeName node =
      if node.kind == "type_name" then
        if leadingKind? node == some "mapping" then
          .mapping ((mappingValue? node).elim .function fun value => typeName value.node)
        else if leadingKind? node == some "function" then .function
        else if node.children.any fun child => child.kind == "[" then
          .array (node.slots.head?.elim .function fun element => typeName element.node)
        else node.soleSlot?.elim (namedType node) fun only => typeName only.node
      else namedType node := by
  rw [typeName]
  congr 2
  · cases mappingValue? node <;> rfl
  · congr 2
    · cases node.slots.head? <;> rfl
    · cases node.soleSlot? <;> rfl

theorem namedType_congr {left right : Node} (kind : right.kind = left.kind)
    (text : textOf right = textOf left) : namedType right = namedType left := by
  unfold namedType
  rw [kind, text]

/-- A part of a type found at its old place is read as before. -/
theorem elim_lift {plain commented : Node} {insertion : plain.Insertion commented}
    {found : Option (Syntax.Tree.Child commented)} {part : Option (Syntax.Tree.Child plain)}
    (samePart : found = part.map insertion.lift)
    (read : ∀ old, part = some old → typeName (insertion.lift old).node = typeName old.node)
    (otherwise : TypeName) :
    (found.elim otherwise fun child => typeName child.node) =
      part.elim otherwise fun old => typeName old.node := by
  rw [samePart]
  cases part with
  | none => rfl
  | some old => exact read old rfl

theorem composite_of_overlooksInType {node : Node} {ahead : Syntax.Tree.Child node → Bool}
    (isTypeName : node.kind = "type_name") (overlooked : overlooksInType node ahead = true) :
    isComposite node = true ∧ node.slots.any ahead = true ∧
      (leadingKind? node = some "mapping" →
        ((node.fieldSlot? "value_type").isSome ||
          (arrowSlot? node).any (fun arrow => !ahead arrow) ||
          (mappingValue? node).any ahead) = true) := by
  unfold overlooksInType at overlooked
  rw [isTypeName, bne_self_eq_false, Bool.false_or, Bool.and_eq_true,
    Bool.and_eq_true] at overlooked
  obtain ⟨⟨composite, behind⟩, inMapping⟩ := overlooked
  refine ⟨composite, behind, fun leading => ?_⟩
  rw [leading, bne_self_eq_false, Bool.false_or] at inMapping
  exact inMapping

/-- A type that is not composite is read through its only part, or else by its text. -/
theorem soleType_eq {plain commented : Node} {insertion : plain.Insertion commented}
    (kind : commented.kind = plain.kind) (unchanged : ∀ child, ¬ insertion.IsNew child)
    (parts : ∀ old, plain.soleSlot? = some old →
      typeName (insertion.lift old).node = typeName old.node)
    (text : plain.soleSlot? = none → textOf commented = textOf plain) :
    (commented.soleSlot?.elim (namedType commented) fun only => typeName only.node) =
      plain.soleSlot?.elim (namedType plain) fun only => typeName only.node := by
  have sameSole := insertion.soleSlot?_eq fun child isNew => absurd isNew (unchanged child)
  rw [elim_lift sameSole parts]
  cases isSole : plain.soleSlot? with
  | some only => rfl
  | none => exact namedType_congr kind (text isSole)

theorem typeName_eq_of_parts {plain commented : Node} (insertion : plain.Insertion commented)
    (kind : commented.kind = plain.kind)
    (parts : ∀ old, partSlot? plain = some old →
      typeName (insertion.lift old).node = typeName old.node)
    (text : Reading.type.byText plain = true → textOf commented = textOf plain)
    (overlooked : ∀ child, insertion.IsNew child →
      overlooksInType plain (insertion.ahead child) = true) :
    typeName commented = typeName plain := by
  rw [typeName_eq commented, typeName_eq plain, kind]
  by_cases isTypeName : plain.kind = "type_name"
  · have gaps := fun child isNew =>
      composite_of_overlooksInType isTypeName (overlooked child isNew)
    have behind := fun child isNew => (gaps child isNew).2.1
    rw [leadingKind?_eq insertion behind, anyKind_eq insertion (by decide)]
    simp only [isTypeName, beq_self_eq_true, if_true, beq_iff_eq]
    unfold partSlot? at parts
    by_cases isMapping : leadingKind? plain = some "mapping"
    · rw [if_pos isMapping, if_pos isMapping]
      have sameValue := mappingValue?_eq insertion behind
        fun child isNew => (gaps child isNew).2.2 isMapping
      exact congrArg _ (elim_lift sameValue (by simpa [isMapping] using parts) _)
    · rw [if_neg isMapping, if_neg isMapping]
      by_cases isFunction : leadingKind? plain = some "function"
      · rw [if_pos isFunction, if_pos isFunction]
      · rw [if_neg isFunction, if_neg isFunction]
        cases isArray : plain.children.any fun child => child.kind == "[" with
        | true =>
            rw [if_pos rfl, if_pos rfl]
            exact congrArg _ (elim_lift (insertion.head?_slots behind)
              (by simpa [isMapping, isFunction, isArray] using parts) _)
        | false =>
            -- No comment is overlooked here.
            have notComposite : isComposite plain = false := by
              simp [isComposite, isMapping, isFunction, isArray]
            refine soleType_eq kind (fun child isNew => ?_)
              (by simpa [isMapping, isFunction, isArray] using parts)
              (fun isSole => text (by simp [Reading.byText, notComposite, isSole]))
            rw [(gaps child isNew).1] at notComposite
            cases notComposite
  · rw [if_neg (by simpa using isTypeName), if_neg (by simpa using isTypeName)]
    exact namedType_congr kind (text (by simp [Reading.byText, isTypeName]))

theorem typeName_of_commented {plain commented : Node}
    (alike : Commented .type plain commented) : typeName commented = typeName plain := by
  generalize isType : Reading.type = reading at alike
  induction alike with
  | @intro reading plain commented insertion kind children text path overlooked inductionHypothesis =>
      subst isType
      refine typeName_eq_of_parts insertion kind (fun old isPart => ?_) text overlooked
      exact inductionHypothesis old .type (decide_eq_true isPart) rfl

/-! ### Declarations -/

section Declarations

variable {plain commented : Node} (insertion : plain.Insertion commented)

theorem declaredType_eq
    (types : ∀ old, typeSlot? plain = some old →
      Commented .type old.node (insertion.lift old).node) :
    declaredType commented = declaredType plain := by
  have sameType := typeSlot?_eq insertion
  unfold typeSlot? at sameType types
  unfold declaredType
  rw [sameType]
  cases found : (plain.fieldSlot? "type").or (plain.kindSlot? "type_name") with
  | none => rfl
  | some old => exact typeName_of_commented (types old found)

theorem variableOf_eq
    (names : ∀ old, variableNameSlot? plain = some old →
      textOf (insertion.lift old).node = textOf old.node)
    (types : ∀ old, typeSlot? plain = some old →
      Commented .type old.node (insertion.lift old).node) :
    variableOf commented = variableOf plain := by
  have sameName := variableNameSlot?_eq insertion
  unfold variableNameSlot? at sameName names
  unfold variableOf
  rw [sameName, declaredType_eq insertion types]
  cases found : (plain.fieldSlot? "name").or
      (plain.namedSlots.filter fun child => child.node.kind == "identifier").getLast? with
  | none => rfl
  | some old =>
      simp only [Option.map_some, names old found]

end Declarations

end ContractCalls.Solidity.FromTree
