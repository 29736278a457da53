import ContractCalls.Proofs.Comments.Insertion
import ContractCalls.Solidity.FromTree.Units

/-!
Contract: syntax trees with comments where a reader overlooks them.

Owns:
- the ways in which nodes are read, and how a node that is read in one way has its
  children read;
- the places between children at which a comment is overlooked;
- the relation of a tree to one with comments added at such places, and a search that
  finds it.

A comment is a named node, so it counts wherever a child is found by its position.
-/

set_option autoImplicit false

namespace ContractCalls.Solidity.FromTree

open ContractCalls.Syntax

/-- The ways in which a node is read. -/
inductive Reading where
  | unit
  | contract
  | base
  | members
  | member
  | parameters
  | declaration
  | body
  | emission
  | expression
  | type
  /-- Only the path in the text counts. -/
  | importing
  /-- Only the text counts. -/
  | text
  /-- Nothing counts. -/
  | unread
  deriving Repr, DecidableEq

def Reading.all : List Reading :=
  [unit, contract, base, members, member, parameters, declaration, body, emission, expression,
    type, importing, text, unread]

theorem Reading.mem_all (reading : Reading) : reading ∈ all := by
  cases reading <;> decide

/-! ### The children that a reading finds -/

section Found

variable (node : Node)

def nameSlot? : Option (Syntax.Tree.Child node) :=
  (node.fieldSlot? "name").or (node.kindSlot? "identifier")

def typeSlot? : Option (Syntax.Tree.Child node) :=
  (node.fieldSlot? "type").or (node.kindSlot? "type_name")

def bodySlot? (kind : String) : Option (Syntax.Tree.Child node) :=
  (node.fieldSlot? "body").or (node.kindSlot? kind)

def variableNameSlot? : Option (Syntax.Tree.Child node) :=
  (node.fieldSlot? "name").or
    (node.namedSlots.filter fun child => child.node.kind == "identifier").getLast?

def firstSlot? (role : String) : Option (Syntax.Tree.Child node) :=
  (node.fieldSlot? role).or node.namedSlots.head?

def lastSlot? (role : String) : Option (Syntax.Tree.Child node) :=
  (node.fieldSlot? role).or node.namedSlots.getLast?

/-- The arrow of a mapping. -/
def arrowSlot? : Option (Syntax.Tree.Child node) :=
  node.slots.find? fun child => child.node.kind == "=>"

/-- Mappings, arrays and functions: the types that are not read by their name. -/
def isComposite : Bool :=
  leadingKind? node == some "mapping" || leadingKind? node == some "function" ||
    node.children.any fun child => child.kind == "["

/-- The part of a type that is a type itself. -/
def partSlot? : Option (Syntax.Tree.Child node) :=
  if leadingKind? node == some "mapping" then mappingValue? node
  else if leadingKind? node == some "function" then none
  else if node.children.any fun child => child.kind == "[" then node.slots.head?
  else node.soleSlot?

/-- The word of a directive between library and type. -/
def dividerSlot? : Option (Syntax.Tree.Child node) :=
  node.slots.find? fun child => child.node.kind == "for"

def librarySlot? : Option (Syntax.Tree.Child node) :=
  (dividerSlot? node).bind fun divider => node.slots.find? fun child =>
    decide (0 < child.slot.val) && decide (child.slot < divider.slot) && child.node.named

def targetSlot? : Option (Syntax.Tree.Child node) :=
  (dividerSlot? node).bind fun divider => node.slots.find? fun child =>
    decide (divider.slot < child.slot) &&
      (textOf child.node != "global" && textOf child.node != ";")

/-- The children of a definition in which parameters are looked for. -/
def inHeader (child : Syntax.Tree.Child node) : Bool :=
  some child ≠ node.fieldSlot? "body" && child.node.kind != "function_body" &&
    child.node.kind != "modifier_invocation"

end Found

/-- Whether a node that is read in one way has a child read in another. -/
def Reading.ofChild (node : Node) (child : Syntax.Tree.Child node) : Reading → Reading → Bool
  | _, .unread => true
  | .unit, .contract => (contractKind? child.node).isSome
  | .unit, .importing => child.node.kind == "import_directive"
  | .contract, .text => nameSlot? node = some child
  | .contract, .base => child.node.kind == "inheritance_specifier"
  | .contract, .members => bodySlot? node "contract_body" = some child
  | .base, .text => firstSlot? node "ancestor" = some child
  | .members, .member => true
  | .member, .text =>
    nameSlot? node = some child || librarySlot? node = some child ||
      (dividerSlot? node).any fun divider => divider.slot < child.slot
  | .member, .type => typeSlot? node = some child || targetSlot? node = some child
  | .member, .parameters => inHeader node child
  | .member, .body => bodySlot? node "function_body" = some child
  | .parameters, .parameters => node.kind != "parameter" && node.kind != "type_name"
  | .parameters, .text => node.kind == "parameter" && variableNameSlot? node = some child
  | .parameters, .type => node.kind == "parameter" && typeSlot? node = some child
  | .declaration, .text => variableNameSlot? node = some child
  | .declaration, .type => typeSlot? node = some child
  | .body, .declaration =>
    child.node.kind == "variable_declaration" || child.node.kind == "parameter"
  | .body, .expression =>
    child.node.kind == "call_expression" || child.node.kind == "type_cast_expression"
  | .body, .emission => child.node.kind == "emit_statement"
  | .body, .body => true
  | .emission, .expression => true
  | .expression, .expression => true
  | .expression, .text =>
    node.kind == "member_expression" && lastSlot? node "property" = some child ||
      node.kind == "type_cast_expression" && node.namedSlots.head? = some child
  | .type, .type => partSlot? node = some child
  | _, _ => false

/-- Whether a reading uses the text of the node itself. -/
def Reading.byText (node : Node) : Reading → Bool
  | .text => true
  | .type => node.kind != "type_name" || !isComposite node && node.soleSlot?.isNone
  | .expression =>
    node.namedSlots.isEmpty ||
      ["primitive_type", "number_literal", "identifier"].contains node.kind
  | _ => false

/-! ### Comments that are overlooked -/

section Gaps

-- A place between children is known by the children ahead of it.
variable (node : Node) (ahead : Syntax.Tree.Child node → Bool)

/-- A comment is not taken for the child in a role, nor for the first named one. -/
def overlooksFirst (role : String) : Bool :=
  (node.fieldSlot? role).isSome || node.namedSlots.any ahead

def overlooksLast (role : String) : Bool :=
  (node.fieldSlot? role).isSome || node.namedSlots.any fun child => !ahead child

/-- Parentheses and the like are looked through only if they hold a single child. -/
def isWrapper : Bool :=
  ["expression", "parenthesized_expression", "call_argument"].contains node.kind

def overlooksInExpression : Bool :=
  if isWrapper node then decide (2 ≤ node.namedSlots.length)
  else if node.kind == "call_expression" then overlooksFirst node ahead "function"
  else if node.kind == "type_cast_expression" then node.namedSlots.any ahead
  else if node.kind == "payable_conversion_expression" then true
  else if node.kind == "member_expression" then
    overlooksFirst node ahead "object" && overlooksLast node ahead "property"
  else !node.namedSlots.isEmpty

/-- Behind the first child, and in a mapping ahead of the arrow or behind the value
unless the value is known by its role. -/
def overlooksInType : Bool :=
  node.kind != "type_name" ||
    isComposite node && node.slots.any ahead &&
      (leadingKind? node != some "mapping" || (node.fieldSlot? "value_type").isSome ||
        (arrowSlot? node).any (fun arrow => !ahead arrow) || (mappingValue? node).any ahead)

/-- Between library and divider, or behind the type. -/
def overlooksInDirective : Bool :=
  match dividerSlot? node with
  | none => true
  | some divider =>
    (librarySlot? node).any ahead && !ahead divider || (targetSlot? node).any ahead

end Gaps

/-- Whether a reading overlooks a comment that has the given children ahead of it. -/
def Reading.overlooks (node : Node) (ahead : Syntax.Tree.Child node → Bool) : Reading → Bool
  | .base => overlooksFirst node ahead "ancestor"
  | .emission => overlooksFirst node ahead "name"
  | .member => node.kind != "using_directive" || overlooksInDirective node ahead
  | .expression => overlooksInExpression node ahead
  | .type => overlooksInType node ahead
  | _ => true

/-- A tree has comments added where a reading overlooks them.  Lines may differ, and
texts of nodes that are not read by their text. -/
inductive Commented : Reading → Node → Node → Prop where
  | intro {reading : Reading} {plain commented : Node}
      (insertion : plain.Insertion commented) (kind : commented.kind = plain.kind)
      (children : ∀ old inner, Reading.ofChild plain old reading inner = true →
        Commented inner old.node (insertion.lift old).node)
      (text : reading.byText plain = true → textOf commented = textOf plain)
      (path : reading = .importing →
        Lexical.importPath? (textOf commented) = Lexical.importPath? (textOf plain))
      (overlooked : ∀ child, insertion.IsNew child →
        reading.overlooks plain (insertion.ahead child) = true) :
      Commented reading plain commented

theorem Commented.text_eq {plain commented : Node} (alike : Commented .text plain commented) :
    textOf commented = textOf plain := by
  cases alike with
  | intro insertion kind children text path overlooked => exact text rfl

theorem Commented.importPath?_eq {plain commented : Node}
    (alike : Commented .importing plain commented) :
    Lexical.importPath? (textOf commented) = Lexical.importPath? (textOf plain) := by
  cases alike with
  | intro insertion kind children text path overlooked => exact path rfl

/-! ### A search for added comments -/

instance (left right : Node) : Decidable (left.SameShape right) :=
  decidable_of_iff
    (right.kind = left.kind ∧ right.named = left.named ∧ right.field = left.field)
    ⟨fun ⟨kind, named, field⟩ => ⟨kind, named, field⟩,
      fun same => ⟨same.kind, same.named, same.field⟩⟩

instance (node : Node) : Decidable node.IsComment :=
  decidable_of_iff
    (node.kind = "comment" ∧ node.named = true ∧ node.field = none ∧
      node.children.isEmpty = true)
    ⟨fun ⟨kind, named, field, childless⟩ => ⟨kind, named, field, List.isEmpty_iff.mp childless⟩,
      fun comment => ⟨comment.kind, comment.named, comment.field,
        List.isEmpty_iff.mpr comment.children⟩⟩

/-- Places of nodes among others, each the first that has its shape and comes after the
places before. -/
def align : (old new : List Node) → Option (Fin old.length → Fin new.length)
  | [], _ => some fun slot => slot.elim0
  | _ :: _, [] => none
  | first :: rest, head :: tail =>
    if first.SameShape head then
      (align rest tail).map fun places slot =>
        slot.cases ⟨0, Nat.zero_lt_succ _⟩ fun later => (places later).succ
    else (align (first :: rest) tail).map fun places slot => (places slot).succ

/-- Places that an insertion can have, and at which added comments are overlooked. -/
def areOverlooked (reading : Reading) (plain commented : Node)
    (places : Fin plain.children.length → Fin commented.children.length) : Prop :=
  (∀ left right, left < right → places left < places right) ∧
  (∀ slot, (plain.children.get slot).SameShape (commented.children.get (places slot))) ∧
  ∀ slot, (∃ old, places old = slot) ∨
    (commented.children.get slot).IsComment ∧
      reading.overlooks plain (fun old => decide (places old.slot < slot)) = true

instance (reading : Reading) (plain commented : Node)
    (places : Fin plain.children.length → Fin commented.children.length) :
    Decidable (areOverlooked reading plain commented places) :=
  inferInstanceAs (Decidable (_ ∧ _ ∧ _))

/-- Search for comments that were added to a tree of at most the given depth. -/
def isCommented : Nat → Reading → Node → Node → Bool
  | 0, _, _, _ => false
  | depth + 1, reading, plain, commented =>
    match align plain.children commented.children with
    | none => false
    | some places =>
      decide (commented.kind = plain.kind) &&
      decide (areOverlooked reading plain commented places) &&
      (!reading.byText plain || decide (textOf commented = textOf plain)) &&
      decide (reading = .importing →
        Lexical.importPath? (textOf commented) = Lexical.importPath? (textOf plain)) &&
      plain.slots.all fun old => Reading.all.all fun inner =>
        !Reading.ofChild plain old reading inner ||
          isCommented depth inner old.node (commented.children.get (places old.slot))

theorem commented_of_isCommented {depth : Nat} {reading : Reading} {plain commented : Node}
    (found : isCommented depth reading plain commented = true) :
    Commented reading plain commented := by
  induction depth generalizing reading plain commented with
  | zero => cases found
  | succ depth inductionHypothesis =>
      unfold isCommented at found
      split at found
      · cases found
      next places _ =>
        simp only [Bool.and_eq_true, decide_eq_true_eq, Bool.or_eq_true, Bool.not_eq_true',
          List.all_eq_true] at found
        obtain ⟨⟨⟨⟨kind, increasing, shapes, others⟩, text⟩, path⟩, children⟩ := found
        let insertion : plain.Insertion commented :=
          { place := OrderEmbedding.ofStrictMono places fun left right => increasing left right
            shape := shapes
            comment := fun slot outside =>
              ((others slot).resolve_left fun ⟨old, same⟩ => outside ⟨old, same⟩).1 }
        refine .intro insertion kind ?_ ?_ path ?_
        · intro old inner isRead
          have below := children old (Syntax.Tree.mem_slots old) inner inner.mem_all
          exact inductionHypothesis (below.resolve_left (by simp [isRead]))
        · intro byText
          exact text.resolve_left (by simp [byText])
        · intro child isNew
          refine ((others child.slot).resolve_left ?_).2
          rintro ⟨old, same⟩
          exact isNew ⟨old⟩ (congrArg Syntax.Tree.Child.mk same)

end ContractCalls.Solidity.FromTree
