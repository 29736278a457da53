import ContractCalls.Solidity.FromTree.Units
import ContractCalls.Proofs.Bodies.CallSites
import Mathlib.Tactic.MkIffOfInductiveProp

/-!
Contract: trees that are read without a defect.

Owns:
- the parts that a node of each kind needs;
- readings that succeed, closed under the ways in which readings are composed;
- one statement for each function that reads a part of a tree, and the law for
  whole trees: a tree all of whose nodes have their parts is rejected exactly for
  its syntax errors.

A node of any other kind may hold anything, and a node that is needed is never
asked for more than that it is there.
-/

set_option autoImplicit false

namespace ContractCalls.Syntax.Tree

variable {ε : Type}

/-! ### Nodes of a tree -/

theorem self_mem_preorder (tree : Tree ε) : tree ∈ tree.preorder := by
  cases tree with
  | mk kind extent named field missing children =>
      rw [preorder]
      exact List.mem_cons_self

theorem preorders_subset {child : Tree ε} {trees : List (Tree ε)} (member : child ∈ trees) :
    child.preorder ⊆ preorders trees := by
  induction trees with
  | nil => contradiction
  | cons first rest inductionHypothesis =>
      rw [preorders]
      rcases List.mem_cons.mp member with rfl | later
      · exact List.subset_append_left _ _
      · exact List.subset_append_of_subset_right _ (inductionHypothesis later)

theorem preorder_subset_of_child {tree child : Tree ε} (member : child ∈ tree.children) :
    child.preorder ⊆ tree.preorder := by
  cases tree with
  | mk kind extent named field missing children =>
      rw [preorder]
      exact List.subset_cons_of_subset _ (preorders_subset member)

/-! ### Children that are there -/

variable (tree : Tree ε)

/-- Some child has a role. -/
def HasRole (role : String) : Prop := ∃ child ∈ tree.children, child.field = some role

/-- The grammar names some child. -/
def HasNamed : Prop := ∃ child ∈ tree.children, child.named = true

/-- Some child is a node of a kind; a bare token with that text is none. -/
def HasKind (kind : String) : Prop :=
  ∃ child ∈ tree.children, child.named = true ∧ child.kind = kind

instance (role : String) : Decidable (tree.HasRole role) :=
  inferInstanceAs (Decidable (∃ child ∈ tree.children, child.field = some role))

instance : Decidable tree.HasNamed :=
  inferInstanceAs (Decidable (∃ child ∈ tree.children, child.named = true))

instance (kind : String) : Decidable (tree.HasKind kind) :=
  inferInstanceAs (Decidable (∃ child ∈ tree.children, child.named = true ∧ child.kind = kind))

variable {tree}

/-- Every child has a slot. -/
theorem exists_slot {child : Tree ε} (member : child ∈ tree.children) :
    ∃ slot ∈ tree.slots, slot.node = child := by
  rw [← map_node_slots] at member
  exact List.mem_map.mp member

/-- The child in a role is found, or the one that stands in for it. -/
theorem exists_fieldSlot?_or {role : String} {other : Option (Child tree)}
    (present : tree.HasRole role ∨ other.isSome = true) :
    ∃ slot, (tree.fieldSlot? role).or other = some slot := by
  rw [← Option.isSome_iff_exists, Option.isSome_or, Bool.or_eq_true]
  apply present.imp_left
  rintro ⟨child, member, isRole⟩
  obtain ⟨slot, isSlot, rfl⟩ := exists_slot member
  exact List.find?_isSome.mpr ⟨slot, isSlot, by simp [isRole]⟩

theorem isSome_kindSlot? {kind : String} (present : tree.HasKind kind) :
    (tree.kindSlot? kind).isSome = true := by
  obtain ⟨child, member, named, isKind⟩ := present
  obtain ⟨slot, isSlot, rfl⟩ := exists_slot member
  exact List.find?_isSome.mpr ⟨slot, List.mem_filter.mpr ⟨isSlot, named⟩, by simp [isKind]⟩

theorem namedSlots_ne_nil (present : tree.HasNamed) : tree.namedSlots ≠ [] := by
  obtain ⟨child, member, named⟩ := present
  obtain ⟨slot, isSlot, rfl⟩ := exists_slot member
  exact List.ne_nil_of_mem (List.mem_filter.mpr ⟨isSlot, named⟩)

end ContractCalls.Syntax.Tree

namespace ContractCalls.Solidity.FromTree

open ContractCalls.Syntax

/-! ### Readings that succeed -/

def Succeeds {ε α : Type} (reading : Except ε α) : Prop := ∃ value, reading = .ok value

namespace Succeeds

variable {ε α β : Type}

theorem ok (value : α) : Succeeds (Except.ok value : Except ε α) := ⟨value, rfl⟩

theorem bind {first : Except ε α} {rest : α → Except ε β} (succeeds : Succeeds first)
    (later : ∀ value, first = .ok value → Succeeds (rest value)) : Succeeds (first >>= rest) := by
  obtain ⟨value, isValue⟩ := succeeds
  obtain ⟨result, isResult⟩ := later value isValue
  refine ⟨result, ?_⟩
  rw [isValue]
  exact isResult

theorem map {reading : Except ε α} (succeeds : Succeeds reading) (change : α → β) :
    Succeeds (reading.map change) := by
  obtain ⟨value, rfl⟩ := succeeds
  exact ⟨change value, rfl⟩

theorem mapM {read : α → Except ε β} {each : List α} (reads : ∀ one ∈ each, Succeeds (read one)) :
    Succeeds (each.mapM read) := by
  have related : ∀ one ∈ each, ∃ result, read one = .ok result ∧ True := fun one member =>
    (reads one member).imp fun _ isResult => ⟨isResult, trivial⟩
  obtain ⟨results, areRead, -⟩ := exists_forall₂_mapM related
  exact ⟨results, areRead⟩

end Succeeds

/-! ### The parts of nodes -/

/-- The kinds of nodes that need a name. -/
def namedKinds : List String :=
  ["contract_declaration", "interface_declaration", "library_declaration",
    "state_variable_declaration", "function_definition", "modifier_definition",
    "event_definition", "struct_declaration"]

/-- A node has the parts that a node of its kind needs. -/
@[mk_iff]
structure Equipped (node : Node) : Prop where
  name : node.kind ∈ namedKinds → node.HasRole "name" ∨ node.HasKind "identifier"
  base : node.kind = "inheritance_specifier" → node.HasRole "ancestor" ∨ node.HasNamed
  call : node.kind = "call_expression" → node.HasRole "function" ∨ node.HasNamed
  member : node.kind = "member_expression" →
    node.HasRole "object" ∧ node.HasRole "property" ∨ node.HasNamed
  emission : node.kind = "emit_statement" → node.HasRole "name" ∨ node.HasNamed
  cast : node.kind = "type_cast_expression" → node.HasNamed

instance (node : Node) : Decidable (Equipped node) :=
  decidable_of_iff _ (equipped_iff node).symm

/-- All nodes of a tree have their parts. -/
def EquippedTree (root : Node) : Prop := ∀ node ∈ root.preorder, Equipped node

instance (root : Node) : Decidable (EquippedTree root) :=
  inferInstanceAs (Decidable (∀ node ∈ root.preorder, Equipped node))

section Parts

variable {node : Node}

theorem EquippedTree.self (equipped : EquippedTree node) : Equipped node :=
  equipped node node.self_mem_preorder

theorem EquippedTree.child (equipped : EquippedTree node) (child : Syntax.Tree.Child node) :
    EquippedTree child.node :=
  fun inner inside =>
    equipped inner (Syntax.Tree.preorder_subset_of_child child.node_mem inside)

theorem succeeds_roleOrFirst {role : String} (present : node.HasRole role ∨ node.HasNamed) :
    Succeeds (roleOrFirst node role) := by
  have named : node.HasNamed → node.namedSlots.head?.isSome = true := fun named =>
    List.isSome_head?.mpr (Syntax.Tree.namedSlots_ne_nil named)
  obtain ⟨child, isChild⟩ := Syntax.Tree.exists_fieldSlot?_or (present.imp_right named)
  unfold roleOrFirst
  rw [isChild]
  exact Succeeds.ok child

theorem succeeds_roleOrLast {role : String} (present : node.HasRole role ∨ node.HasNamed) :
    Succeeds (roleOrLast node role) := by
  have named : node.HasNamed → node.namedSlots.getLast?.isSome = true := fun named =>
    List.getLast?_isSome.mpr (Syntax.Tree.namedSlots_ne_nil named)
  obtain ⟨child, isChild⟩ := Syntax.Tree.exists_fieldSlot?_or (present.imp_right named)
  unfold roleOrLast
  rw [isChild]
  exact Succeeds.ok child

theorem succeeds_nameOf (equipped : Equipped node) (needsName : node.kind ∈ namedKinds) :
    Succeeds (nameOf node) := by
  have present := (equipped.name needsName).imp_right Syntax.Tree.isSome_kindSlot?
  obtain ⟨child, isChild⟩ := Syntax.Tree.exists_fieldSlot?_or present
  unfold nameOf
  rw [isChild]
  exact Succeeds.ok _

end Parts

/-! ### Expressions -/

section Expressions

variable {node : Node}

theorem succeeds_arguments
    (smaller : ∀ part : Node, sizeOf part < sizeOf node → EquippedTree part →
      Succeeds (expression part))
    (equipped : EquippedTree node) (called : Option (Syntax.Tree.Child node)) :
    Succeeds (arguments node called) := by
  rw [arguments]
  refine Succeeds.mapM fun child _ => ?_
  split
  next value _ =>
    have isSmaller : sizeOf value.node < sizeOf node :=
      Nat.lt_trans value.sizeOf_node_lt child.sizeOf_node_lt
    exact smaller value.node isSmaller ((equipped.child child).child value)
  next => exact smaller child.node child.sizeOf_node_lt (equipped.child child)

/-- Every form of an expression finds its parts. -/
theorem succeeds_form (equipped : Equipped node)
    (children : ∀ child : Syntax.Tree.Child node, Succeeds (expression child.node))
    (passed : ∀ called, Succeeds (arguments node called)) : Succeeds (expression node) := by
  rw [expression]
  split
  next inner _ => exact children inner
  split
  next isCall =>
    refine (succeeds_roleOrFirst (equipped.call (by simpa using isCall))).bind fun callee _ => ?_
    refine (children callee).bind fun called _ => ?_
    exact (passed (some callee)).bind fun given _ => Succeeds.ok _
  split
  next isCast =>
    have named := Syntax.Tree.namedSlots_ne_nil (equipped.cast (by simpa using isCast))
    split
    next isEmpty => exact absurd (List.head?_eq_none_iff.mp isEmpty) named
    next type _ => exact (passed (some type)).bind fun given _ => Succeeds.ok _
  split
  next => exact (passed none).bind fun given _ => Succeeds.ok _
  split
  next isMember =>
    have parts := equipped.member (by simpa using isMember)
    refine (succeeds_roleOrFirst (parts.imp_left And.left)).bind fun object _ => ?_
    refine (succeeds_roleOrLast (parts.imp_left And.right)).bind fun member _ => ?_
    exact (children object).bind fun read _ => Succeeds.ok _
  split
  next => exact Succeeds.ok _
  split
  next => exact Succeeds.ok _
  split
  next => exact Succeeds.ok _
  refine Succeeds.bind ?_ fun operands _ => Succeeds.ok _
  exact Succeeds.mapM fun operand _ => children operand

theorem succeeds_expression (node : Node) (equipped : EquippedTree node) :
    Succeeds (expression node) := by
  have smaller : ∀ part : Node, sizeOf part < sizeOf node → EquippedTree part →
      Succeeds (expression part) :=
    fun part _ partEquipped => succeeds_expression part partEquipped
  exact succeeds_form equipped.self
    (fun child => smaller child.node child.sizeOf_node_lt (equipped.child child))
    (succeeds_arguments smaller equipped)
termination_by sizeOf node

end Expressions

/-! ### Bodies -/

theorem succeeds_emission {node : Node} (equipped : EquippedTree node)
    (isEmission : node.kind = "emit_statement") : Succeeds (emission node) := by
  have parts : ∀ part : Node, sizeOf part < sizeOf node → EquippedTree part →
      Succeeds (expression part) := fun part _ => succeeds_expression part
  refine (succeeds_roleOrFirst (equipped.self.emission isEmission)).bind fun event _ => ?_
  refine (succeeds_expression event.node (equipped.child event)).bind fun called _ => ?_
  exact (succeeds_arguments parts equipped (some event)).bind fun given _ => Succeeds.ok _

theorem succeeds_bodyItems (node : Node) (equipped : EquippedTree node) :
    Succeeds (bodyItems node) := by
  rw [bodyItems]
  refine Succeeds.bind (Succeeds.mapM fun child _ => ?_) fun items _ => Succeeds.ok _
  dsimp only
  split
  next => exact Succeeds.ok _
  split
  next => exact (succeeds_expression child.node (equipped.child child)).map _
  split
  next isEmission =>
    exact (succeeds_emission (equipped.child child) (by simpa using isEmission)).map _
  exact succeeds_bodyItems child.node (equipped.child child)
termination_by sizeOf node
decreasing_by exact Syntax.Tree.Child.sizeOf_node_lt _

section Units

variable {node : Node} (equipped : EquippedTree node)

include equipped

theorem succeeds_bodyOf : Succeeds (bodyOf node) := by
  unfold bodyOf
  split
  next => exact Succeeds.ok _
  next body _ => exact (succeeds_bodyItems body.node (equipped.child body)).map _

theorem succeeds_callableOf : Succeeds (callableOf node) := (succeeds_bodyOf equipped).map _

/-! ### Members and contracts -/

theorem succeeds_memberOf? : Succeeds (memberOf? node) := by
  have name : node.kind ∈ namedKinds → Succeeds (nameOf node) := succeeds_nameOf equipped.self
  have callable := succeeds_callableOf equipped
  have body := succeeds_bodyOf equipped
  unfold memberOf?
  split
  next isKind => exact (name (by simp [namedKinds, isKind])).bind fun _ _ => Succeeds.ok _
  next isKind =>
    refine (name (by simp [namedKinds, isKind])).bind fun _ _ => ?_
    exact callable.bind fun _ _ => Succeeds.ok _
  next => exact callable.bind fun _ _ => Succeeds.ok _
  next => exact body.bind fun _ _ => Succeeds.ok _
  next isKind =>
    refine (name (by simp [namedKinds, isKind])).bind fun _ _ => ?_
    exact callable.bind fun _ _ => Succeeds.ok _
  next isKind => exact (name (by simp [namedKinds, isKind])).bind fun _ _ => Succeeds.ok _
  next isKind => exact (name (by simp [namedKinds, isKind])).bind fun _ _ => Succeeds.ok _
  next => exact Succeeds.ok _
  next => exact Succeeds.ok _

theorem succeeds_contractOf {kind : ContractKind} (declares : contractKind? node = some kind) :
    Succeeds (contractOf kind node) := by
  have needsName : node.kind ∈ namedKinds := by
    unfold contractKind? at declares
    split at declares
    next isKind => simp [namedKinds, isKind]
    next isKind => simp [namedKinds, isKind]
    next isKind => simp [namedKinds, isKind]
    next => contradiction
  refine (succeeds_nameOf equipped.self needsName).bind fun name _ => ?_
  refine Succeeds.bind (Succeeds.mapM fun specifier isSpecifier => ?_) fun bases _ => ?_
  · have isKind := (List.mem_filter.mp isSpecifier).2
    have parts := (equipped.child specifier).self.base (by simpa using isKind)
    exact (succeeds_roleOrFirst parts).map _
  · dsimp only
    split
    next => exact Succeeds.ok _
    next body _ =>
      refine Succeeds.bind (Succeeds.mapM fun child _ => ?_) fun members _ => Succeeds.ok _
      exact succeeds_memberOf? ((equipped.child body).child child)

/-- A node at the top of a source adds a contract exactly if it declares one. -/
theorem exists_addTopLevel (unit : SourceUnit) :
    ∃ extended, addTopLevel unit node = .ok extended ∧
      extended.contracts.length = unit.contracts.length + (contractKind? node).toList.length := by
  unfold addTopLevel
  cases declares : contractKind? node with
  | none =>
      dsimp only
      split
      next => exact ⟨_, rfl, rfl⟩
      next => exact ⟨_, rfl, rfl⟩
  | some kind =>
      obtain ⟨contract, isRead⟩ := succeeds_contractOf equipped declares
      refine ⟨{ unit with contracts := unit.contracts ++ [contract] }, ?_, ?_⟩
      · dsimp only
        rw [isRead]
        rfl
      · exact List.length_append

end Units

/-! ### Whole trees -/

theorem exists_foldlM_addTopLevel {nodes : List Node}
    (equipped : ∀ node ∈ nodes, EquippedTree node) (unit : SourceUnit) :
    ∃ extended, nodes.foldlM addTopLevel unit = .ok extended ∧
      extended.contracts.length =
        unit.contracts.length + (nodes.filterMap contractKind?).length := by
  induction nodes generalizing unit with
  | nil => exact ⟨unit, rfl, rfl⟩
  | cons first rest inductionHypothesis =>
      obtain ⟨middle, isMiddle, middleLength⟩ :=
        exists_addTopLevel (equipped first List.mem_cons_self) unit
      obtain ⟨extended, isExtended, extendedLength⟩ := inductionHypothesis
        (fun node later => equipped node (List.mem_cons_of_mem first later)) middle
      refine ⟨extended, ?_, ?_⟩
      · rw [List.foldlM_cons, isMiddle]
        exact isExtended
      · rw [extendedLength, middleLength]
        cases declares : contractKind? first with
        | none => simp [declares]
        | some kind =>
            simp only [declares, List.filterMap_cons, Option.toList_some, List.length_cons,
              List.length_nil]
            omega

theorem exists_unitOf {root : Node} (equipped : EquippedTree root) :
    ∃ unit, unitOf root = .ok unit ∧
      unit.contracts.length =
        ((root.children.filter fun child => child.named).filterMap contractKind?).length := by
  have below : ∀ child ∈ root.children.filter (fun child => child.named), EquippedTree child := by
    intro child member node inside
    exact equipped node
      (Syntax.Tree.preorder_subset_of_child (List.mem_of_mem_filter member) inside)
  obtain ⟨unit, isUnit, length⟩ := exists_foldlM_addTopLevel below {}
  exact ⟨unit, isUnit, length.trans (Nat.zero_add _)⟩

/-- A tree all of whose nodes have the parts that their kinds need, whatever else it
holds, is rejected as malformed exactly if it has an error.  Otherwise it is read,
and the unit has one contract for each declaration at the top. -/
theorem sourceUnit_of_equippedTree {root : Node} (equipped : EquippedTree root)
    (path : Option String) (hasError : Bool) :
    ((∃ error, sourceUnit path hasError root = .error (.malformed error)) ↔ hasError = true) ∧
      (hasError = false →
        ∃ unit, sourceUnit path hasError root = .ok unit ∧
          unit.contracts.length =
            ((root.children.filter fun child => child.named).filterMap contractKind?).length) ∧
      ∀ defect, sourceUnit path hasError root ≠ .error (.unreadable defect) := by
  obtain ⟨unit, isUnit, length⟩ := exists_unitOf equipped
  cases hasError with
  | true =>
      have rejected : sourceUnit path true root = .error (.malformed (syntaxErrorOf path root)) :=
        rfl
      refine ⟨⟨fun _ => rfl, fun _ => ⟨_, rejected⟩⟩, by simp, ?_⟩
      intro defect unreadable
      rw [rejected] at unreadable
      cases unreadable
  | false =>
      have accepted : sourceUnit path false root = .ok unit := by
        unfold sourceUnit
        rw [isUnit]
        rfl
      refine ⟨⟨?_, by simp⟩, fun _ => ⟨unit, accepted, length⟩, ?_⟩
      · rintro ⟨error, malformed⟩
        rw [accepted] at malformed
        cases malformed
      · intro defect unreadable
        rw [accepted] at unreadable
        cases unreadable

/-- A named node with its text, at the start of a source. -/
def parsed (kind text : String) (children : List Node) : Node :=
  { kind, extent := { text, start := { row := 0, column := 0 } }, children }

/-- A contract whose event is emitted with a nested conversion and member access, inside
of nodes of unknown kinds.  The names of the contract and of the accessed member are
known by their roles, and all other parts by their places. -/
def boothTree : Node :=
  parsed "source_file" "" [
    parsed "contract_declaration" "" [
      { parsed "word" "Booth" [] with field := some "name" },
      parsed "inheritance_specifier" "" [parsed "user_defined_type" "Hall" []],
      parsed "contract_body" "" [
        parsed "event_definition" "" [parsed "identifier" "Sold" []],
        parsed "surprise" "" [parsed "function_definition" "" [parsed "identifier" "lost" []]],
        parsed "modifier_definition" "" [
          parsed "identifier" "once" [],
          parsed "function_body" "" [
            parsed "surprise" "" [
              parsed "emit_statement" "" [
                parsed "identifier" "Sold" [],
                parsed "type_cast_expression" "" [
                  parsed "primitive_type" "address" [],
                  parsed "call_expression" "" [
                    parsed "member_expression" "" [
                      parsed "identifier" "till" [],
                      { parsed "word" "owner" [] with field := some "property" }]]]]]]]]]]

theorem sourceUnit_of_equippedTree_booth :
    EquippedTree boothTree ∧
      (∃ unit, sourceUnit none false boothTree = .ok unit ∧ unit.contracts.length = 1) ∧
      ∃ error, sourceUnit none true boothTree = .error (.malformed error) := by
  have equipped : EquippedTree boothTree := by decide +kernel
  obtain ⟨-, accepted, -⟩ := sourceUnit_of_equippedTree equipped none false
  obtain ⟨rejected, -, -⟩ := sourceUnit_of_equippedTree equipped none true
  exact ⟨equipped, accepted rfl, rejected.mpr rfl⟩

end ContractCalls.Solidity.FromTree
