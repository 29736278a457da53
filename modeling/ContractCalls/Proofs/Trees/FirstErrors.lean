import ContractCalls.Syntax.Source
import ContractCalls.Proofs.Trees.EquippedTrees
import Mathlib.Data.List.Chain
import Mathlib.Data.Prod.Lex
import Mathlib.Order.Bounds.Basic

/-!
Contract: which error of a tree is reported.

Owns:
- the order of places in a source, which offsets keep;
- trees laid out in the order of their source, and the list of their nodes, which
  is then sorted by where the nodes start;
- the report of a tree with an error: the least place at which an error is marked.

Nothing is asked about where a node ends, and a tree may hold nodes that start at
the same place.
-/

set_option autoImplicit false

namespace ContractCalls.Syntax

/-! ### Places in a source -/

namespace Position

/-- A place by its row, and then by its column. -/
def key (position : Position) : Nat ×ₗ Nat := toLex (position.row, position.column)

theorem key_injective : Function.Injective key := by
  rintro ⟨leftRow, leftColumn⟩ ⟨rightRow, rightColumn⟩ same
  simpa [key] using same

instance : LinearOrder Position := LinearOrder.lift' key key_injective

theorem le_iff {left right : Position} :
    left ≤ right ↔ left.row < right.row ∨ left.row = right.row ∧ left.column ≤ right.column :=
  Prod.Lex.toLex_le_toLex

end Position

/-- A later byte is at a later place, whatever the starts of the lines are. -/
theorem Source.position_mono (source : Source) : Monotone source.position := by
  intro left right le
  have kept : (source.lineStarts.filter fun start => start ≤ left).Sublist
      (source.lineStarts.filter fun start => start ≤ right) := by
    refine List.monotone_filter_right _ fun start isBefore => ?_
    exact decide_eq_true (Nat.le_trans (of_decide_eq_true isBefore) le)
  rw [Position.le_iff]
  rcases Nat.lt_or_eq_of_le kept.length_le with fewer | sameLength
  · exact .inl fewer
  -- No line starts in between, so both columns are counted from the same byte.
  · have sameLines := kept.eq_of_length sameLength
    refine .inr ⟨sameLength, ?_⟩
    simp only [Source.position, sameLines]
    exact Nat.sub_le_sub_right le _

namespace Tree

variable {ε δ κ : Type}

/-! ### Nodes at any depth -/

/-- Trees are built from their children. -/
@[elab_as_elim]
theorem childInduction {motive : Tree ε → Prop}
    (build : ∀ tree, (∀ child ∈ tree.children, motive child) → motive tree) (tree : Tree ε) :
    motive tree := by
  refine build tree fun child member => ?_
  obtain ⟨slot, -, rfl⟩ := exists_slot member
  exact childInduction build slot.node
termination_by sizeOf tree
decreasing_by exact slot.sizeOf_node_lt

/-- A node of a tree, at any depth. -/
inductive IsNodeOf (node : Tree ε) : Tree ε → Prop where
  | self : IsNodeOf node node
  | within {tree child : Tree ε} (member : child ∈ tree.children) (inside : IsNodeOf node child) :
      IsNodeOf node tree

theorem preorders_eq_flatMap (trees : List (Tree ε)) :
    preorders trees = trees.flatMap preorder := by
  induction trees with
  | nil => rfl
  | cons first rest inductionHypothesis =>
      rw [preorders, inductionHypothesis, List.flatMap_cons]

theorem preorder_eq_cons (tree : Tree ε) :
    tree.preorder = tree :: tree.children.flatMap preorder := by
  cases tree with
  | mk kind extent named field missing children => rw [preorder, preorders_eq_flatMap]

theorem mem_preorder_iff {node tree : Tree ε} : node ∈ tree.preorder ↔ IsNodeOf node tree := by
  constructor
  · induction tree using childInduction with
    | build tree inductionHypothesis =>
        intro listed
        rw [preorder_eq_cons, List.mem_cons, List.mem_flatMap] at listed
        rcases listed with rfl | ⟨child, member, inside⟩
        · exact .self
        · exact .within member (inductionHypothesis child member inside)
  · intro inside
    induction inside with
    | self => exact node.self_mem_preorder
    | within member _ inductionHypothesis =>
        exact preorder_subset_of_child member inductionHypothesis

/-! ### Trees in the order of their source -/

section Order

variable [LE κ] (start : ε → κ)

/-- Everything in a tree starts no later than another tree. -/
def StartsBy (left right : Tree ε) : Prop :=
  ∀ inner, IsNodeOf inner left → start inner.extent ≤ start right.extent

/-- The children of a node start no earlier than the node, and everything in a child
starts no later than the next child. -/
structure InOrder (node : Tree ε) : Prop where
  parent : ∀ child ∈ node.children, start node.extent ≤ start child.extent
  siblings : node.children.IsChain (StartsBy start)

/-- All nodes of a tree stand in the order of the source. -/
def LaidOut (root : Tree ε) : Prop := ∀ node, IsNodeOf node root → InOrder start node

variable [DecidableLE κ]

instance : DecidableRel (StartsBy start) := fun left right =>
  decidable_of_iff (∀ inner ∈ left.preorder, start inner.extent ≤ start right.extent) <| by
    simp only [mem_preorder_iff, StartsBy]

instance (node : Tree ε) : Decidable (InOrder start node) :=
  decidable_of_iff ((∀ child ∈ node.children, start node.extent ≤ start child.extent) ∧
      node.children.IsChain (StartsBy start))
    ⟨fun ⟨parent, siblings⟩ => ⟨parent, siblings⟩, fun ordered => ⟨ordered.1, ordered.2⟩⟩

instance (root : Tree ε) : Decidable (LaidOut start root) :=
  decidable_of_iff (∀ node ∈ root.preorder, InOrder start node) <| by
    simp only [mem_preorder_iff, LaidOut]

end Order

section Sorted

variable [Preorder κ] {start : ε → κ} {tree : Tree ε}

theorem LaidOut.child (laidOut : LaidOut start tree) {child : Tree ε}
    (member : child ∈ tree.children) : LaidOut start child :=
  fun node inside => laidOut node (.within member inside)

/-- Nothing in a tree starts before the tree. -/
theorem LaidOut.start_le (laidOut : LaidOut start tree) {inner : Tree ε}
    (inside : IsNodeOf inner tree) : start tree.extent ≤ start inner.extent := by
  induction inside with
  | self => exact le_rfl
  | within member _ inductionHypothesis =>
      exact le_trans ((laidOut _ .self).parent _ member)
        (inductionHypothesis (laidOut.child member))

instance : Trans (StartsBy start) (StartsBy start) (StartsBy start) where
  trans := fun {_ middle _} first second inner inside =>
    le_trans (first inner inside) (second middle .self)

/-- The first of two siblings, next to each other or not, starts by the second. -/
theorem LaidOut.pairwise_children (laidOut : LaidOut start tree) :
    tree.children.Pairwise (StartsBy start) :=
  List.isChain_iff_pairwise.mp (laidOut tree .self).siblings

/-- The order of the list of nodes is the order of the source. -/
theorem LaidOut.pairwise_preorder (laidOut : LaidOut start tree) :
    tree.preorder.Pairwise fun left right => start left.extent ≤ start right.extent := by
  induction tree using childInduction with
  | build tree inductionHypothesis =>
      rw [preorder_eq_cons, List.pairwise_cons, List.pairwise_flatMap]
      refine ⟨fun inner listed => ?_, fun child member => ?_, ?_⟩
      · obtain ⟨child, member, inside⟩ := List.mem_flatMap.mp listed
        exact laidOut.start_le (.within member (mem_preorder_iff.mp inside))
      · exact inductionHypothesis child member (laidOut.child member)
      -- Nodes of two children are compared through the place where the second child starts.
      · refine laidOut.pairwise_children.imp_of_mem ?_
        intro left right _ isRight startsBy inner inLeft later inRight
        exact le_trans (startsBy inner (mem_preorder_iff.mp inLeft))
          ((laidOut.child isRight).start_le (mem_preorder_iff.mp inRight))

/-- The first node in the list that has a property is one that starts first. -/
theorem LaidOut.start_le_of_find? (laidOut : LaidOut start tree) {p : Tree ε → Bool}
    {first : Tree ε} (found : tree.preorder.find? p = some first) {node : Tree ε}
    (inside : IsNodeOf node tree) (holds : p node = true) :
    start first.extent ≤ start node.extent := by
  obtain ⟨-, before, after, split, lacking⟩ := List.find?_eq_some_iff_append.mp found
  have sorted := laidOut.pairwise_preorder
  have listed := mem_preorder_iff.mpr inside
  rw [split] at sorted listed
  rcases List.mem_append.mp listed with isBefore | isLater
  · have lacks := lacking node isBefore
    rw [holds] at lacks
    contradiction
  · rcases List.mem_cons.mp isLater with rfl | isAfter
    · exact le_rfl
    · exact List.rel_of_pairwise_cons (List.pairwise_append.mp sorted).2.1 isAfter

end Sorted

/-! ### Trees over a text -/

section Mapped

variable (change : ε → δ)

theorem mapExtents_eq_map (trees : List (Tree ε)) :
    mapExtents change trees = trees.map (mapExtent change) := by
  induction trees with
  | nil => rfl
  | cons first rest inductionHypothesis =>
      rw [mapExtents, inductionHypothesis, List.map_cons]

theorem extent_mapExtent (tree : Tree ε) :
    (tree.mapExtent change).extent = change tree.extent := by
  cases tree with
  | mk kind extent named field missing children => rw [mapExtent]

theorem children_mapExtent (tree : Tree ε) :
    (tree.mapExtent change).children = tree.children.map (mapExtent change) := by
  cases tree with
  | mk kind extent named field missing children => rw [mapExtent, mapExtents_eq_map]

variable {change} in
theorem exists_of_isNodeOf_mapExtent {tree : Tree ε} {node : Tree δ}
    (inside : IsNodeOf node (tree.mapExtent change)) :
    ∃ inner, IsNodeOf inner tree ∧ inner.mapExtent change = node := by
  induction tree using childInduction with
  | build tree inductionHypothesis =>
      cases inside with
      | self => exact ⟨tree, .self, rfl⟩
      | within member inside =>
          rw [children_mapExtent] at member
          obtain ⟨child, isChild, rfl⟩ := List.mem_map.mp member
          obtain ⟨inner, inChild, isNode⟩ := inductionHypothesis child isChild inside
          exact ⟨inner, .within isChild inChild, isNode⟩

/-- A tree stays laid out when its extents are replaced by others in the same order. -/
theorem LaidOut.mapExtent {ι : Type} [LE κ] [LE ι] {start : ε → κ} {newStart : δ → ι}
    {tree : Tree ε} (laidOut : LaidOut start tree)
    (keeps : ∀ left right, start left ≤ start right →
      newStart (change left) ≤ newStart (change right)) :
    LaidOut newStart (tree.mapExtent change) := by
  intro node inside
  obtain ⟨inner, inTree, rfl⟩ := exists_of_isNodeOf_mapExtent inside
  have ordered := laidOut inner inTree
  constructor
  · intro child member
    rw [children_mapExtent] at member
    obtain ⟨child, isChild, rfl⟩ := List.mem_map.mp member
    rw [extent_mapExtent, extent_mapExtent]
    exact keeps _ _ (ordered.parent child isChild)
  · rw [children_mapExtent, List.isChain_map]
    refine ordered.siblings.imp fun left right startsBy later inLater => ?_
    obtain ⟨original, inLeft, rfl⟩ := exists_of_isNodeOf_mapExtent inLater
    rw [extent_mapExtent, extent_mapExtent]
    exact keeps _ _ (startsBy original inLeft)

end Mapped

/-- A tree laid out by its bytes is laid out by lines and columns. -/
theorem LaidOut.read {tree : Tree Span} (laidOut : LaidOut Span.start tree) (source : Source) :
    LaidOut Excerpt.start (source.read tree) :=
  laidOut.mapExtent source.excerpt fun _ _ le => source.position_mono le

end Tree

end ContractCalls.Syntax

namespace ContractCalls.Solidity.FromTree

open ContractCalls.Syntax

/-! ### The reported error -/

/-- Where the errors of a tree start.  Nodes of a kind of their own hold text that fits
nowhere, and missing nodes stand where text is lacking. -/
def errorStarts (root : Node) : Set Position :=
  {start | ∃ node, Syntax.Tree.IsNodeOf node root ∧
    (node.kind = "ERROR" ∨ node.missing = true) ∧ node.extent.start = start}

theorem marksError_iff {node : Node} :
    marksError node = true ↔ node.kind = "ERROR" ∨ node.missing = true := by
  simp [marksError]

theorem syntaxErrorOf_of_find? {root node : Node} (path : Option String)
    (found : root.preorder.find? marksError = some node) :
    syntaxErrorOf path root =
      { path, line := some (node.extent.start.row + 1),
        column := some (node.extent.start.column + 1) } := by
  unfold syntaxErrorOf
  rw [found]
  rfl

/-- The first marked node in the list is at the least place of an error. -/
theorem isLeast_errorStarts {root node : Node}
    (laidOut : Syntax.Tree.LaidOut Excerpt.start root)
    (found : root.preorder.find? marksError = some node) :
    IsLeast (errorStarts root) node.extent.start := by
  constructor
  · exact ⟨node, Syntax.Tree.mem_preorder_iff.mp (List.mem_of_find?_eq_some found),
      marksError_iff.mp (List.find?_some found), rfl⟩
  · rintro start ⟨other, inside, marked, rfl⟩
    exact laidOut.start_le_of_find? found inside (marksError_iff.mpr marked)

theorem find?_marksError_eq_none_iff {root : Node} :
    root.preorder.find? marksError = none ↔ errorStarts root = ∅ := by
  rw [List.find?_eq_none, Set.eq_empty_iff_forall_notMem]
  constructor
  · rintro unmarked start ⟨node, inside, marked, -⟩
    exact unmarked node (Syntax.Tree.mem_preorder_iff.mpr inside) (marksError_iff.mpr marked)
  · intro noStart node listed marked
    exact noStart node.extent.start
      ⟨node, Syntax.Tree.mem_preorder_iff.mp listed, marksError_iff.mp marked, rfl⟩

/-- A tree that has an error, and that is laid out in the order of its source, is
rejected at the least place of a marked node at any depth, with line and column counted
from one, and at no place if no node is marked. -/
theorem sourceUnit_at_first_error {root : Node}
    (laidOut : Syntax.Tree.LaidOut Excerpt.start root) (path : Option String) :
    ((errorStarts root).Nonempty →
        ∃ first, IsLeast (errorStarts root) first ∧
          sourceUnit path true root =
            .error (.malformed
              { path, line := some (first.row + 1), column := some (first.column + 1) })) ∧
      (errorStarts root = ∅ →
        sourceUnit path true root =
          .error (.malformed { path, line := none, column := none })) := by
  have rejected : sourceUnit path true root = .error (.malformed (syntaxErrorOf path root)) := rfl
  rw [rejected]
  constructor
  · intro nonempty
    cases found : root.preorder.find? marksError with
    | none => exact absurd (find?_marksError_eq_none_iff.mp found) nonempty.ne_empty
    | some node =>
        refine ⟨node.extent.start, isLeast_errorStarts laidOut found, ?_⟩
        rw [syntaxErrorOf_of_find? path found]
  · intro isEmpty
    unfold syntaxErrorOf
    rw [find?_marksError_eq_none_iff.mpr isEmpty]

/-- A source with a call that is not closed, and with a stray bracket behind it. -/
def tillText : String := "contract Till \x7b\n  function f() \x7b pay(; \x7d\n  ]\n\x7d\n"

/-- A node that covers a range of bytes. -/
def covering (kind : String) (start stop : Nat) (children : List (Syntax.Tree Span)) :
    Syntax.Tree Span :=
  { kind, extent := ⟨start, stop⟩, children }

/-- The tree of that source.  The bare token that closes the call is missing.  It is
deeper in the tree than the bracket, which a search level by level would meet first. -/
def tillTree : Syntax.Tree Span :=
  covering "source_file" 0 47 [
    covering "contract_declaration" 0 46 [
      { covering "contract" 0 8 [] with named := false },
      { covering "identifier" 9 13 [] with field := some "name" },
      { covering "contract_body" 14 46 [
          covering "function_definition" 18 40 [
            { covering "identifier" 27 28 [] with field := some "name" },
            covering "function_body" 31 40 [
              covering "call_expression" 33 37 [
                covering "identifier" 33 36 [],
                { covering "(" 36 37 [] with named := false },
                { covering ")" 37 37 [] with named := false, missing := true }],
              { covering ";" 37 38 [] with named := false }]],
          covering "ERROR" 43 44 []] with field := some "body" }]]

/-- The tree with the texts and places of its nodes. -/
def tillRoot : Node := (Source.ofString tillText).read tillTree

theorem sourceUnit_at_first_error_till :
    (Syntax.Tree.LaidOut Span.start tillTree ∧
      IsLeast (errorStarts tillRoot) { row := 1, column := 21 } ∧
      sourceUnit (some "Till.sol") true tillRoot =
        .error (.malformed { path := some "Till.sol", line := some 2, column := some 22 })) ∧
    Syntax.Tree.LaidOut Excerpt.start boothTree ∧ errorStarts boothTree = ∅ ∧
      sourceUnit none true boothTree = .error (.malformed {}) := by
  have laidOut : Syntax.Tree.LaidOut Span.start tillTree := by decide +kernel
  have marked : (errorStarts tillRoot).Nonempty := by
    rw [Set.nonempty_iff_ne_empty, ne_eq, ← find?_marksError_eq_none_iff]
    exact Option.isSome_iff_ne_none.mp (by decide +kernel)
  have reported : syntaxErrorOf (some "Till.sol") tillRoot =
      { path := some "Till.sol", line := some 2, column := some 22 } := by decide +kernel
  obtain ⟨⟨row, column⟩, least, rejected⟩ :=
    (sourceUnit_at_first_error (laidOut.read (Source.ofString tillText)) (some "Till.sol")).1 marked
  have same := (Rejection.malformed.inj (Except.error.inj rejected)).symm.trans reported
  simp only [SyntaxError.mk.injEq, Option.some.injEq] at same
  obtain rfl : row = 1 := by omega
  obtain rfl : column = 21 := by omega
  have boothLaidOut : Syntax.Tree.LaidOut Excerpt.start boothTree := by decide +kernel
  have unmarked : errorStarts boothTree = ∅ :=
    find?_marksError_eq_none_iff.mp (Option.isNone_iff_eq_none.mp (by decide +kernel))
  exact ⟨⟨laidOut, least, rejected⟩, boothLaidOut, unmarked,
    (sourceUnit_at_first_error boothLaidOut none).2 unmarked⟩

end ContractCalls.Solidity.FromTree
