import ContractCalls.Proofs.Bodies.Occurrences
import Mathlib.Data.List.Sort
import Mathlib.Order.Hom.Basic
import Mathlib.Tactic.ByContra

/-!
Contract: comments inserted between the children of a node.

Owns:
- the places of a node's children among those of a node with comments added;
- the searches for children that the added comments do not change, by field, by
  kind, by position and by any property that comments lack.

A search for the first or the last child of some property is undisturbed as long as
an old child with the property stands on that side of each added comment.
-/

set_option autoImplicit false

namespace ContractCalls.Syntax.Tree

variable {ε : Type}

/-! ### Children in order -/

section Slots

variable {tree : Tree ε} {p : Child tree → Bool} {child : Child tree}

theorem mem_slots (child : Child tree) : child ∈ tree.slots :=
  List.mem_map.mpr ⟨child.slot, List.mem_finRange _, rfl⟩

theorem mem_filter_slots : child ∈ tree.slots.filter p ↔ p child = true := by
  rw [List.mem_filter]
  exact and_iff_right (mem_slots child)

theorem pairwise_slots (tree : Tree ε) :
    tree.slots.Pairwise fun left right => left.slot < right.slot := by
  unfold slots
  rw [List.pairwise_map]
  exact List.pairwise_lt_finRange _

/-- Children in the order of the source are known by which they are. -/
theorem eq_of_ordered {left right : List (Child tree)}
    (leftOrdered : left.Pairwise fun first second => first.slot < second.slot)
    (rightOrdered : right.Pairwise fun first second => first.slot < second.slot)
    (sameMembers : ∀ child, child ∈ left ↔ child ∈ right) : left = right := by
  have : Std.Irrefl fun first second : Child tree => first.slot < second.slot :=
    ⟨fun child => lt_irrefl child.slot⟩
  have : Std.Antisymm fun first second : Child tree => first.slot < second.slot :=
    ⟨fun _ _ less greater => absurd greater less.asymm⟩
  exact leftOrdered.eq_of_mem_iff rightOrdered sameMembers

theorem find?_slots_eq_some_iff :
    tree.slots.find? p = some child ↔
      p child = true ∧ ∀ other, p other = true → child.slot ≤ other.slot := by
  rw [← List.head?_filter]
  have ordered := (pairwise_slots tree).filter p
  constructor
  · intro first
    refine ⟨mem_filter_slots.mp (List.mem_of_mem_head? first), fun other holds => ?_⟩
    obtain ⟨rest, listed⟩ := List.head?_eq_some_iff.mp first
    have member := mem_filter_slots.mpr holds
    rw [listed] at ordered member
    rcases List.mem_cons.mp member with rfl | later
    · exact le_rfl
    · exact ((List.pairwise_cons.mp ordered).1 other later).le
  · rintro ⟨holds, least⟩
    have member := mem_filter_slots.mpr holds
    cases listed : tree.slots.filter p with
    | nil => simp [listed] at member
    | cons head rest =>
        rw [listed] at ordered member
        have headHolds : p head = true := mem_filter_slots.mp (listed ▸ List.mem_cons_self)
        rcases List.mem_cons.mp member with rfl | later
        · rfl
        · exact absurd ((List.pairwise_cons.mp ordered).1 child later)
            (not_lt.mpr (least head headHolds))

theorem getLast?_slots_eq_some_iff :
    (tree.slots.filter p).getLast? = some child ↔
      p child = true ∧ ∀ other, p other = true → other.slot ≤ child.slot := by
  have ordered := (pairwise_slots tree).filter p
  constructor
  · intro last
    refine ⟨mem_filter_slots.mp (List.mem_of_mem_getLast? last), fun other holds => ?_⟩
    obtain ⟨front, listed⟩ := List.getLast?_eq_some_iff.mp last
    have member := mem_filter_slots.mpr holds
    rw [listed] at ordered member
    rcases List.mem_append.mp member with earlier | isLast
    · exact ((List.pairwise_append.mp ordered).2.2 other earlier child List.mem_cons_self).le
    · exact (congrArg Child.slot (List.mem_singleton.mp isLast)).le
  · rintro ⟨holds, greatest⟩
    have member := mem_filter_slots.mpr holds
    cases last : (tree.slots.filter p).getLast? with
    | none => simp [List.getLast?_eq_none_iff.mp last] at member
    | some final =>
        obtain ⟨front, listed⟩ := List.getLast?_eq_some_iff.mp last
        have finalHolds : p final = true :=
          mem_filter_slots.mp (List.mem_of_mem_getLast? last)
        rw [listed] at ordered member
        rcases List.mem_append.mp member with earlier | isLast
        · exact absurd ((List.pairwise_append.mp ordered).2.2 child earlier final
            List.mem_cons_self) (not_lt.mpr (greatest final finalHolds))
        · rw [List.mem_singleton.mp isLast]

theorem find?_slots_eq_none_iff :
    tree.slots.find? p = none ↔ ∀ other, p other = false := by
  simp [List.find?_eq_none, mem_slots]

theorem findIdx?_children (tree : Tree ε) (q : Tree ε → Bool) :
    tree.children.findIdx? q =
      (tree.slots.find? fun child => q child.node).map fun child => child.slot.val := by
  cases found : tree.slots.find? fun child => q child.node with
  | none =>
      rw [Option.map_none, List.findIdx?_eq_none_iff]
      intro node member
      obtain ⟨index, below, rfl⟩ := List.getElem_of_mem member
      exact find?_slots_eq_none_iff.mp found ⟨⟨index, below⟩⟩
  | some child =>
      obtain ⟨holds, least⟩ := find?_slots_eq_some_iff.mp found
      rw [Option.map_some, List.findIdx?_eq_some_iff_getElem]
      refine ⟨child.slot.isLt, holds, fun index below holdsBelow => ?_⟩
      have notLess := least ⟨⟨index, below.trans child.slot.isLt⟩⟩ holdsBelow
      exact absurd below (not_lt.mpr notLess)

theorem slots_range (tree : Tree ε) (start stop : Nat) :
    (tree.slots.take stop).drop start =
      tree.slots.filter fun child =>
        decide (start ≤ child.slot.val) && decide (child.slot.val < stop) := by
  have ordered := pairwise_slots tree
  refine eq_of_ordered
    (ordered.sublist ((List.drop_sublist _ _).trans (List.take_sublist _ _)))
    (ordered.filter _) fun child => ?_
  have atIndex : ∀ (index : Nat) (below : index < tree.slots.length),
      (tree.slots[index]).slot.val = index := by
    intro index below
    simp [slots]
  rw [mem_filter_slots, Bool.and_eq_true, decide_eq_true_eq, decide_eq_true_eq]
  constructor
  · intro member
    obtain ⟨index, below, rfl⟩ := List.mem_iff_getElem.mp member
    simp only [List.getElem_drop, List.getElem_take, atIndex]
    simp only [List.length_drop, List.length_take] at below
    omega
  · rintro ⟨notBefore, before⟩
    have below : child.slot.val < tree.slots.length := by
      simp [slots]
    have isChild : tree.slots[child.slot.val] = child := by
      simp [slots]
    refine List.mem_iff_getElem.mpr ⟨child.slot.val - start, ?_, ?_⟩
    · simp only [List.length_drop, List.length_take]
      omega
    · simp only [List.getElem_drop, List.getElem_take, Nat.add_sub_cancel' notBefore, isChild]

theorem find?_slots_drop (tree : Tree ε) (start : Nat) (p : Child tree → Bool) :
    (tree.slots.drop start).find? p =
      tree.slots.find? fun child => decide (start ≤ child.slot.val) && p child := by
  have inRange := slots_range tree start tree.slots.length
  rw [List.take_length] at inRange
  rw [inRange, List.find?_filter]
  congr 1
  funext child
  have below : child.slot.val < tree.slots.length := by
    simp [slots]
  simp [below]

theorem find?_children_drop (tree : Tree ε) (start : Nat) (q : Tree ε → Bool) :
    (tree.children.drop start).find? q =
      (tree.slots.find? fun child =>
        decide (start ≤ child.slot.val) && q child.node).map Child.node := by
  rw [← find?_slots_drop tree start fun child => q child.node, ← map_node_slots, ← List.map_drop,
    List.find?_map]
  rfl

theorem find?_children_between (tree : Tree ε) (stop : Nat) (q : Tree ε → Bool) :
    (tree.children.take stop).tail.find? q =
      (tree.slots.find? fun child => decide (0 < child.slot.val) &&
        decide (child.slot.val < stop) && q child.node).map Child.node := by
  have between : (tree.children.take stop).tail =
      ((tree.slots.take stop).drop 1).map Child.node := by
    rw [List.drop_one, List.map_tail, List.map_take, map_node_slots]
  rw [between, slots_range, List.find?_map, List.find?_filter]
  simp [Nat.one_le_iff_ne_zero, Nat.pos_iff_ne_zero]

end Slots

/-! ### Insertions -/

/-- A comment without any part. -/
structure IsComment (node : Tree ε) : Prop where
  kind : node.kind = "comment"
  named : node.named = true
  field : node.field = none
  children : node.children = []

theorem IsComment.slots_eq {node : Tree ε} (comment : IsComment node) : node.slots = [] := by
  apply List.eq_nil_of_length_eq_zero
  simp [slots, comment.children]

structure SameShape (left right : Tree ε) : Prop where
  kind : right.kind = left.kind
  named : right.named = left.named
  field : right.field = left.field

/-- The children of one node have places among those of another, in which the same
order is kept; what stands in no such place is a comment. -/
structure Insertion (plain commented : Tree ε) where
  place : Fin plain.children.length ↪o Fin commented.children.length
  shape : ∀ slot, SameShape (plain.children.get slot) (commented.children.get (place slot))
  comment : ∀ slot, slot ∉ Set.range place → IsComment (commented.children.get slot)

namespace Insertion

variable {plain commented : Tree ε} (insertion : Insertion plain commented)

/-- An old child among the new children. -/
def lift (old : Child plain) : Child commented := ⟨insertion.place old.slot⟩

/-- A child that was added. -/
def IsNew (child : Child commented) : Prop := ∀ old, insertion.lift old ≠ child

/-- The old children ahead of a new one. -/
def ahead (child : Child commented) (old : Child plain) : Bool :=
  decide ((insertion.lift old).slot < child.slot)

theorem lift_injective : Function.Injective insertion.lift := by
  intro left right same
  have sameSlot := insertion.place.injective (congrArg Child.slot same)
  cases left
  cases right
  exact congrArg Child.mk sameSlot

theorem lift_le_lift {left right : Child plain} :
    (insertion.lift left).slot ≤ (insertion.lift right).slot ↔ left.slot ≤ right.slot :=
  insertion.place.le_iff_le

theorem lift_lt_lift {left right : Child plain} :
    (insertion.lift left).slot < (insertion.lift right).slot ↔ left.slot < right.slot :=
  insertion.place.lt_iff_lt

theorem lift_shape (old : Child plain) : SameShape old.node (insertion.lift old).node :=
  insertion.shape old.slot

theorem old_or_new (child : Child commented) :
    (∃ old, insertion.lift old = child) ∨ insertion.IsNew child := by
  by_cases old : ∃ old, insertion.lift old = child
  · exact Or.inl old
  · exact Or.inr (not_exists.mp old)

theorem IsNew.isComment {insertion : Insertion plain commented} {child : Child commented}
    (isNew : insertion.IsNew child) : IsComment child.node := by
  apply insertion.comment
  rintro ⟨slot, same⟩
  exact isNew ⟨slot⟩ (congrArg Child.mk same)

section Searches

variable {p : Child commented → Bool}

theorem filter_slots (lacking : ∀ child, insertion.IsNew child → p child = false) :
    commented.slots.filter p =
      (plain.slots.filter fun old => p (insertion.lift old)).map insertion.lift := by
  have ordered : ((plain.slots.filter fun old => p (insertion.lift old)).map
      insertion.lift).Pairwise fun left right => left.slot < right.slot := by
    rw [List.pairwise_map]
    exact ((pairwise_slots plain).filter _).imp fun less => insertion.lift_lt_lift.mpr less
  refine eq_of_ordered ((pairwise_slots commented).filter p) ordered fun child => ?_
  rw [mem_filter_slots, List.mem_map]
  constructor
  · intro holds
    rcases insertion.old_or_new child with ⟨old, rfl⟩ | isNew
    · exact ⟨old, mem_filter_slots.mpr holds, rfl⟩
    · rw [lacking child isNew] at holds
      cases holds
  · rintro ⟨old, member, rfl⟩
    exact (List.mem_filter.mp member).2

theorem find?_slots
    (behind : ∀ child, insertion.IsNew child → p child = true →
      ∃ old, p (insertion.lift old) = true ∧ insertion.ahead child old = true) :
    commented.slots.find? p =
      (plain.slots.find? fun old => p (insertion.lift old)).map insertion.lift := by
  cases found : plain.slots.find? fun old => p (insertion.lift old) with
  | none =>
      have lacking := find?_slots_eq_none_iff.mp found
      rw [Option.map_none, find?_slots_eq_none_iff]
      intro child
      rcases insertion.old_or_new child with ⟨old, rfl⟩ | isNew
      · exact lacking old
      · by_contra holds
        obtain ⟨old, oldHolds, -⟩ := behind child isNew (Bool.eq_true_of_not_eq_false holds)
        rw [lacking old] at oldHolds
        cases oldHolds
  | some first =>
      obtain ⟨holds, least⟩ := find?_slots_eq_some_iff.mp found
      rw [Option.map_some, find?_slots_eq_some_iff]
      refine ⟨holds, fun child childHolds => ?_⟩
      rcases insertion.old_or_new child with ⟨old, rfl⟩ | isNew
      · exact insertion.lift_le_lift.mpr (least old childHolds)
      · obtain ⟨old, oldHolds, isAhead⟩ := behind child isNew childHolds
        exact (insertion.lift_le_lift.mpr (least old oldHolds)).trans
          (of_decide_eq_true isAhead).le

theorem getLast?_slots
    (before : ∀ child, insertion.IsNew child → p child = true →
      ∃ old, p (insertion.lift old) = true ∧ insertion.ahead child old = false) :
    (commented.slots.filter p).getLast? =
      (plain.slots.filter fun old => p (insertion.lift old)).getLast?.map insertion.lift := by
  cases found : (plain.slots.filter fun old => p (insertion.lift old)).getLast? with
  | none =>
      have lacking := List.filter_eq_nil_iff.mp (List.getLast?_eq_none_iff.mp found)
      rw [Option.map_none, List.getLast?_eq_none_iff, List.filter_eq_nil_iff]
      intro child _ holds
      rcases insertion.old_or_new child with ⟨old, rfl⟩ | isNew
      · exact lacking old (mem_slots old) holds
      · obtain ⟨old, oldHolds, -⟩ := before child isNew holds
        exact lacking old (mem_slots old) oldHolds
  | some last =>
      obtain ⟨holds, greatest⟩ := getLast?_slots_eq_some_iff.mp found
      rw [Option.map_some, getLast?_slots_eq_some_iff]
      refine ⟨holds, fun child childHolds => ?_⟩
      rcases insertion.old_or_new child with ⟨old, rfl⟩ | isNew
      · exact insertion.lift_le_lift.mpr (greatest old childHolds)
      · obtain ⟨old, oldHolds, notAhead⟩ := before child isNew childHolds
        exact (not_lt.mp (of_decide_eq_false notAhead)).trans
          (insertion.lift_le_lift.mpr (greatest old oldHolds))

/-- Children of a property that comments lack are all old. -/
theorem filter_slots_node {q : Tree ε → Bool}
    (sameShape : ∀ {left right : Tree ε}, SameShape left right → q right = q left)
    (lacking : ∀ {node : Tree ε}, IsComment node → q node = false) :
    (commented.slots.filter fun child => q child.node) =
      (plain.slots.filter fun old => q old.node).map insertion.lift := by
  rw [insertion.filter_slots fun child isNew => lacking isNew.isComment]
  simp only [sameShape (insertion.lift_shape _)]

theorem find?_slots_node {q : Tree ε → Bool}
    (sameShape : ∀ {left right : Tree ε}, SameShape left right → q right = q left)
    (lacking : ∀ {node : Tree ε}, IsComment node → q node = false) :
    (commented.slots.find? fun child => q child.node) =
      (plain.slots.find? fun old => q old.node).map insertion.lift := by
  rw [← List.head?_filter, ← List.head?_filter, insertion.filter_slots_node sameShape lacking,
    List.head?_map]

theorem any_slots_node (insertion : Insertion plain commented) {q : Tree ε → Bool}
    (sameShape : ∀ {left right : Tree ε}, SameShape left right → q right = q left)
    (lacking : ∀ {node : Tree ε}, IsComment node → q node = false) :
    (commented.children.any q) = plain.children.any q := by
  have find := insertion.find?_slots_node sameShape lacking
  rw [← map_node_slots, ← map_node_slots plain, List.any_map, List.any_map, Bool.eq_iff_iff,
    List.any_eq_true, List.any_eq_true, ← List.find?_isSome, ← List.find?_isSome]
  exact Bool.eq_iff_iff.mp ((congrArg Option.isSome find).trans Option.isSome_map)

theorem fieldSlot?_eq (field : String) :
    commented.fieldSlot? field = (plain.fieldSlot? field).map insertion.lift := by
  refine insertion.find?_slots_node (q := fun node => node.field == some field) ?_ ?_
  · intro left right same
    rw [same.field]
  · intro node comment
    rw [comment.field]
    rfl

theorem filter_namedSlots {q : String → Bool} (lacking : q "comment" = false) :
    (commented.namedSlots.filter fun child => q child.node.kind) =
      (plain.namedSlots.filter fun old => q old.node.kind).map insertion.lift := by
  unfold namedSlots
  rw [List.filter_filter, List.filter_filter]
  refine insertion.filter_slots_node (q := fun node => q node.kind && node.named) ?_ ?_
  · intro left right same
    rw [same.kind, same.named]
  · intro node comment
    rw [comment.kind, lacking, Bool.false_and]

theorem kindSlot?_eq {kind : String} (other : kind ≠ "comment") :
    commented.kindSlot? kind = (plain.kindSlot? kind).map insertion.lift := by
  unfold kindSlot?
  rw [← List.head?_filter, ← List.head?_filter,
    insertion.filter_namedSlots (q := fun each => each == kind) (by simpa using other.symm),
    List.head?_map]

end Searches

section Positions

/-- The first child stays the first, unless a comment is added ahead of it. -/
theorem lift_pos_iff (behind : ∀ child, insertion.IsNew child →
      plain.slots.any (insertion.ahead child) = true) (old : Child plain) :
    0 < (insertion.lift old).slot.val ↔ 0 < old.slot.val := by
  constructor
  · intro positive
    by_contra isFirst
    have nonempty : 0 < commented.children.length :=
      (Nat.zero_le _).trans_lt (insertion.lift old).slot.isLt
    let first : Child commented := ⟨⟨0, nonempty⟩⟩
    have least : ∀ other : Child plain, first.slot < (insertion.lift other).slot := by
      intro other
      refine Fin.lt_def.mpr (lt_of_lt_of_le positive ?_)
      apply insertion.lift_le_lift.mpr
      show old.slot.val ≤ other.slot.val
      omega
    rcases insertion.old_or_new first with ⟨other, same⟩ | isNew
    · exact absurd (least other) (by rw [same]; exact lt_irrefl _)
    · obtain ⟨other, -, isAhead⟩ := List.any_eq_true.mp (behind first isNew)
      exact absurd (of_decide_eq_true isAhead) (least other).asymm
  · intro positive
    have nonempty : 0 < plain.children.length := (Nat.zero_le _).trans_lt old.slot.isLt
    let first : Child plain := ⟨⟨0, nonempty⟩⟩
    have later : first.slot < old.slot := Fin.lt_def.mpr positive
    exact (Nat.zero_le _).trans_lt (insertion.lift_lt_lift.mpr later)

theorem head?_slots (behind : ∀ child, insertion.IsNew child →
      plain.slots.any (insertion.ahead child) = true) :
    commented.slots.head? = plain.slots.head?.map insertion.lift := by
  have first := insertion.find?_slots (p := fun _ => true) fun child isNew _ => by
    obtain ⟨old, -, isAhead⟩ := List.any_eq_true.mp (behind child isNew)
    exact ⟨old, rfl, isAhead⟩
  simpa [← List.head?_filter] using first

theorem head?_namedSlots (behind : ∀ child, insertion.IsNew child →
      plain.namedSlots.any (insertion.ahead child) = true) :
    commented.namedSlots.head? = plain.namedSlots.head?.map insertion.lift := by
  have first := insertion.find?_slots (p := fun child => child.node.named) fun child isNew _ => by
    obtain ⟨old, listed, isAhead⟩ := List.any_eq_true.mp (behind child isNew)
    exact ⟨old, (insertion.lift_shape old).named.trans (mem_filter_slots.mp listed), isAhead⟩
  simp only [(insertion.lift_shape _).named, ← List.head?_filter] at first
  exact first

theorem getLast?_namedSlots (before : ∀ child, insertion.IsNew child →
      (plain.namedSlots.any fun old => !insertion.ahead child old) = true) :
    commented.namedSlots.getLast? = plain.namedSlots.getLast?.map insertion.lift := by
  have last := insertion.getLast?_slots (p := fun child => child.node.named)
    fun child isNew _ => by
      obtain ⟨old, listed, notAhead⟩ := List.any_eq_true.mp (before child isNew)
      exact ⟨old, (insertion.lift_shape old).named.trans (mem_filter_slots.mp listed),
        Bool.not_eq_true' _ ▸ notAhead⟩
  simp only [(insertion.lift_shape _).named] at last
  exact last

theorem namedSlots_of_unchanged (unchanged : ∀ child, ¬ insertion.IsNew child) :
    commented.namedSlots = plain.namedSlots.map insertion.lift := by
  unfold namedSlots
  rw [insertion.filter_slots fun child isNew => absurd isNew (unchanged child)]
  simp only [(insertion.lift_shape _).named]

theorem length_namedSlots_le (insertion : Insertion plain commented) :
    plain.namedSlots.length ≤ commented.namedSlots.length := by
  have subset : plain.namedSlots.map insertion.lift ⊆ commented.namedSlots := by
    intro child member
    obtain ⟨old, listed, rfl⟩ := List.mem_map.mp member
    exact mem_filter_slots.mpr
      ((insertion.lift_shape old).named.trans (mem_filter_slots.mp listed))
  have distinct := (nodup_namedSlots plain).map insertion.lift_injective
  have shorter := (List.subperm_of_subset distinct subset).length_le
  rwa [List.length_map] at shorter

theorem soleSlot?_eq (several : ∀ child, insertion.IsNew child → 2 ≤ plain.namedSlots.length) :
    commented.soleSlot? = plain.soleSlot?.map insertion.lift := by
  by_cases changed : ∃ child, insertion.IsNew child
  · obtain ⟨child, isNew⟩ := changed
    have many := several child isNew
    have manyMore := many.trans insertion.length_namedSlots_le
    have none : ∀ tree : Tree ε, 2 ≤ tree.namedSlots.length → tree.soleSlot? = none := by
      intro tree long
      unfold soleSlot?
      split
      next only listed => simp [listed] at long
      next => rfl
    rw [none plain many, none commented manyMore]
    rfl
  · have listed := insertion.namedSlots_of_unchanged (not_exists.mp changed)
    unfold soleSlot?
    rw [listed]
    rcases plain.namedSlots with _ | ⟨only, _ | ⟨second, rest⟩⟩ <;> rfl

end Positions

end Insertion

end ContractCalls.Syntax.Tree
