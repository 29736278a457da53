import ContractCalls.Proofs.Linearization.Merge
import Mathlib.Logic.Relation

/-!
Contract: the ancestor order of a contract, defined without a cache.

Owns:
- the direct-base relation of a base map;
- `AncestorOrder`, the recursive rule: a contract, followed by the merge of the
  orders of its bases and of the bases themselves;
- its laws: a contract has at most one order, and that order lists the contract
  and its ancestors once each and keeps the orders of all of them;
- the exact condition for a contract to have an order.

Does not own: how the orders of a whole base map are computed.
-/

set_option autoImplicit false

namespace ContractCalls.Analysis.Linearization

open Relation

/-- The second contract is written in the base list of the first.  A name
without an entry has no bases. -/
def DirectBase (bases : BaseLists) (derived base : String) : Prop :=
  ∃ written, bases.find? derived = some written ∧ base ∈ written

theorem mem_nearestBases_iff (bases : BaseLists) (derived base : String) :
    base ∈ nearestBases bases derived ↔ DirectBase bases derived base := by
  unfold nearestBases DirectBase
  cases bases.find? derived <;> simp

theorem nearestBases_eq_nil {bases : BaseLists} {name : String}
    (noBase : ¬∃ base, DirectBase bases name base) : nearestBases bases name = [] := by
  apply List.eq_nil_iff_forall_not_mem.mpr
  intro base listed
  exact noBase ⟨base, (mem_nearestBases_iff bases name base).mp listed⟩

theorem DirectBase.isKey {bases : BaseLists} {derived base : String}
    (direct : DirectBase bases derived base) : derived ∈ bases.keys := by
  obtain ⟨written, found, _⟩ := direct
  rw [← Table.contains_iff_mem_keys, Table.contains, found]
  rfl

/-- What the order of a contract has to keep: the orders of its bases, and the
bases themselves. -/
def demands (bases : BaseLists) (orders : String → List String) (name : String) :
    List (List String) :=
  (nearestBases bases name).map orders ++ [nearestBases bases name]

/-- The ancestor order of a contract: itself, then the merge of what its bases
demand.  `orders` gives the order of each base. -/
inductive AncestorOrder (bases : BaseLists) : String → List String → Prop where
  | merged {name : String} {ancestors : List String} (orders : String → List String)
      (baseOrders : ∀ base, DirectBase bases name base → AncestorOrder bases base (orders base))
      (success : merge (demands bases orders name) = some ancestors) :
      AncestorOrder bases name (name :: ancestors)

section Laws

variable {bases : BaseLists} {name : String} {order : List String}

theorem demands_congr {left right : String → List String}
    (agree : ∀ base, DirectBase bases name base → left base = right base) :
    demands bases left name = demands bases right name := by
  unfold demands
  congr 1
  apply List.map_congr_left
  intro base member
  exact agree base ((mem_nearestBases_iff bases name base).mp member)

theorem order_mem_demands (orders : String → List String) {base : String}
    (direct : DirectBase bases name base) : orders base ∈ demands bases orders name :=
  List.mem_append_left _
    (List.mem_map_of_mem ((mem_nearestBases_iff bases name base).mpr direct))

theorem nearestBases_mem_demands (orders : String → List String) :
    nearestBases bases name ∈ demands bases orders name :=
  List.mem_append_right _ (List.mem_singleton_self _)

theorem mem_demands_cases {orders : String → List String} {sequence : List String}
    (member : sequence ∈ demands bases orders name) :
    (∃ base, DirectBase bases name base ∧ sequence = orders base) ∨
      sequence = nearestBases bases name := by
  rcases List.mem_append.mp member with ofBase | themselves
  · obtain ⟨base, listed, equal⟩ := List.mem_map.mp ofBase
    exact Or.inl ⟨base, (mem_nearestBases_iff bases name base).mp listed, equal.symm⟩
  · exact Or.inr (List.mem_singleton.mp themselves)

namespace AncestorOrder

theorem ofNoBases (noBases : nearestBases bases name = []) : AncestorOrder bases name [name] := by
  refine .merged (fun _ => []) ?_ ?_
  · intro base direct
    rw [← mem_nearestBases_iff, noBases] at direct
    simp at direct
  · apply merge_of_done
    simp [demands, noBases]

theorem head?_eq (isOrder : AncestorOrder bases name order) : order.head? = some name := by
  cases isOrder
  rfl

theorem self_mem (isOrder : AncestorOrder bases name order) : name ∈ order :=
  List.mem_of_mem_head? isOrder.head?_eq

/-- A contract has at most one order. -/
theorem unique {left right : List String} (first : AncestorOrder bases name left)
    (second : AncestorOrder bases name right) : left = right := by
  induction first generalizing right with
  | merged orders _ success inductionHypothesis =>
      obtain ⟨otherOrders, otherBaseOrders, otherSuccess⟩ := second
      have sameDemands := demands_congr fun base direct =>
        inductionHypothesis base direct (otherBaseOrders base direct)
      rw [sameDemands, otherSuccess] at success
      rw [Option.some.inj success]

theorem not_cyclic (isOrder : AncestorOrder bases name order) :
    ¬TransGen (DirectBase bases) name name := by
  induction isOrder with
  | merged _ _ _ inductionHypothesis =>
      intro cycle
      -- A cycle through the contract is also a cycle through its next base.
      obtain ⟨base, direct, back⟩ := TransGen.head'_iff.mp cycle
      exact inductionHypothesis base direct (TransGen.tail' back direct)

theorem exists_of_directBase (isOrder : AncestorOrder bases name order) {base : String}
    (direct : DirectBase bases name base) :
    ∃ baseOrder, AncestorOrder bases base baseOrder ∧ baseOrder.Sublist order := by
  obtain ⟨orders, baseOrders, success⟩ := isOrder
  refine ⟨orders base, baseOrders base direct, ?_⟩
  exact ((isCommonOrder_merge success).keeps _ (order_mem_demands orders direct)).cons _

theorem keeps_nearestBases (isOrder : AncestorOrder bases name order) :
    (nearestBases bases name).Sublist order := by
  obtain ⟨orders, _, success⟩ := isOrder
  exact ((isCommonOrder_merge success).keeps _ (nearestBases_mem_demands orders)).cons _

theorem eq_or_mem_of_mem (isOrder : AncestorOrder bases name order) {member : String}
    (present : member ∈ order) :
    member = name ∨ ∃ base baseOrder, DirectBase bases name base ∧
      AncestorOrder bases base baseOrder ∧ member ∈ baseOrder := by
  obtain ⟨orders, baseOrders, success⟩ := isOrder
  rcases List.mem_cons.mp present with itself | ancestor
  · exact Or.inl itself
  · obtain ⟨sequence, demanded, held⟩ := (mem_merge_iff success member).mp ancestor
    rcases mem_demands_cases demanded with ⟨base, direct, rfl⟩ | rfl
    · exact Or.inr ⟨base, orders base, direct, baseOrders base direct, held⟩
    · have direct := (mem_nearestBases_iff bases name member).mp held
      have isOrder := baseOrders member direct
      exact Or.inr ⟨member, orders member, direct, isOrder, isOrder.self_mem⟩

theorem mem_of_reflTransGen {member : String} (isOrder : AncestorOrder bases name order)
    (inherited : ReflTransGen (DirectBase bases) name member) : member ∈ order := by
  induction inherited using ReflTransGen.head_induction_on generalizing order with
  | refl => exact isOrder.self_mem
  | head direct _ inductionHypothesis =>
      obtain ⟨baseOrder, isBaseOrder, kept⟩ := isOrder.exists_of_directBase direct
      exact kept.subset (inductionHypothesis isBaseOrder)

/-- Every member of an order has an order of its own, which is kept, and is the
contract or one of its ancestors. -/
theorem exists_of_mem (isOrder : AncestorOrder bases name order) {member : String}
    (present : member ∈ order) :
    ReflTransGen (DirectBase bases) name member ∧
      ∃ memberOrder, AncestorOrder bases member memberOrder ∧ memberOrder.Sublist order := by
  induction isOrder with
  | @merged name ancestors orders baseOrders success inductionHypothesis =>
      have isOrder : AncestorOrder bases name (name :: ancestors) :=
        .merged orders baseOrders success
      rcases isOrder.eq_or_mem_of_mem present with rfl | ⟨base, baseOrder, direct, isBase, held⟩
      · exact ⟨.refl, _, isOrder, List.Sublist.refl _⟩
      · -- The order of the base is the one that the induction speaks of.
        rw [isBase.unique (baseOrders base direct)] at held
        obtain ⟨inherited, memberOrder, isMemberOrder, kept⟩ :=
          inductionHypothesis base direct held
        refine ⟨.head direct inherited, memberOrder, isMemberOrder, kept.trans ?_⟩
        exact ((isCommonOrder_merge success).keeps _ (order_mem_demands orders direct)).cons _

/-- An order lists the contract and its ancestors, and nothing else. -/
theorem mem_iff (isOrder : AncestorOrder bases name order) (member : String) :
    member ∈ order ↔ member = name ∨ TransGen (DirectBase bases) name member := by
  rw [← reflTransGen_iff_eq_or_transGen]
  exact ⟨fun present => (isOrder.exists_of_mem present).1, isOrder.mem_of_reflTransGen⟩

theorem distinct (isOrder : AncestorOrder bases name order) : order.Nodup := by
  have acyclic := isOrder.not_cyclic
  obtain ⟨orders, baseOrders, success⟩ := isOrder
  refine List.nodup_cons.mpr ⟨?_, (isCommonOrder_merge success).distinct⟩
  -- The contract cannot come back among its own ancestors.
  intro again
  obtain ⟨sequence, demanded, held⟩ := (mem_merge_iff success name).mp again
  rcases mem_demands_cases demanded with ⟨base, direct, rfl⟩ | rfl
  · have back := ((baseOrders base direct).exists_of_mem held).1
    exact acyclic (TransGen.head' direct back)
  · exact acyclic (.single ((mem_nearestBases_iff bases name name).mp held))

/-- Directly behind the contract stands its nearest base, the last one written. -/
theorem head?_nearestBases {second : String} {rest : List String}
    (isOrder : AncestorOrder bases name (name :: second :: rest)) :
    (nearestBases bases name).head? = some second := by
  cases isOrder with
  | merged orders baseOrders success =>
      have common := isCommonOrder_merge success
      have kept := common.keeps _ (nearestBases_mem_demands orders)
      obtain ⟨sequence, demanded, isHead⟩ := (mergesTo_of_merge success).exists_head
      rcases mem_demands_cases demanded with ⟨base, direct, rfl⟩ | rfl
      · rw [(baseOrders base direct).head?_eq] at isHead
        obtain rfl := Option.some.inj isHead
        have listed := (mem_nearestBases_iff bases name base).mpr direct
        -- A base that comes first without being the nearest would come again
        -- behind the nearest one.
        generalize nearestBases bases name = nearest at kept listed
        cases kept with
        | cons _ keptLater =>
            exact absurd (keptLater.subset listed) (List.nodup_cons.mp common.distinct).1
        | cons_cons _ _ => rfl
      · exact isHead

end AncestorOrder

end Laws

theorem not_cyclic_of_ordered {bases : BaseLists}
    (ordered : ∀ name ∈ bases.keys, ∃ order, AncestorOrder bases name order) (name : String) :
    ¬TransGen (DirectBase bases) name name := by
  intro cycle
  obtain ⟨base, direct, _⟩ := TransGen.head'_iff.mp cycle
  obtain ⟨order, isOrder⟩ := ordered name direct.isKey
  exact isOrder.not_cyclic cycle

/-! ### When a contract has an order -/

/-- There is a list without repetition that keeps the orders of the bases of a
contract and the bases themselves, nearest first. -/
def HasCommonOrder (bases : BaseLists) (name : String) : Prop :=
  ∃ common : List String, common.Nodup ∧
    (∀ base, DirectBase bases name base →
      ∃ order, AncestorOrder bases base order ∧ order.Sublist common) ∧
    (nearestBases bases name).Sublist common

theorem hasCommonOrder_iff {bases : BaseLists} {name : String} {orders : String → List String}
    (baseOrders : ∀ base, DirectBase bases name base → AncestorOrder bases base (orders base)) :
    HasCommonOrder bases name ↔ ∃ common, IsCommonOrder (demands bases orders name) common := by
  constructor
  · rintro ⟨common, distinct, keepsOrders, keepsBases⟩
    refine ⟨common, distinct, ?_⟩
    intro sequence demanded
    rcases mem_demands_cases demanded with ⟨base, direct, rfl⟩ | rfl
    · obtain ⟨order, isOrder, kept⟩ := keepsOrders base direct
      rw [(baseOrders base direct).unique isOrder]
      exact kept
    · exact keepsBases
  · rintro ⟨common, order⟩
    refine ⟨common, order.distinct, ?_, order.keeps _ (nearestBases_mem_demands orders)⟩
    intro base direct
    exact ⟨orders base, baseOrders base direct, order.keeps _ (order_mem_demands orders direct)⟩

theorem AncestorOrder.hasCommonOrder {bases : BaseLists} {name : String} {order : List String}
    (isOrder : AncestorOrder bases name order) : HasCommonOrder bases name :=
  ⟨order, isOrder.distinct, fun _ direct => isOrder.exists_of_directBase direct,
    isOrder.keeps_nearestBases⟩

theorem hasCommonOrder_of_ordered {bases : BaseLists}
    (ordered : ∀ name ∈ bases.keys, ∃ order, AncestorOrder bases name order) {name base : String}
    (direct : DirectBase bases name base) : HasCommonOrder bases name := by
  obtain ⟨order, isOrder⟩ := ordered name direct.isKey
  exact isOrder.hasCommonOrder

theorem hasCommonOrder_of_noBase {bases : BaseLists} {name : String}
    (noBase : ¬∃ base, DirectBase bases name base) : HasCommonOrder bases name :=
  (AncestorOrder.ofNoBases (nearestBases_eq_nil noBase)).hasCommonOrder

end ContractCalls.Analysis.Linearization
