import ContractCalls.Proofs.Linearization.Cache
import Mathlib.Data.List.Nodup

/-!
Contract: the orders of a base map, as its users see them.

Owns:
- what the computed orders contain and keep;
- when there are orders at all, and what each failure means.

Both are read off the ends of the runs; no step of the computation is opened
here.
-/

set_option autoImplicit false

namespace ContractCalls.Analysis.Linearization

open Relation

/-! ### What the orders contain -/

theorem Mentioned.of_reflTransGen {bases : BaseLists} {name ancestor : String}
    (mentioned : Mentioned bases name) (inherited : ReflTransGen (DirectBase bases) name ancestor) :
    Mentioned bases ancestor := by
  cases inherited with
  | refl => exact mentioned
  | tail _ direct => exact Or.inr ⟨_, direct⟩

theorem find?_linearize_of_mem {bases : BaseLists} {orders : Orders} {name ancestor : String}
    {order : List String} (success : linearize bases = .ok orders)
    (found : orders.find? name = some order) (present : ancestor ∈ order) :
    ∃ ancestorOrder, orders.find? ancestor = some ancestorOrder ∧ ancestorOrder.Sublist order := by
  obtain ⟨mentioned, isOrder⟩ := (find?_linearize_iff success name order).mp found
  obtain ⟨inherited, ancestorOrder, isAncestorOrder, kept⟩ := isOrder.exists_of_mem present
  have ancestorFound := (find?_linearize_iff success ancestor ancestorOrder).mpr
    ⟨mentioned.of_reflTransGen inherited, isAncestorOrder⟩
  exact ⟨ancestorOrder, ancestorFound, kept⟩

/-- Computed orders start with their contract, list it and its ancestors once
each, and keep its bases, nearest first, and the order of every ancestor.  There
is one for every name that the base map mentions and for no other. -/
theorem linearize_sound {bases : BaseLists} {orders : Orders}
    (success : linearize bases = .ok orders) :
    (∀ name order, orders.find? name = some order →
      order.head? = some name ∧
      order.Nodup ∧
      (∀ member, member ∈ order ↔ member = name ∨ TransGen (DirectBase bases) name member) ∧
      (nearestBases bases name).Sublist order ∧
      ∀ ancestor ∈ order, ∃ ancestorOrder,
        orders.find? ancestor = some ancestorOrder ∧ ancestorOrder.Sublist order) ∧
    ∀ name, name ∈ orders.keys ↔ name ∈ bases.keys ∨ ∃ derived, DirectBase bases derived name := by
  constructor
  · intro name order found
    have isOrder := ((find?_linearize_iff success name order).mp found).2
    refine ⟨isOrder.head?_eq, isOrder.distinct, isOrder.mem_iff, isOrder.keeps_nearestBases, ?_⟩
    intro ancestor present
    exact find?_linearize_of_mem success found present
  · intro name
    have outcome := linearize_outcome bases
    rw [success] at outcome
    rw [← Table.contains_iff_mem_keys]
    exact outcome.2 name

/-- Two bases with a common ancestor that is not declared itself. -/
def diamond : BaseLists := ⟨[("Top", ["Left", "Right"]), ("Left", ["Root"]), ("Right", ["Root"])]⟩

theorem linearize_sound_diamond :
    (linearize diamond = .ok ⟨[("Root", ["Root"]), ("Right", ["Right", "Root"]),
      ("Left", ["Left", "Root"]), ("Top", ["Top", "Right", "Left", "Root"])]⟩) ∧
    ∀ member, member ∈ ["Top", "Right", "Left", "Root"] ↔
      member = "Top" ∨ TransGen (DirectBase diamond) "Top" member := by
  have success : linearize diamond = .ok ⟨[("Root", ["Root"]), ("Right", ["Right", "Root"]),
      ("Left", ["Left", "Root"]), ("Top", ["Top", "Right", "Left", "Root"])]⟩ := by
    decide +kernel
  refine ⟨success, ?_⟩
  exact ((linearize_sound success).1 "Top" ["Top", "Right", "Left", "Root"] rfl).2.2.1

/-! ### When there are orders -/

/-- The computation always ends.  It ends with orders exactly if no contract is
its own ancestor and every contract with bases has a common order; it names a
contract on a cycle only if that contract is its own ancestor; and it names one
without a common order only if all its bases have orders and those contradict
each other. -/
theorem linearize_fails_iff (bases : BaseLists) :
    ((∃ orders, linearize bases = .ok orders) ↔
      (∀ name, ¬TransGen (DirectBase bases) name name) ∧
        ∀ name, (∃ base, DirectBase bases name base) → HasCommonOrder bases name) ∧
    (∀ contract, linearize bases = .error (.cycle contract) →
      TransGen (DirectBase bases) contract contract) ∧
    ((∀ name, ¬TransGen (DirectBase bases) name name) →
      ∀ contract, linearize bases ≠ .error (.cycle contract)) ∧
    ∀ contract, linearize bases = .error (.noCommonOrder contract) →
      (∀ base, DirectBase bases contract base → ∃ order, AncestorOrder bases base order) ∧
        ¬HasCommonOrder bases contract := by
  refine ⟨⟨?_, ?_⟩, ?_, ?_, ?_⟩
  · rintro ⟨orders, success⟩
    have ordered := (linearize_succeeds_iff bases).mp ⟨orders, success⟩
    refine ⟨not_cyclic_of_ordered ordered, ?_⟩
    rintro name ⟨base, direct⟩
    exact hasCommonOrder_of_ordered ordered direct
  · rintro ⟨acyclic, consistent⟩
    exact exists_linearize acyclic consistent
  · intro contract failed
    exact justified_of_linearize failed
  · intro acyclic contract failed
    exact acyclic contract (justified_of_linearize failed)
  · intro contract failed
    exact justified_of_linearize failed

/-- Two bases that are asked for in both orders. -/
def crossed : BaseLists :=
  ⟨[("First", ["Left", "Right"]), ("Second", ["Right", "Left"]), ("Both", ["First", "Second"])]⟩

theorem linearize_fails_crossed :
    linearize crossed = .error (.noCommonOrder "Both") ∧
      (∃ order, AncestorOrder crossed "First" order) ∧
      ¬HasCommonOrder crossed "Both" := by
  have failed : linearize crossed = .error (.noCommonOrder "Both") := by decide +kernel
  have reason := (linearize_fails_iff crossed).2.2.2 "Both" failed
  exact ⟨failed, reason.1 "First" ⟨_, rfl, by simp⟩, reason.2⟩

end ContractCalls.Analysis.Linearization
