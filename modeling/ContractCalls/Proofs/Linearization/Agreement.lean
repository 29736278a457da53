import ContractCalls.Proofs.Linearization.Cache

/-!
Contract: the orders of a base map depend on its look-ups alone.

Owns base maps that agree on every look-up, such as reorderings of one another:
they are linearized together, and to orders that agree on every look-up.
-/

set_option autoImplicit false

namespace ContractCalls.Analysis.Linearization

section Agreement

variable {left right : BaseLists} (agree : ∀ name, left.find? name = right.find? name)

include agree

theorem directBase_congr (derived base : String) :
    DirectBase left derived base ↔ DirectBase right derived base := by
  unfold DirectBase
  rw [agree]

theorem demands_agree (orders : String → List String) (name : String) :
    demands left orders name = demands right orders name := by
  unfold demands nearestBases
  rw [agree]

theorem mem_keys_congr (name : String) : name ∈ left.keys ↔ name ∈ right.keys := by
  rw [← Table.contains_iff_mem_keys, ← Table.contains_iff_mem_keys, Table.contains, agree]
  rfl

theorem mentioned_congr (name : String) : Mentioned left name ↔ Mentioned right name := by
  unfold Mentioned
  rw [mem_keys_congr agree]
  simp only [directBase_congr agree]

theorem AncestorOrder.transfer {name : String} {order : List String}
    (isOrder : AncestorOrder left name order) : AncestorOrder right name order := by
  induction isOrder with
  | merged orders _ success inductionHypothesis =>
      rw [demands_agree agree] at success
      refine .merged orders ?_ success
      intro base direct
      exact inductionHypothesis base ((directBase_congr agree _ base).mpr direct)

theorem ancestorOrder_congr (name : String) (order : List String) :
    AncestorOrder left name order ↔ AncestorOrder right name order :=
  ⟨fun isOrder => isOrder.transfer agree,
    fun isOrder => isOrder.transfer fun other => (agree other).symm⟩

theorem linearize_succeeds_congr :
    (∃ orders, linearize left = .ok orders) ↔ ∃ orders, linearize right = .ok orders := by
  rw [linearize_succeeds_iff, linearize_succeeds_iff]
  simp only [mem_keys_congr agree, ancestorOrder_congr agree]

theorem find?_linearize_congr {leftOrders rightOrders : Orders}
    (leftSuccess : linearize left = .ok leftOrders)
    (rightSuccess : linearize right = .ok rightOrders) (name : String) :
    leftOrders.find? name = rightOrders.find? name := by
  apply Option.ext
  intro order
  rw [find?_linearize_iff leftSuccess, find?_linearize_iff rightSuccess, mentioned_congr agree,
    ancestorOrder_congr agree]

end Agreement

end ContractCalls.Analysis.Linearization
