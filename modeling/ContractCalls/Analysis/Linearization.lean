import ContractCalls.Table

/-!
Contract: the order in which a contract's ancestors are searched.

Owns:
- the merge of the orders of several bases;
- the order of every contract of a base map, each computed once;
- the two ways in which there is none: a contract that is its own ancestor,
  and bases that ask for contradictory orders.

Bases are written from the most basic to the most derived, so their order is
reversed before the merge.
-/

set_option autoImplicit false

namespace ContractCalls.Analysis

/-- Why a base map has no linearization. -/
inductive LinearizationFailure where
  /-- The contract is its own ancestor. -/
  | cycle (contract : String)
  /-- The bases of the contract ask for contradictory orders. -/
  | noCommonOrder (contract : String)
  deriving Repr, DecidableEq

def LinearizationFailure.message : LinearizationFailure → String
  | cycle contract => "Circular inheritance found for contract " ++ contract
  | noCommonOrder contract => "Cannot find a C3 linearization for contract " ++ contract

namespace Linearization

/-- Direct bases by contract, as written. -/
abbrev BaseLists := Table String (List String)

/-- Orders by contract: the contract itself, then its ancestors, nearest first. -/
abbrev Orders := Table String (List String)

/-- Whether a name is in none of the tails. -/
def isFree (pending : List (List String)) (name : String) : Bool :=
  pending.all fun sequence => !sequence.tail.contains name

/-- The first head that is in none of the tails. -/
def candidate? (pending : List (List String)) : Option String :=
  (pending.filterMap List.head?).find? (isFree pending)

/-- A sequence without its head, if that is the given name. -/
def dropHead (name : String) (sequence : List String) : List String :=
  if sequence.head? = some name then sequence.tail else sequence

/-- The sequences once a name has been taken from their heads. -/
def advance (name : String) (pending : List (List String)) : List (List String) :=
  pending.map (dropHead name)

/-- The number of names that are still to be merged. -/
def pendingSize (pending : List (List String)) : Nat := pending.flatten.length

theorem pendingSize_advance_le (name : String) (pending : List (List String)) :
    pendingSize (advance name pending) ≤ pendingSize pending := by
  induction pending with
  | nil => simp [pendingSize, advance]
  | cons sequence rest inductionHypothesis =>
    have shorter : (dropHead name sequence).length ≤ sequence.length := by
      unfold dropHead
      split <;> simp
    simp only [pendingSize, advance, List.map_cons, List.flatten_cons,
      List.length_append] at inductionHypothesis ⊢
    omega

theorem pendingSize_advance_lt (name : String) (pending : List (List String))
    (chosen : name ∈ pending.filterMap List.head?) :
    pendingSize (advance name pending) < pendingSize pending := by
  induction pending with
  | nil => simp at chosen
  | cons sequence rest inductionHypothesis =>
    have restShorter := pendingSize_advance_le name rest
    by_cases here : sequence.head? = some name
    · have shorter : (dropHead name sequence).length < sequence.length := by
        cases sequence with
        | nil => simp at here
        | cons head tail => simp [dropHead, here]
      simp only [pendingSize, advance, List.map_cons, List.flatten_cons,
        List.length_append] at restShorter ⊢
      omega
    · have later : name ∈ rest.filterMap List.head? := by
        simp only [List.mem_filterMap, List.mem_cons] at chosen ⊢
        obtain ⟨found, member, isHead⟩ := chosen
        rcases member with rfl | member
        · exact absurd isHead here
        · exact ⟨found, member, isHead⟩
      have shorter := inductionHypothesis later
      have same : (dropHead name sequence).length ≤ sequence.length := by
        unfold dropHead
        split <;> simp
      simp only [pendingSize, advance, List.map_cons, List.flatten_cons,
        List.length_append] at shorter ⊢
      omega

theorem mem_heads_of_candidate? {pending : List (List String)} {name : String}
    (found : candidate? pending = some name) : name ∈ pending.filterMap List.head? :=
  List.mem_of_find?_eq_some found

/-- Merge sequences: take the first head that is in none of the tails, as long
as names are left. -/
def merge (pending : List (List String)) : Option (List String) :=
  if pending.all List.isEmpty then some []
  else
    match found : candidate? pending with
    | none => none
    | some name =>
      have := pendingSize_advance_lt name pending (mem_heads_of_candidate? found)
      (merge (advance name pending)).map (name :: ·)
termination_by pendingSize pending

/-- The direct bases of a contract, nearest first.  A name without an entry has
none. -/
def nearestBases (bases : BaseLists) (name : String) : List String :=
  ((bases.find? name).getD []).reverse

/-- The contracts with an entry that are not being visited. -/
def unvisited (bases : BaseLists) (visiting : List String) : List String :=
  bases.keys.filter fun key => !visiting.contains key

theorem length_filter_lt {α : Type} (keep keepLess : α → Bool) (member : α) (items : List α)
    (present : member ∈ items) (kept : keep member = true) (dropped : keepLess member = false)
    (less : ∀ item, keepLess item = true → keep item = true) :
    (items.filter keepLess).length < (items.filter keep).length := by
  induction items with
  | nil => simp at present
  | cons head tail inductionHypothesis =>
    have tailLe : (tail.filter keepLess).length ≤ (tail.filter keep).length := by
      clear inductionHypothesis present
      induction tail with
      | nil => simp
      | cons item rest restLe =>
        by_cases dropItem : keepLess item = true
        · simp [dropItem, less item dropItem, restLe]
        · by_cases keepItem : keep item = true <;> simp [dropItem, keepItem] <;> omega
    rcases List.mem_cons.mp present with rfl | later
    · simp [kept, dropped]
      omega
    · have tailLt := inductionHypothesis later
      by_cases dropHere : keepLess head = true
      · simp [dropHere, less head dropHere, tailLt]
      · by_cases keepHere : keep head = true <;> simp [dropHere, keepHere] <;> omega

/-- Visiting one more contract that has bases leaves fewer to visit. -/
theorem length_unvisited_lt (bases : BaseLists) (visiting : List String) (name : String)
    (fresh : visiting.contains name = false) (hasBases : nearestBases bases name ≠ []) :
    (unvisited bases (name :: visiting)).length < (unvisited bases visiting).length := by
  have listed : name ∈ bases.keys := by
    apply (Table.contains_iff_mem_keys bases name).mp
    unfold Table.contains
    cases found : bases.find? name with
    | none => simp [nearestBases, found] at hasBases
    | some _ => rfl
  apply length_filter_lt _ _ name _ listed
  · simpa using fresh
  · simp
  · intro item keepItem
    simp only [List.contains_cons, Bool.not_or, Bool.and_eq_true] at keepItem
    exact keepItem.2

/-- One more than the number of all bases. -/
def width (bases : BaseLists) : Nat := bases.values.flatten.length + 1

theorem length_nearestBases_lt (bases : BaseLists) (name : String) :
    (nearestBases bases name).length < width bases := by
  unfold nearestBases width
  rw [List.length_reverse]
  cases found : bases.find? name with
  | none => simp
  | some listed =>
    have member : listed ∈ bases.values := List.mem_map_of_mem (Table.mem_of_lookup found)
    exact Nat.lt_succ_of_le (List.sublist_flatten_of_mem member).length_le

/-- What is left to visit, counted so that bases come with the contract they are of. -/
def effort (bases : BaseLists) (visiting : List String) : Nat :=
  (unvisited bases visiting).length * width bases

/-- Visiting the bases of one more contract takes less effort than visiting it. -/
theorem effort_add_lt (bases : BaseLists) (visiting : List String) (name : String)
    (fresh : visiting.contains name = false) (hasBases : nearestBases bases name ≠ []) :
    effort bases (name :: visiting) + (nearestBases bases name).length <
      effort bases visiting := by
  have fewer := length_unvisited_lt bases visiting name fresh hasBases
  calc
    effort bases (name :: visiting) + (nearestBases bases name).length
        < effort bases (name :: visiting) + width bases :=
      Nat.add_lt_add_left (length_nearestBases_lt bases name) _
    _ = ((unvisited bases (name :: visiting)).length + 1) * width bases :=
      (Nat.succ_mul _ _).symm
    _ ≤ effort bases visiting := Nat.mul_le_mul_right _ fewer

mutual

/-- The order of one contract, given those already known.  `visiting` holds the
contracts whose orders are waiting for this one. -/
def orderOf (bases : BaseLists) (visiting : List String) (known : Orders) (name : String) :
    Except LinearizationFailure (List String × Orders) :=
  match known.find? name with
  | some order => .ok (order, known)
  | none =>
    if fresh : visiting.contains name = true then .error (.cycle name)
    else if hasBases : nearestBases bases name = [] then
      .ok ([name], known.insert name [name])
    else
      have := effort_add_lt bases visiting name (by simpa using fresh) hasBases
      do
        let (sequences, known) ←
          ordersOf bases (name :: visiting) known (nearestBases bases name)
        match merge (sequences ++ [nearestBases bases name]) with
        | none => .error (.noCommonOrder name)
        | some ancestors => return (name :: ancestors, known.insert name (name :: ancestors))
termination_by effort bases visiting

/-- The orders of several contracts, from left to right. -/
def ordersOf (bases : BaseLists) (visiting : List String) (known : Orders)
    (names : List String) : Except LinearizationFailure (List (List String) × Orders) :=
  match names with
  | [] => .ok ([], known)
  | name :: later => do
    let (order, known) ← orderOf bases visiting known name
    let (orders, known) ← ordersOf bases visiting known later
    return (order :: orders, known)
termination_by effort bases visiting + names.length

end

/-- The orders of all contracts of a base map, in the order in which they are
found: the bases of a contract before the contract. -/
def linearize (bases : BaseLists) : Except LinearizationFailure Orders :=
  bases.keys.foldlM (fun known name => do
    let (_, known) ← orderOf bases [] known name
    return known) {}

end Linearization

end ContractCalls.Analysis
