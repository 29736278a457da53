import ContractCalls.Proofs.Linearization.Agreement
import ContractCalls.Proofs.TableEntries
import Mathlib.Order.MinMax

/-!
Contract: the cache of the computation of orders cannot be seen.

Owns:
- `uncachedOrder`, the recursion as it is written in textbooks: it remembers
  nothing, so it computes shared ancestors again, and on a cycle no depth is enough
  for it;
- its agreement with the ancestor orders, and so with the orders that the
  computation ends with;
- the order in which orders are stored: bases before what is derived from them.

Does not own: base maps that agree on every look-up.
-/

set_option autoImplicit false

namespace ContractCalls.Analysis.Linearization

/-! ### The recursion without a cache -/

/-- The order of a contract by recursion over its bases alone, to a depth.  There is
none if a merge fails on the way or the recursion is not over at that depth. -/
def uncachedOrder (bases : BaseLists) : Nat → String → Option (List String)
  | 0, _ => none
  | depth + 1, name => do
    let orders ← (nearestBases bases name).mapM (uncachedOrder bases depth)
    let ancestors ← merge (orders ++ [nearestBases bases name])
    return name :: ancestors

/-- The recursion ends with an order: it finds it at every depth from some depth on. -/
def EndsUncached (bases : BaseLists) (name : String) (order : List String) : Prop :=
  ∃ depth, ∀ deeper ≥ depth, uncachedOrder bases deeper name = some order

theorem mapM_eq_some_iff {α β : Type} (find : α → Option β) (items : List α) (results : List β) :
    items.mapM find = some results ↔ items.map find = results.map some := by
  induction items generalizing results with
  | nil => cases results <;> simp
  | cons item rest inductionHypothesis =>
      rw [List.mapM_cons, List.map_cons]
      cases found : find item with
      | none => cases results <;> simp
      | some result =>
          cases results with
          | nil => cases List.mapM find rest <;> simp
          | cons first later =>
              rw [List.map_cons, List.cons.injEq, ← inductionHypothesis later]
              cases List.mapM find rest <;> simp

/-- Where the recursion ends for every name of a list, one depth is enough for all. -/
theorem exists_common_depth {bases : BaseLists} {orders : String → List String}
    {names : List String} (each : ∀ name ∈ names, EndsUncached bases name (orders name)) :
    ∃ depth, ∀ deeper ≥ depth, ∀ name ∈ names,
      uncachedOrder bases deeper name = some (orders name) := by
  induction names with
  | nil => exact ⟨0, by simp⟩
  | cons name rest inductionHypothesis =>
      obtain ⟨⟨depth, found⟩, eachLater⟩ := List.forall_mem_cons.mp each
      obtain ⟨laterDepth, foundLater⟩ := inductionHypothesis eachLater
      refine ⟨max depth laterDepth, fun deeper enough => ?_⟩
      exact List.forall_mem_cons.mpr ⟨found deeper (le_of_max_le_left enough),
        foundLater deeper (le_of_max_le_right enough)⟩

theorem endsUncached_of_ancestorOrder {bases : BaseLists} {name : String} {order : List String}
    (isOrder : AncestorOrder bases name order) : EndsUncached bases name order := by
  induction isOrder with
  | @merged name ancestors orders _ success inductionHypothesis =>
      have ofBases : ∀ base ∈ nearestBases bases name, EndsUncached bases base (orders base) := by
        intro base listed
        exact inductionHypothesis base ((mem_nearestBases_iff bases name base).mp listed)
      obtain ⟨depth, found⟩ := exists_common_depth ofBases
      refine ⟨depth + 1, fun deeper enough => ?_⟩
      obtain ⟨below, rfl⟩ : ∃ below, deeper = below + 1 := ⟨deeper - 1, by omega⟩
      have computed : (nearestBases bases name).mapM (uncachedOrder bases below) =
          some ((nearestBases bases name).map orders) := by
        rw [mapM_eq_some_iff, List.map_map]
        exact List.map_congr_left (found below (by omega))
      rw [demands] at success
      rw [uncachedOrder, computed, Option.bind_eq_bind, Option.bind_some, success]
      rfl

theorem ancestorOrder_of_uncachedOrder {bases : BaseLists} {depth : Nat} {name : String}
    {order : List String} (found : uncachedOrder bases depth name = some order) :
    AncestorOrder bases name order := by
  induction depth generalizing name order with
  | zero => contradiction
  | succ depth inductionHypothesis =>
      obtain ⟨results, ofBases, rest⟩ := Option.bind_eq_some_iff.mp found
      obtain ⟨ancestors, success, ended⟩ := Option.bind_eq_some_iff.mp rest
      obtain rfl := Option.some.inj ended
      rw [mapM_eq_some_iff] at ofBases
      -- The orders of the bases, as a function of the base.
      let orders := fun base => (uncachedOrder bases depth base).getD []
      have sameResults : (nearestBases bases name).map orders = results := by
        have unwrapped := congrArg (List.map fun found => found.getD []) ofBases
        simpa [List.map_map, Function.comp_def, orders] using unwrapped
      refine .merged orders ?_ ?_
      · intro base direct
        have listed := (mem_nearestBases_iff bases name base).mpr direct
        have computedBase : uncachedOrder bases depth base ∈ results.map some := by
          rw [← ofBases]
          exact List.mem_map_of_mem listed
        obtain ⟨baseOrder, _, foundBase⟩ := List.mem_map.mp computedBase
        dsimp only [orders]
        rw [← foundBase]
        exact inductionHypothesis foundBase.symm
      · rw [demands, sameResults]
        exact success

theorem endsUncached_iff (bases : BaseLists) (name : String) (order : List String) :
    EndsUncached bases name order ↔ AncestorOrder bases name order := by
  refine ⟨?_, endsUncached_of_ancestorOrder⟩
  rintro ⟨depth, found⟩
  exact ancestorOrder_of_uncachedOrder (found depth le_rfl)

/-! ### Bases are stored first -/

/-- The known orders are stored behind those of their bases. -/
def BasesFirst (bases : BaseLists) (known : Orders) : Prop :=
  ∀ name ∈ known.keys, ∀ base, DirectBase bases name base →
    known.keys.idxOf base < known.keys.idxOf name

/-- What a run leaves in a cache whose entries are stored behind their bases: all
that was known, and the names it was asked for, still behind their bases. -/
structure Stores (bases : BaseLists) (before : Orders) (names : List String) (after : Orders) :
    Prop where
  basesFirst : BasesFirst bases after
  keeps : ∀ name ∈ before.keys, name ∈ after.keys
  stored : ∀ name ∈ names, name ∈ after.keys

theorem BasesFirst.stores_insert {bases : BaseLists} {known : Orders} {name : String}
    (basesFirst : BasesFirst bases known)
    (basesKnown : ∀ base, DirectBase bases name base → base ∈ known.keys) (order : List String) :
    Stores bases known [name] (known.insert name order) := by
  by_cases present : name ∈ known.keys
  · have sameKeys : (known.insert name order).keys = known.keys := by
      rw [Table.keys_insert, if_pos present]
    refine ⟨?_, ?_, ?_⟩
    · unfold BasesFirst
      rw [sameKeys]
      exact basesFirst
    · intro other known
      rw [sameKeys]
      exact known
    · intro other listed
      rw [sameKeys, List.mem_singleton.mp listed]
      exact present
  · have longer : (known.insert name order).keys = known.keys ++ [name] := by
      rw [Table.keys_insert, if_neg present]
    refine ⟨?_, ?_, ?_⟩
    · intro other listed base direct
      rw [longer] at listed ⊢
      rcases List.mem_append.mp listed with earlier | last
      · have before := basesFirst other earlier base direct
        have baseKnown : base ∈ known.keys :=
          List.idxOf_lt_length_iff.mp (before.trans (List.idxOf_lt_length_iff.mpr earlier))
        rw [List.idxOf_append_of_mem baseKnown, List.idxOf_append_of_mem earlier]
        exact before
      · obtain rfl := List.mem_singleton.mp last
        have baseKnown := basesKnown base direct
        rw [List.idxOf_append_of_mem baseKnown, List.idxOf_append_of_notMem present]
        exact Nat.lt_add_right _ (List.idxOf_lt_length_iff.mpr baseKnown)
    · intro other known
      rw [longer]
      exact List.mem_append_left _ known
    · intro other listed
      rw [longer]
      exact List.mem_append_right _ listed

theorem Stores.trans {bases : BaseLists} {before middle after : Orders} {names later : List String}
    (first : Stores bases before names middle) (second : Stores bases middle later after) :
    Stores bases before (names ++ later) after := by
  refine ⟨second.basesFirst, ?_, ?_⟩
  · intro name known
    exact second.keeps name (first.keeps name known)
  · intro name listed
    rcases List.mem_append.mp listed with early | late
    · exact second.keeps name (first.stored name early)
    · exact second.stored name late

theorem exists_of_bind_eq_ok {ε α β : Type} {run : Except ε α} {next : α → Except ε β}
    {result : β} (success : run >>= next = .ok result) :
    ∃ between, run = .ok between ∧ next between = .ok result := by
  cases run with
  | error failure => contradiction
  | ok between => exact ⟨between, rfl, success⟩

theorem stores_of_storeMerged {bases : BaseLists} {name : String} {known after : Orders}
    {sequences : List (List String)} {order : List String} (basesFirst : BasesFirst bases known)
    (basesKnown : ∀ base ∈ nearestBases bases name, base ∈ known.keys)
    (success : storeMerged bases name (sequences, known) = .ok (order, after)) :
    Stores bases known [name] after := by
  unfold storeMerged at success
  split at success
  next => contradiction
  next ancestors _ =>
    obtain ⟨-, rfl⟩ := Prod.mk.inj (Except.ok.inj success)
    apply basesFirst.stores_insert
    intro base direct
    exact basesKnown base ((mem_nearestBases_iff bases name base).mpr direct)

/-- A successful run of `orderOf` stores its contract. -/
def OrderStores (bases : BaseLists) (visiting : List String) (known : Orders) (name : String) :
    Prop :=
  BasesFirst bases known → ∀ order after,
    orderOf bases visiting known name = .ok (order, after) → Stores bases known [name] after

/-- A successful run of `ordersOf` stores all its contracts. -/
def OrdersStore (bases : BaseLists) (visiting : List String) (known : Orders)
    (names : List String) : Prop :=
  BasesFirst bases known → ∀ orders after,
    ordersOf bases visiting known names = .ok (orders, after) → Stores bases known names after

theorem runs_store (bases : BaseLists) :
    (∀ visiting known name, OrderStores bases visiting known name) ∧
      ∀ visiting known names, OrdersStore bases visiting known names := by
  refine orderOf.mutual_induct bases (OrderStores bases) (OrdersStore bases)
    ?known ?visiting ?noBases ?derived ?nil ?cons
  case known =>
    intro visiting known name order found basesFirst stored after success
    rw [orderOf_of_known found] at success
    obtain ⟨-, rfl⟩ := Prod.mk.inj (Except.ok.inj success)
    refine ⟨basesFirst, fun _ => id, ?_⟩
    intro other listed
    rw [List.mem_singleton.mp listed, ← Table.contains_iff_mem_keys]
    exact contains_of_find? found
  case visiting =>
    intro visiting known name unknown again _ order after success
    rw [orderOf_of_visiting unknown again] at success
    contradiction
  case noBases =>
    intro visiting known name unknown fresh noBases basesFirst order after success
    rw [orderOf_of_noBases unknown fresh noBases] at success
    obtain ⟨-, rfl⟩ := Prod.mk.inj (Except.ok.inj success)
    apply basesFirst.stores_insert
    intro base direct
    rw [← mem_nearestBases_iff, noBases] at direct
    contradiction
  case derived =>
    intro visiting known name unknown fresh hasBases _ inductionHypothesis basesFirst order after
      success
    rw [orderOf_of_bases unknown fresh hasBases] at success
    obtain ⟨⟨sequences, between⟩, ofBases, merged⟩ := exists_of_bind_eq_ok success
    -- The bases are all stored by the time the contract itself is.
    have basesStored := inductionHypothesis basesFirst sequences between ofBases
    have ownStored := stores_of_storeMerged basesStored.basesFirst basesStored.stored merged
    refine ⟨ownStored.basesFirst, ?_, ownStored.stored⟩
    intro other known
    exact ownStored.keeps other (basesStored.keeps other known)
  case nil =>
    intro visiting known basesFirst orders after success
    rw [ordersOf] at success
    obtain ⟨-, rfl⟩ := Prod.mk.inj (Except.ok.inj success)
    exact ⟨basesFirst, fun _ => id, by simp⟩
  case cons =>
    intro visiting known name later firstRun laterRun basesFirst orders after success
    rw [ordersOf] at success
    obtain ⟨⟨order, between⟩, first, rest⟩ := exists_of_bind_eq_ok success
    obtain ⟨⟨laterOrders, last⟩, second, ended⟩ := exists_of_bind_eq_ok rest
    obtain ⟨-, rfl⟩ := Prod.mk.inj (Except.ok.inj ended)
    have firstStored := firstRun basesFirst order between first
    have laterStored := laterRun between firstStored.basesFirst laterOrders last second
    exact firstStored.trans laterStored

theorem basesFirst_of_foldlM {bases : BaseLists} {names : List String} {known orders : Orders}
    (basesFirst : BasesFirst bases known)
    (success : names.foldlM (fun known name => do
      let (_, known) ← orderOf bases [] known name
      return known) known = .ok orders) : BasesFirst bases orders := by
  induction names generalizing known with
  | nil =>
      obtain rfl := Except.ok.inj success
      exact basesFirst
  | cons name later inductionHypothesis =>
      rw [List.foldlM_cons, bind_assoc] at success
      obtain ⟨⟨order, between⟩, first, rest⟩ := exists_of_bind_eq_ok success
      have stored := (runs_store bases).1 [] known name basesFirst order between first
      exact inductionHypothesis stored.basesFirst rest

theorem basesFirst_of_linearize {bases : BaseLists} {orders : Orders}
    (success : linearize bases = .ok orders) : BasesFirst bases orders := by
  have start : BasesFirst bases {} := by
    intro name listed
    contradiction
  exact basesFirst_of_foldlM start success

/-! ### The cache -/

/-- The cache cannot be seen.  There are orders exactly if the recursion without
it ends with one for every contract, and they are the ones it ends with; they are
stored bases first; and reordering the entries of a base map leaves it without
orders or gives every name the order it had. -/
theorem linearize_eq_uncached (bases : BaseLists) :
    ((∃ orders, linearize bases = .ok orders) ↔
      ∀ name ∈ bases.keys, ∃ order, EndsUncached bases name order) ∧
    (∀ orders, linearize bases = .ok orders →
      (∀ name order, orders.find? name = some order → EndsUncached bases name order) ∧
      ∀ name ∈ orders.keys, ∀ base, DirectBase bases name base →
        orders.keys.idxOf base < orders.keys.idxOf name) ∧
    ∀ reordered : BaseLists, bases.keys.Nodup → bases.entries.Perm reordered.entries →
      ((∃ failure, linearize bases = .error failure) ∧
          ∃ failure, linearize reordered = .error failure) ∨
        ∃ orders reorderedOrders,
          linearize bases = .ok orders ∧ linearize reordered = .ok reorderedOrders ∧
          ∀ name, orders.find? name = reorderedOrders.find? name := by
  simp only [endsUncached_iff]
  refine ⟨linearize_succeeds_iff bases, ?_, ?_⟩
  · intro orders success
    refine ⟨?_, basesFirst_of_linearize success⟩
    intro name order found
    exact ((find?_linearize_iff success name order).mp found).2
  · intro reordered distinct permutation
    have agree : ∀ name, bases.find? name = reordered.find? name :=
      Table.lookup_perm permutation distinct
    have together := linearize_succeeds_congr agree
    cases ended : linearize bases with
    | error failure =>
        cases reorderedEnd : linearize reordered with
        | error reorderedFailure => exact Or.inl ⟨⟨failure, rfl⟩, ⟨reorderedFailure, rfl⟩⟩
        | ok reorderedOrders =>
            obtain ⟨orders, success⟩ := together.mpr ⟨reorderedOrders, reorderedEnd⟩
            rw [ended] at success
            contradiction
    | ok orders =>
        obtain ⟨reorderedOrders, reorderedEnd⟩ := together.mp ⟨orders, ended⟩
        exact Or.inr ⟨orders, reorderedOrders, rfl, reorderedEnd,
          find?_linearize_congr agree ended reorderedEnd⟩

/-- An ancestor that is reached on two ways and written last, and its base, which
is not declared. -/
def sharedRoot : BaseLists :=
  ⟨[("Top", ["Left", "Right"]), ("Left", ["Middle"]), ("Right", ["Middle"]),
    ("Middle", ["Root"])]⟩

def sharedRootFromBelow : BaseLists := ⟨sharedRoot.entries.reverse⟩

theorem linearize_eq_uncached_sharedRoot :
    (linearize sharedRoot = .ok ⟨[("Root", ["Root"]), ("Middle", ["Middle", "Root"]),
      ("Right", ["Right", "Middle", "Root"]), ("Left", ["Left", "Middle", "Root"]),
      ("Top", ["Top", "Right", "Left", "Middle", "Root"])]⟩) ∧
    EndsUncached sharedRoot "Top" ["Top", "Right", "Left", "Middle", "Root"] ∧
    ∃ orders reorderedOrders,
      linearize sharedRoot = .ok orders ∧ linearize sharedRootFromBelow = .ok reorderedOrders ∧
      ∀ name, orders.find? name = reorderedOrders.find? name := by
  have success : linearize sharedRoot = .ok ⟨[("Root", ["Root"]), ("Middle", ["Middle", "Root"]),
      ("Right", ["Right", "Middle", "Root"]), ("Left", ["Left", "Middle", "Root"]),
      ("Top", ["Top", "Right", "Left", "Middle", "Root"])]⟩ := by
    decide +kernel
  have distinct : sharedRoot.keys.Nodup := by decide
  have permutation : sharedRoot.entries.Perm sharedRootFromBelow.entries :=
    (List.reverse_perm sharedRoot.entries).symm
  obtain ⟨_, uncached, together⟩ := linearize_eq_uncached sharedRoot
  refine ⟨success, (uncached _ success).1 "Top" _ rfl, ?_⟩
  rcases together _ distinct permutation with ⟨⟨failure, failed⟩, _⟩ | same
  · rw [success] at failed
    contradiction
  · exact same

end ContractCalls.Analysis.Linearization
