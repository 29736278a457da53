import ContractCalls.Proofs.Linearization.AncestorOrder

/-!
Contract: what the computation of orders leaves in its cache, and why it fails.

Owns:
- `SoundCache`, the invariant of the orders that are already known: each is the
  ancestor order of its contract, and the bases of a known contract are known;
- the reasons for failure, in terms of the base map alone;
- one statement for each of `orderOf`, `ordersOf` and `linearize`, which says
  what every run ends in.

The contracts that are being visited enter only through one fact: each of them
inherits from the contract that is asked for.
-/

set_option autoImplicit false

namespace ContractCalls.Analysis.Linearization

open Relation

/-- The names a base map speaks of: its contracts, and what is written in their
base lists. -/
def Mentioned (bases : BaseLists) (name : String) : Prop :=
  name ∈ bases.keys ∨ ∃ derived, DirectBase bases derived name

/-- What a failure says about the base map. -/
def Justified (bases : BaseLists) : LinearizationFailure → Prop
  | .cycle contract => TransGen (DirectBase bases) contract contract
  | .noCommonOrder contract =>
      (∀ base, DirectBase bases contract base → ∃ order, AncestorOrder bases base order) ∧
        ¬HasCommonOrder bases contract

/-- A run ends well with a result, or with a failure that is justified. -/
def Outcome {α : Type} (bases : BaseLists) (good : α → Prop) :
    Except LinearizationFailure α → Prop
  | .ok result => good result
  | .error failure => Justified bases failure

theorem Outcome.bind {α β : Type} {bases : BaseLists} {good : α → Prop} {better : β → Prop}
    {run : Except LinearizationFailure α} {next : α → Except LinearizationFailure β}
    (first : Outcome bases good run)
    (second : ∀ result, good result → Outcome bases better (next result)) :
    Outcome bases better (run >>= next) := by
  cases run with
  | error failure => exact first
  | ok result => exact second result first

theorem Outcome.mono {α : Type} {bases : BaseLists} {good better : α → Prop}
    {run : Except LinearizationFailure α} (outcome : Outcome bases good run)
    (improves : ∀ result, good result → better result) : Outcome bases better run := by
  cases run with
  | error failure => exact outcome
  | ok result => exact improves result outcome

/-! ### The invariant of the cache -/

structure SoundCache (bases : BaseLists) (known : Orders) : Prop where
  ordered : ∀ name order, known.find? name = some order → AncestorOrder bases name order
  closed : ∀ name base, known.contains name = true → DirectBase bases name base →
    known.contains base = true
  mentioned : ∀ name, known.contains name = true → Mentioned bases name

/-- A cache has grown into a sound one, and no order in it has changed. -/
structure Extends (bases : BaseLists) (before after : Orders) : Prop where
  sound : SoundCache bases after
  keeps : ∀ name order, before.find? name = some order → after.find? name = some order

/-- The order that a cache holds for a name. -/
def orderIn (known : Orders) (name : String) : List String := (known.find? name).getD []

section Growth

variable {bases : BaseLists} {known before middle after : Orders} {name : String}
  {order : List String}

theorem find?_eq_orderIn (present : known.contains name = true) :
    known.find? name = some (orderIn known name) := by
  obtain ⟨order, found⟩ := Option.isSome_iff_exists.mp present
  rw [orderIn, found]
  rfl

theorem contains_of_find? (found : known.find? name = some order) :
    known.contains name = true :=
  Option.isSome_iff_exists.mpr ⟨order, found⟩

theorem orderIn_eq_of_find? (found : known.find? name = some order) :
    orderIn known name = order := by
  rw [orderIn, found]
  rfl

theorem soundCache_empty (bases : BaseLists) : SoundCache bases {} where
  ordered _ _ found := by contradiction
  closed _ _ present := by contradiction
  mentioned _ present := by contradiction

theorem Extends.refl (sound : SoundCache bases known) : Extends bases known known :=
  ⟨sound, fun _ _ found => found⟩

theorem Extends.trans (first : Extends bases before middle) (second : Extends bases middle after) :
    Extends bases before after :=
  ⟨second.sound, fun name order found => second.keeps name order (first.keeps name order found)⟩

theorem Extends.contains (growth : Extends bases before after)
    (present : before.contains name = true) : after.contains name = true :=
  contains_of_find? (growth.keeps name _ (find?_eq_orderIn present))

theorem SoundCache.orderIn_isOrder (sound : SoundCache bases known)
    (present : known.contains name = true) : AncestorOrder bases name (orderIn known name) :=
  sound.ordered name _ (find?_eq_orderIn present)

theorem SoundCache.insert (sound : SoundCache bases known)
    (isOrder : AncestorOrder bases name order)
    (basesKnown : ∀ base, DirectBase bases name base → known.contains base = true)
    (mentioned : Mentioned bases name) : Extends bases known (known.insert name order) := by
  -- An order that is already there is replaced by itself, as there is only one.
  have keeps : ∀ other stored, known.find? other = some stored →
      (known.insert name order).find? other = some stored := by
    intro other stored found
    rw [Table.find?_insert]
    split
    next same =>
      subst same
      rw [(sound.ordered name stored found).unique isOrder]
    next => exact found
  have containsCases : ∀ other, (known.insert name order).contains other = true →
      other = name ∨ known.contains other = true := by
    intro other present
    rw [Table.contains, Table.find?_insert] at present
    split at present
    next same => exact Or.inl same.symm
    next => exact Or.inr present
  have containsOld : ∀ other, known.contains other = true →
      (known.insert name order).contains other = true := by
    intro other present
    exact contains_of_find? (keeps other _ (find?_eq_orderIn present))
  refine ⟨⟨?_, ?_, ?_⟩, keeps⟩
  · intro other stored found
    rw [Table.find?_insert] at found
    split at found
    next same =>
      rw [← same, ← Option.some.inj found]
      exact isOrder
    next => exact sound.ordered other stored found
  · intro other base present direct
    apply containsOld
    rcases containsCases other present with rfl | presentBefore
    · exact basesKnown base direct
    · exact sound.closed other base presentBefore direct
  · intro other present
    rcases containsCases other present with rfl | presentBefore
    · exact mentioned
    · exact sound.mentioned other presentBefore

end Growth

/-! ### The equations of the computation -/

section Equations

variable {bases : BaseLists} {visiting : List String} {known : Orders} {name : String}

theorem orderOf_of_known {order : List String} (found : known.find? name = some order) :
    orderOf bases visiting known name = .ok (order, known) := by
  rw [orderOf, found]

theorem orderOf_of_visiting (unknown : known.find? name = none)
    (again : visiting.contains name = true) :
    orderOf bases visiting known name = .error (.cycle name) := by
  rw [orderOf, unknown, dif_pos again]

theorem orderOf_of_noBases (unknown : known.find? name = none)
    (fresh : ¬visiting.contains name = true) (noBases : nearestBases bases name = []) :
    orderOf bases visiting known name = .ok ([name], known.insert name [name]) := by
  rw [orderOf, unknown, dif_neg fresh, dif_pos noBases]

/-- The last step for a contract: merge the orders of its bases, and store. -/
def storeMerged (bases : BaseLists) (name : String) (result : List (List String) × Orders) :
    Except LinearizationFailure (List String × Orders) :=
  match merge (result.1 ++ [nearestBases bases name]) with
  | none => .error (.noCommonOrder name)
  | some ancestors => .ok (name :: ancestors, result.2.insert name (name :: ancestors))

theorem orderOf_of_bases (unknown : known.find? name = none)
    (fresh : ¬visiting.contains name = true) (hasBases : ¬nearestBases bases name = []) :
    orderOf bases visiting known name =
      ordersOf bases (name :: visiting) known (nearestBases bases name) >>=
        storeMerged bases name := by
  rw [orderOf, unknown, dif_neg fresh, dif_neg hasBases]
  rfl

end Equations

/-! ### What every run ends in -/

/-- `orderOf` ends with the order of the contract stored in a grown cache. -/
def OrderRun (bases : BaseLists) (visiting : List String) (known : Orders) (name : String) :
    Prop :=
  SoundCache bases known → Mentioned bases name →
    (∀ waiting ∈ visiting, TransGen (DirectBase bases) waiting name) →
    Outcome bases
      (fun result => result.2.find? name = some result.1 ∧ Extends bases known result.2)
      (orderOf bases visiting known name)

/-- `ordersOf` ends with the orders of all contracts stored in a grown cache. -/
def OrdersRun (bases : BaseLists) (visiting : List String) (known : Orders)
    (names : List String) : Prop :=
  SoundCache bases known → (∀ name ∈ names, Mentioned bases name) →
    (∀ name ∈ names, ∀ waiting ∈ visiting, TransGen (DirectBase bases) waiting name) →
    Outcome bases
      (fun result => result.1 = names.map (orderIn result.2) ∧
        (∀ name ∈ names, result.2.contains name = true) ∧ Extends bases known result.2)
      (ordersOf bases visiting known names)

theorem storeMerged_outcome {bases : BaseLists} {name : String} {before known : Orders}
    {sequences : List (List String)} (growth : Extends bases before known)
    (mentioned : Mentioned bases name)
    (basesKnown : ∀ base, DirectBase bases name base → known.contains base = true)
    (sameOrders : sequences = (nearestBases bases name).map (orderIn known)) :
    Outcome bases
      (fun result => result.2.find? name = some result.1 ∧ Extends bases before result.2)
      (storeMerged bases name (sequences, known)) := by
  have baseOrders : ∀ base, DirectBase bases name base →
      AncestorOrder bases base (orderIn known base) :=
    fun base direct => growth.sound.orderIn_isOrder (basesKnown base direct)
  have sameDemands :
      sequences ++ [nearestBases bases name] = demands bases (orderIn known) name := by
    rw [sameOrders, demands]
  unfold storeMerged
  rw [sameDemands]
  cases success : merge (demands bases (orderIn known) name) with
  | none =>
      show Justified bases (.noCommonOrder name)
      refine ⟨fun base direct => ⟨_, baseOrders base direct⟩, ?_⟩
      rw [hasCommonOrder_iff baseOrders]
      exact (merge_eq_none_iff _).mp success
  | some ancestors =>
      refine ⟨Table.find?_insert_self _ _ _, growth.trans ?_⟩
      exact growth.sound.insert (.merged (orderIn known) baseOrders success) basesKnown mentioned

theorem orders_cons {bases : BaseLists} {known first last : Orders} {name : String}
    {order : List String} {later : List String} {orders : List (List String)}
    (found : first.find? name = some order) (growth : Extends bases known first)
    (sameOrders : orders = later.map (orderIn last))
    (laterKnown : ∀ other ∈ later, last.contains other = true)
    (growthLater : Extends bases first last) :
    order :: orders = (name :: later).map (orderIn last) ∧
      (∀ other ∈ name :: later, last.contains other = true) ∧ Extends bases known last := by
  have foundLast := growthLater.keeps name order found
  refine ⟨?_, ?_, growth.trans growthLater⟩
  · rw [List.map_cons, orderIn_eq_of_find? foundLast, sameOrders]
  · intro other member
    rcases List.mem_cons.mp member with rfl | memberLater
    · exact contains_of_find? foundLast
    · exact laterKnown other memberLater

theorem order_runs (bases : BaseLists) :
    (∀ visiting known name, OrderRun bases visiting known name) ∧
      ∀ visiting known names, OrdersRun bases visiting known names := by
  refine orderOf.mutual_induct bases (OrderRun bases) (OrdersRun bases)
    ?known ?visiting ?noBases ?derived ?nil ?cons
  case known =>
    intro visiting known name order found sound _ _
    rw [orderOf_of_known found]
    exact ⟨found, Extends.refl sound⟩
  case visiting =>
    intro visiting known name unknown again _ _ inherits
    rw [orderOf_of_visiting unknown again]
    -- The contract waits for itself, so it is its own ancestor.
    exact inherits name (List.contains_iff_mem.mp again)
  case noBases =>
    intro visiting known name unknown fresh noBases sound mentioned _
    rw [orderOf_of_noBases unknown fresh noBases]
    refine ⟨Table.find?_insert_self _ _ _, ?_⟩
    refine sound.insert (.ofNoBases noBases) ?_ mentioned
    intro base direct
    rw [← mem_nearestBases_iff, noBases] at direct
    contradiction
  case derived =>
    intro visiting known name unknown fresh hasBases _ inductionHypothesis sound mentioned inherits
    rw [orderOf_of_bases unknown fresh hasBases]
    have direct : ∀ base ∈ nearestBases bases name, DirectBase bases name base :=
      fun base => (mem_nearestBases_iff bases name base).mp
    -- The contract itself waits for its bases now, and inherits from them.
    refine Outcome.bind (inductionHypothesis sound ?_ ?_) ?_
    · intro base listed
      exact Or.inr ⟨name, direct base listed⟩
    · intro base listed waiting member
      rcases List.mem_cons.mp member with rfl | earlier
      · exact .single (direct base listed)
      · exact (inherits waiting earlier).tail (direct base listed)
    · rintro ⟨sequences, after⟩ ⟨sameOrders, basesKnown, growth⟩
      refine storeMerged_outcome growth mentioned ?_ sameOrders
      intro base isBase
      exact basesKnown base ((mem_nearestBases_iff bases name base).mpr isBase)
  case nil =>
    intro visiting known sound _ _
    rw [ordersOf]
    exact ⟨rfl, by simp, Extends.refl sound⟩
  case cons =>
    intro visiting known name later firstRun laterRun sound mentioned inherits
    rw [ordersOf]
    have firstOutcome := firstRun sound (mentioned name (by simp)) (inherits name (by simp))
    refine Outcome.bind firstOutcome ?_
    rintro ⟨order, first⟩ ⟨found, growth⟩
    have laterOutcome := laterRun first growth.sound
      (fun other member => mentioned other (by simp [member]))
      (fun other member => inherits other (by simp [member]))
    refine Outcome.bind laterOutcome ?_
    rintro ⟨orders, last⟩ ⟨sameOrders, laterKnown, growthLater⟩
    exact orders_cons found growth sameOrders laterKnown growthLater

/-! ### All contracts of a base map -/

theorem foldlM_outcome {bases : BaseLists} {names : List String} {known : Orders}
    (sound : SoundCache bases known) (mentioned : ∀ name ∈ names, Mentioned bases name) :
    Outcome bases
      (fun after => (∀ name ∈ names, after.contains name = true) ∧ Extends bases known after)
      (names.foldlM (fun known name => do
        let (_, known) ← orderOf bases [] known name
        return known) known) := by
  induction names generalizing known with
  | nil => exact ⟨by simp, Extends.refl sound⟩
  | cons name later inductionHypothesis =>
      rw [List.foldlM_cons, bind_assoc]
      -- Between two contracts of the map none is waiting for another.
      have run := (order_runs bases).1 [] known name sound (mentioned name (by simp)) (by simp)
      refine Outcome.bind run ?_
      rintro ⟨order, first⟩ ⟨found, growth⟩
      have laterOutcome := inductionHypothesis growth.sound
        (fun other member => mentioned other (by simp [member]))
      refine laterOutcome.mono ?_
      rintro after ⟨laterKnown, growthLater⟩
      refine ⟨?_, growth.trans growthLater⟩
      intro other member
      rcases List.mem_cons.mp member with rfl | memberLater
      · exact growthLater.contains (contains_of_find? found)
      · exact laterKnown other memberLater

/-- Every base map has its orders computed, one for each name it mentions, or
gives a reason for failure. -/
theorem linearize_outcome (bases : BaseLists) :
    Outcome bases
      (fun orders => SoundCache bases orders ∧
        ∀ name, orders.contains name = true ↔ Mentioned bases name)
      (linearize bases) := by
  have run := foldlM_outcome (soundCache_empty bases) (fun name member => Or.inl member)
  refine Outcome.mono run ?_
  rintro orders ⟨keysKnown, growth⟩
  refine ⟨growth.sound, fun name => ⟨growth.sound.mentioned name, ?_⟩⟩
  rintro (isKey | ⟨derived, direct⟩)
  · exact keysKnown name isKey
  · exact growth.sound.closed derived name (keysKnown derived direct.isKey) direct

/-- The orders of a base map on which the computation succeeds are the ancestor
orders of the names it mentions. -/
theorem find?_linearize_iff {bases : BaseLists} {orders : Orders}
    (success : linearize bases = .ok orders) (name : String) (order : List String) :
    orders.find? name = some order ↔ Mentioned bases name ∧ AncestorOrder bases name order := by
  have outcome := linearize_outcome bases
  rw [success] at outcome
  obtain ⟨sound, names⟩ := outcome
  constructor
  · intro found
    exact ⟨sound.mentioned name (contains_of_find? found), sound.ordered name order found⟩
  · rintro ⟨mentioned, isOrder⟩
    have present := (names name).mpr mentioned
    rw [find?_eq_orderIn present, (sound.orderIn_isOrder present).unique isOrder]

theorem justified_of_linearize {bases : BaseLists} {failure : LinearizationFailure}
    (failed : linearize bases = .error failure) : Justified bases failure := by
  have outcome := linearize_outcome bases
  rw [failed] at outcome
  exact outcome

theorem exists_linearize {bases : BaseLists}
    (acyclic : ∀ name, ¬TransGen (DirectBase bases) name name)
    (consistent : ∀ name, (∃ base, DirectBase bases name base) → HasCommonOrder bases name) :
    ∃ orders, linearize bases = .ok orders := by
  cases ended : linearize bases with
  | ok orders => exact ⟨orders, rfl⟩
  | error failure =>
      exfalso
      have justified := justified_of_linearize ended
      cases failure with
      | cycle contract => exact acyclic contract justified
      | noCommonOrder contract =>
          obtain ⟨_, noCommonOrder⟩ := justified
          apply noCommonOrder
          by_cases hasBase : ∃ base, DirectBase bases contract base
          · exact consistent contract hasBase
          · exact hasCommonOrder_of_noBase hasBase

/-- The computation succeeds exactly if every contract has an order. -/
theorem linearize_succeeds_iff (bases : BaseLists) :
    (∃ orders, linearize bases = .ok orders) ↔
      ∀ name ∈ bases.keys, ∃ order, AncestorOrder bases name order := by
  constructor
  · rintro ⟨orders, success⟩ name isKey
    have outcome := linearize_outcome bases
    rw [success] at outcome
    obtain ⟨sound, names⟩ := outcome
    exact ⟨_, sound.orderIn_isOrder ((names name).mpr (Or.inl isKey))⟩
  · intro ordered
    apply exists_linearize (not_cyclic_of_ordered ordered)
    rintro name ⟨base, direct⟩
    exact hasCommonOrder_of_ordered ordered direct

end ContractCalls.Analysis.Linearization
