import ContractCalls.Proofs.Bodies.VisitedCalls
import ContractCalls.Proofs.Comments.Expressions

/-!
Contract: callables read from trees with overlooked comments.

Owns:
- what is gathered from children of which the added ones give nothing;
- the parameters of a definition, which are the same;
- its body, which is the same up to lines and the texts of other forms.
-/

set_option autoImplicit false

namespace ContractCalls.Solidity.FromTree

open ContractCalls.Syntax

/-! ### Gathering from children -/

/-- All that is read from the members of a list. -/
def gather {α β ε : Type} (read : α → Except ε (List β)) (list : List α) : Except ε (List β) :=
  (list.mapM read).map List.flatten

section Gathering

variable {α β ε : Type}

theorem gather_cons (read : α → Except ε (List β)) (first : α) (rest : List α) :
    gather read (first :: rest) = do
      return (← read first) ++ (← gather read rest) := by
  unfold gather
  rw [List.mapM_cons]
  cases read first with
  | error failure => rfl
  | ok some => cases rest.mapM read <;> rfl

theorem gather_filter {read : α → Except ε (List β)} {p : α → Bool} {list : List α}
    (nothing : ∀ each ∈ list, p each = false → read each = .ok []) :
    gather read (list.filter p) = gather read list := by
  induction list with
  | nil => rfl
  | cons first rest inductionHypothesis =>
      have below := inductionHypothesis fun each member =>
        nothing each (List.mem_cons_of_mem _ member)
      cases kept : p first with
      | true => rw [List.filter_cons_of_pos kept, gather_cons, gather_cons, below]
      | false =>
          rw [List.filter_cons_of_neg (by simp [kept]), gather_cons, below,
            nothing first List.mem_cons_self kept]
          cases gather read rest <;> rfl

theorem flatMap_filter {found : α → List β} {p : α → Bool} {list : List α}
    (nothing : ∀ each ∈ list, p each = false → found each = []) :
    (list.filter p).flatMap found = list.flatMap found := by
  induction list with
  | nil => rfl
  | cons first rest inductionHypothesis =>
      have below := inductionHypothesis fun each member =>
        nothing each (List.mem_cons_of_mem _ member)
      cases kept : p first with
      | true => rw [List.filter_cons_of_pos kept, List.flatMap_cons, List.flatMap_cons, below]
      | false =>
          rw [List.filter_cons_of_neg (by simp [kept]), List.flatMap_cons, below,
            nothing first List.mem_cons_self kept, List.nil_append]

end Gathering

section Children

variable {plain commented : Node} (insertion : plain.Insertion commented)

open Classical in
/-- The old ones among some children. -/
theorem filter_old {p : Syntax.Tree.Child commented → Bool} :
    ((commented.slots.filter p).filter fun child => decide (∃ old, insertion.lift old = child)) =
      (plain.slots.filter fun old => p (insertion.lift old)).map insertion.lift := by
  rw [List.filter_filter, insertion.filter_slots]
  · simp
  · intro child isNew
    have notOld : ¬ ∃ old, insertion.lift old = child := not_exists.mpr isNew
    simp [notOld]

theorem gather_namedSlots {β : Type} {read : Syntax.Tree.Child commented → Except Defect (List β)}
    {readBefore : Syntax.Tree.Child plain → Except Defect (List β)}
    (nothing : ∀ child, insertion.IsNew child → read child = .ok [])
    (same : ∀ old, read (insertion.lift old) = readBefore old) :
    gather read commented.namedSlots = gather readBefore plain.namedSlots := by
  classical
  unfold Syntax.Tree.namedSlots
  rw [← gather_filter (p := fun child => decide (∃ old, insertion.lift old = child)),
    filter_old insertion]
  · simp only [gather, List.mapM_map, (insertion.lift_shape _).named, Function.comp_def, same]
  · intro child _ notOld
    exact nothing child (not_exists.mp (of_decide_eq_false notOld))

theorem flatMap_slots {β : Type} {p : Syntax.Tree.Child commented → Bool}
    (found : Syntax.Tree.Child commented → List β)
    (nothing : ∀ child, insertion.IsNew child → found child = []) :
    (commented.slots.filter p).flatMap found =
      (plain.slots.filter fun old => p (insertion.lift old)).flatMap fun old =>
        found (insertion.lift old) := by
  classical
  rw [← flatMap_filter (p := fun child => decide (∃ old, insertion.lift old = child)),
    filter_old insertion, List.flatMap_map]
  intro child _ notOld
  exact nothing child (not_exists.mp (of_decide_eq_false notOld))

end Children

/-! ### Parameters -/

theorem parametersIn_comment {node : Node} (comment : node.IsComment) : parametersIn node = [] := by
  rw [parametersIn, comment.kind, comment.slots_eq]
  rfl

theorem parametersIn_of_commented {plain commented : Node}
    (alike : Commented .parameters plain commented) :
    parametersIn commented = parametersIn plain := by
  generalize isParameters : Reading.parameters = reading at alike
  induction alike with
  | @intro reading plain commented insertion kind children text path overlooked inductionHypothesis =>
      subst isParameters
      rw [parametersIn, parametersIn, kind]
      by_cases isParameter : plain.kind = "parameter"
      · have same := variableOf_eq insertion
          (fun old isName => (children old .text
            (by simp [Reading.ofChild, isParameter, isName])).text_eq)
          (fun old isType => children old .type (by simp [Reading.ofChild, isParameter, isType]))
        simp only [isParameter, beq_self_eq_true, if_true, same]
      · by_cases isType : plain.kind = "type_name"
        · simp [isType]
        · have below := flatMap_slots insertion (p := fun _ => true)
            (fun child => parametersIn child.node)
            fun child isNew => parametersIn_comment isNew.isComment
          have parts : ∀ old, parametersIn (insertion.lift old).node = parametersIn old.node :=
            fun old => inductionHypothesis old .parameters
              (by simp [Reading.ofChild, isParameter, isType]) rfl
          simp only [List.filter_true, parts] at below
          simp only [isParameter, isType, beq_iff_eq, if_false, below]

theorem inHeader_lift {plain commented : Node} (insertion : plain.Insertion commented)
    (old : Syntax.Tree.Child plain) :
    inHeader commented (insertion.lift old) = inHeader plain old := by
  have sameBody : (some (insertion.lift old) ≠ commented.fieldSlot? "body") ↔
      some old ≠ plain.fieldSlot? "body" := by
    rw [insertion.fieldSlot?_eq]
    show (some old).map insertion.lift ≠ _ ↔ _
    exact (Option.map_injective insertion.lift_injective).ne_iff
  unfold inHeader
  rw [(insertion.lift_shape old).kind]
  simp only [sameBody]

theorem parametersOf_eq {plain commented : Node} (insertion : plain.Insertion commented)
    (headers : ∀ old, inHeader plain old = true →
      Commented .parameters old.node (insertion.lift old).node) :
    parametersOf commented = parametersOf plain := by
  show (commented.slots.filter (inHeader commented)).flatMap _ =
    (plain.slots.filter (inHeader plain)).flatMap _
  rw [flatMap_slots insertion _ fun child isNew => parametersIn_comment isNew.isComment]
  simp only [inHeader_lift]
  apply List.flatMap_congr
  intro old member
  exact parametersIn_of_commented (headers old (List.mem_filter.mp member).2)

/-! ### Bodies -/

/-- The items of a body up to lines and the texts of other forms. -/
def itemsBare (node : Node) : Except Defect (List BodyItem) :=
  (bodyItems node).map (List.map Rewriting.bare.onItem)

def nodeItemsBare (node : Node) : Except Defect (List BodyItem) :=
  (nodeItems node).map (List.map Rewriting.bare.onItem)

theorem itemsBare_eq_gather (node : Node) :
    itemsBare node = gather (fun child => nodeItemsBare child.node) node.namedSlots := by
  unfold itemsBare gather nodeItemsBare
  rw [bodyItems_eq, ← map_mapM]
  simp only [bind, Except.bind]
  cases node.namedSlots.mapM fun child => nodeItems child.node with
  | error failure => rfl
  | ok items => simp [Except.map, pure, Except.pure, List.map_flatten]

theorem nodeItemsBare_comment {node : Node} (comment : node.IsComment) :
    nodeItemsBare node = .ok [] := by
  unfold nodeItemsBare nodeItems
  rw [comment.kind, bodyItems_eq, Syntax.Tree.namedSlots, comment.slots_eq]
  rfl

theorem emission_of_commented {plain commented : Node}
    (alike : Commented .emission plain commented) :
    (emission commented).map Expression.bare = (emission plain).map Expression.bare := by
  have form : ∀ node, (emission node).map Expression.bare = callBare node "name" :=
    fun node => map_call node "name" (lineOf node)
  cases alike with
  | intro insertion kind children text path overlooked =>
      rw [form, form]
      exact callBare_eq insertion overlooked
        (fun old => (readBare_of_commented (children old .expression rfl)).1)
        (fun old => (readBare_of_commented (children old .expression rfl)).2)

theorem variableOf_of_commented {plain commented : Node}
    (alike : Commented .declaration plain commented) :
    variableOf commented = variableOf plain := by
  cases alike with
  | intro insertion kind children text path overlooked =>
      exact variableOf_eq insertion
        (fun old isName => (children old .text (decide_eq_true isName)).text_eq)
        (fun old isType => children old .type (decide_eq_true isType))

/-- The item of a call that is read up to lines and the texts of other forms. -/
theorem map_singleItem (read : Except Defect Expression) :
    (read.map fun call => [BodyItem.expression call]).map (List.map Rewriting.bare.onItem) =
      (read.map Expression.bare).map fun call => [BodyItem.expression call] := by
  cases read <;> rfl

theorem itemsBare_of_commented {plain commented : Node}
    (alike : Commented .body plain commented) : itemsBare commented = itemsBare plain := by
  generalize isBody : Reading.body = reading at alike
  induction alike with
  | @intro reading plain commented insertion kind children text path overlooked inductionHypothesis =>
      subst isBody
      rw [itemsBare_eq_gather, itemsBare_eq_gather]
      refine gather_namedSlots insertion
        (fun child isNew => nodeItemsBare_comment isNew.isComment) fun old => ?_
      have below := inductionHypothesis old .body rfl rfl
      unfold nodeItemsBare nodeItems
      rw [(insertion.lift_shape old).kind]
      cases isDeclaration :
          (old.node.kind == "variable_declaration" || old.node.kind == "parameter") with
      | true =>
          rw [variableOf_of_commented (children old .declaration isDeclaration), if_pos rfl,
            if_pos rfl]
      | false =>
          cases isCall :
              (old.node.kind == "call_expression" || old.node.kind == "type_cast_expression") with
          | true =>
              simp only [Bool.false_eq_true, if_false, if_true, map_singleItem]
              exact congrArg _ (readBare_of_commented (children old .expression isCall)).1
          | false =>
              cases isEmission : old.node.kind == "emit_statement" with
              | true =>
                  simp only [Bool.false_eq_true, if_false, if_true, map_singleItem]
                  exact congrArg _ (emission_of_commented (children old .emission isEmission))
              | false => exact below

section Callables

variable {plain commented : Node} (insertion : plain.Insertion commented)

theorem bodyOf_eq
    (bodies : ∀ old, bodySlot? plain "function_body" = some old →
      Commented .body old.node (insertion.lift old).node) :
    (bodyOf commented).map (Option.map (List.map Rewriting.bare.onItem)) =
      (bodyOf plain).map (Option.map (List.map Rewriting.bare.onItem)) := by
  have sameBody := bodySlot?_eq insertion "function_body" (by decide)
  unfold bodySlot? at sameBody bodies
  unfold bodyOf
  rw [sameBody]
  cases found : (plain.fieldSlot? "body").or (plain.kindSlot? "function_body") with
  | none => rfl
  | some body =>
      have sameItems := itemsBare_of_commented (bodies body found)
      have onSome : ∀ read : Except Defect (List BodyItem),
          (read.map some).map (Option.map (List.map Rewriting.bare.onItem)) =
            (read.map (List.map Rewriting.bare.onItem)).map some := by
        intro read
        cases read <;> rfl
      simp only [Option.map_some]
      rw [onSome, onSome]
      exact congrArg _ sameItems

theorem callableOf_eq
    (headers : ∀ old, inHeader plain old = true →
      Commented .parameters old.node (insertion.lift old).node)
    (bodies : ∀ old, bodySlot? plain "function_body" = some old →
      Commented .body old.node (insertion.lift old).node) :
    (callableOf commented).map Rewriting.bare.onCallable =
      (callableOf plain).map Rewriting.bare.onCallable := by
  have sameParameters := parametersOf_eq insertion headers
  have sameBody := bodyOf_eq insertion bodies
  have split : ∀ node, (callableOf node).map Rewriting.bare.onCallable =
      ((bodyOf node).map (Option.map (List.map Rewriting.bare.onItem))).map fun body =>
        { parameters := (parametersOf node).map Rewriting.bare.onVariable, body } := by
    intro node
    unfold callableOf
    cases bodyOf node <;> rfl
  rw [split, split, sameParameters, sameBody]

end Callables

end ContractCalls.Solidity.FromTree
