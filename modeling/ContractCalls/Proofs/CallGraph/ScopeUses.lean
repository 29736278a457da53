import ContractCalls.Proofs.CallGraph.ShadowedState
import Mathlib.Data.List.Induction

/-!
Contract: local variables under any use of a scope.

Owns:
- uses of a scope: contracts and bodies that are entered in any order and left from the
  inside out, with declarations anywhere;
- the most recent declaration of a name since a body was last left, as a property of the
  steps of a use;
- the law that the two tables of local variables hold the most recent declarations of
  names that are not empty, and nothing else;
- orderly uses, in which contracts are not nested and bodies stand in contracts, and the
  three situations that these go through.

Entering does not save what it replaces.  In uses that are not orderly a body may go on
without a contract to call from, and then declares nothing; no table is left over.
-/

set_option autoImplicit false

namespace ContractCalls.Solidity.VariableSort

/-- What a variable of a sort and a type holds. -/
def holding : VariableSort → String → Holding
  | plain, type => .plain type
  | userDefined, type => .userDefined type

theorem type?_eq_some_iff (sort : VariableSort) (held : Holding) (type : String) :
    sort.type? held = some type ↔ held = sort.holding type := by
  cases sort <;> cases held <;> simp [type?, holding]

end ContractCalls.Solidity.VariableSort

namespace ContractCalls.Analysis

open ContractCalls.Solidity

/-! ### What leaves local variables alone -/

namespace Scope

theorem localTable_enterContract (context : Context) (scope : Scope) (contract : String)
    (sort : VariableSort) :
    (scope.enterContract context contract).localTable sort = scope.localTable sort := by
  obtain ⟨plain, userDefined, entered⟩ := foldl_addState_frame context
    (context.order contract).reverse { scope with current := some contract }
  unfold enterContract
  rw [entered]
  cases sort <;> rfl

theorem declare_of_not_calling {scope : Scope} (notCalling : scope.calling = none)
    (declared : Variable) : scope.declare declared = scope := by
  unfold declare
  rw [notCalling]

end Scope

/-! ### Uses of a scope -/

/-- What is entered and left. -/
inductive Region where
  | contract
  | body
  deriving Repr, DecidableEq

/-- A step in the use of a scope.  What is left is what was entered last. -/
inductive ScopeStep where
  | enterContract (name : String)
  | enterBody
  | leave
  | declare (declared : Variable)
  deriving Repr

/-- What is open after a step, innermost first. -/
def ScopeStep.openAfter (opened : List Region) : ScopeStep → List Region
  | enterContract _ => .contract :: opened
  | enterBody => .body :: opened
  | leave => opened.tail
  | declare _ => opened

/-- A scope and what is open in it, innermost first. -/
structure ScopeUse where
  scope : Scope := {}
  opened : List Region := []

namespace ScopeUse

/-- Leave the innermost region; with nothing open there is nothing to leave. -/
def leave (use : ScopeUse) : Scope :=
  match use.opened with
  | [] => use.scope
  | .contract :: _ => use.scope.leaveContract
  | .body :: _ => use.scope.leaveBody

def take (context : Context) (use : ScopeUse) (step : ScopeStep) : ScopeUse where
  scope := match step with
    | .enterContract name => use.scope.enterContract context name
    | .enterBody => use.scope.enterBody
    | .leave => use.leave
    | .declare declared => use.scope.declare declared
  opened := step.openAfter use.opened

/-- A fresh scope after steps. -/
def after (context : Context) (steps : List ScopeStep) : ScopeUse := steps.foldl (take context) {}

theorem after_append_singleton (context : Context) (steps : List ScopeStep) (step : ScopeStep) :
    after context (steps ++ [step]) = (after context steps).take context step := by
  rw [after, List.foldl_append]
  rfl

/-- The step leaves a body. -/
def LeavesBody (use : ScopeUse) (step : ScopeStep) : Prop :=
  step = .leave ∧ use.opened.head? = some .body

/-- The step declares a name with a tracked type, and there is a contract to call
from. -/
def Declares (use : ScopeUse) (step : ScopeStep) (name : String) (held : Holding) : Prop :=
  use.scope.calling.isSome = true ∧
    ∃ declared : Variable, step = .declare declared ∧ declared.name = some name ∧
      declared.type.holding? = some held

theorem Declares.unique {use : ScopeUse} {step : ScopeStep} {name : String} {held other : Holding}
    (declares : use.Declares step name held) (declaresOther : use.Declares step name other) :
    held = other := by
  obtain ⟨-, declared, rfl, -, isHeld⟩ := declares
  obtain ⟨-, again, same, -, isOther⟩ := declaresOther
  obtain rfl := ScopeStep.declare.inj same
  exact Option.some.inj (isHeld.symm.trans isOther)

/-- Among steps there is a declaration of a name, and behind it no body is left and the
name is not declared again. -/
def MostRecent (context : Context) (steps : List ScopeStep) (name : String) (held : Holding) :
    Prop :=
  ∃ before step later, steps = before ++ step :: later ∧
    (after context before).Declares step name held ∧
    ∀ between next rest, later = between ++ next :: rest →
      ¬ (after context (before ++ step :: between)).LeavesBody next ∧
        ∀ other, ¬ (after context (before ++ step :: between)).Declares next name other

section MostRecent

variable {context : Context} {steps : List ScopeStep} {name : String}

theorem not_mostRecent_nil (held : Holding) : ¬ MostRecent context [] name held := by
  rintro ⟨before, step, later, split, -⟩
  exact List.append_ne_nil_of_right_ne_nil before (List.cons_ne_nil step later) split.symm

/-- One more step is the most recent declaration itself, or neither leaves a body nor
declares the name. -/
theorem mostRecent_append_singleton_iff (step : ScopeStep) (held : Holding) :
    MostRecent context (steps ++ [step]) name held ↔
      (after context steps).Declares step name held ∨
        MostRecent context steps name held ∧ ¬ (after context steps).LeavesBody step ∧
          ∀ other, ¬ (after context steps).Declares step name other := by
  constructor
  · rintro ⟨before, first, later, split, declares, quiet⟩
    -- The last step is the declaration itself, or the last one behind it.
    rcases List.eq_nil_or_concat' later with rfl | ⟨earlier, last, rfl⟩
    · obtain ⟨rfl, isFirst⟩ := List.append_inj' split rfl
      obtain rfl := List.singleton_inj.mp isFirst
      exact .inl declares
    · rw [← List.cons_append, ← List.append_assoc] at split
      obtain ⟨rfl, isLast⟩ := List.append_inj' split rfl
      obtain rfl := List.singleton_inj.mp isLast
      refine .inr ⟨⟨before, first, earlier, rfl, declares, ?_⟩, quiet earlier step [] rfl⟩
      intro between next rest isEarlier
      exact quiet between next (rest ++ [step]) (by rw [isEarlier]; simp)
  · rintro (declares | ⟨⟨before, first, later, rfl, declares, quiet⟩, quietLast⟩)
    · refine ⟨steps, step, [], rfl, declares, ?_⟩
      intro between next rest isEmpty
      exact absurd isEmpty.symm (List.append_ne_nil_of_right_ne_nil between (List.cons_ne_nil _ _))
    · refine ⟨before, first, later ++ [step], by simp, declares, ?_⟩
      intro between next rest split
      rcases List.eq_nil_or_concat' rest with rfl | ⟨earlier, last, rfl⟩
      · obtain ⟨rfl, isNext⟩ := List.append_inj' split rfl
        obtain rfl := List.singleton_inj.mp isNext
        exact quietLast
      · rw [← List.cons_append, ← List.append_assoc] at split
        exact quiet between next earlier (List.append_inj' split rfl).1

theorem MostRecent.unique {held other : Holding} (recent : MostRecent context steps name held)
    (recentOther : MostRecent context steps name other) : held = other := by
  induction steps using List.reverseRecOn with
  | nil => exact absurd recent (not_mostRecent_nil held)
  | append_singleton steps step inductionHypothesis =>
      rw [mostRecent_append_singleton_iff] at recent recentOther
      rcases recent with declares | ⟨earlier, -, notAgain⟩
      · rcases recentOther with declaresOther | ⟨-, -, notAgain⟩
        · exact declares.unique declaresOther
        · exact absurd declares (notAgain held)
      · rcases recentOther with declaresOther | ⟨earlierOther, -, -⟩
        · exact absurd declaresOther (notAgain other)
        · exact inductionHypothesis earlier earlierOther

end MostRecent

/-! ### One step -/

section Step

variable {context : Context} {use : ScopeUse} {step : ScopeStep} {name : String}

theorem localTable_leave_of_body (inBody : use.opened.head? = some .body) (sort : VariableSort) :
    use.leave.localTable sort = {} := by
  obtain ⟨outer, isOpened⟩ := List.head?_eq_some_iff.mp inBody
  unfold leave
  rw [isOpened]
  cases sort <;> rfl

theorem localTable_leave_of_other (notInBody : use.opened.head? ≠ some .body)
    (sort : VariableSort) : use.leave.localTable sort = use.scope.localTable sort := by
  unfold leave
  split
  next => rfl
  next => cases sort <;> rfl
  next isOpened =>
    rw [isOpened] at notInBody
    exact absurd rfl notInBody

theorem find?_take_of_leavesBody (leaves : use.LeavesBody step) (sort : VariableSort) :
    ((use.take context step).scope.localTable sort).find? name = none := by
  obtain ⟨rfl, inBody⟩ := leaves
  have noneLeft := localTable_leave_of_body inBody sort
  show (use.leave.localTable sort).find? name = none
  rw [noneLeft]
  rfl

theorem find?_take_of_declares {held : Holding} (declares : use.Declares step name held)
    (named : name ≠ "") (sort : VariableSort) :
    ((use.take context step).scope.localTable sort).find? name = sort.type? held := by
  obtain ⟨isCalling, declared, rfl, isName, isHeld⟩ := declares
  obtain ⟨contract, inBody⟩ := Option.isSome_iff_exists.mp isCalling
  have tracked : declared.tracked? name = some held := by
    rw [Variable.tracked?, if_pos ⟨isName, named⟩, isHeld]
  have found := Scope.find?_declare inBody declared name sort
  rw [tracked] at found
  exact found

theorem find?_take_of_other (staysInBody : ¬ use.LeavesBody step)
    (declaresNot : name = "" ∨ ∀ held, ¬ use.Declares step name held) (sort : VariableSort) :
    ((use.take context step).scope.localTable sort).find? name =
      (use.scope.localTable sort).find? name := by
  cases step with
  | enterContract contract =>
      have kept := Scope.localTable_enterContract context use.scope contract sort
      exact congrArg (Table.find? · name) kept
  | enterBody => cases sort <;> rfl
  | leave =>
      have notInBody : use.opened.head? ≠ some .body := fun inBody => staysInBody ⟨rfl, inBody⟩
      exact congrArg (Table.find? · name) (localTable_leave_of_other notInBody sort)
  | declare declared =>
      show ((use.scope.declare declared).localTable sort).find? name = _
      cases calling : use.scope.calling with
      | none => rw [Scope.declare_of_not_calling calling]
      | some contract =>
          have untracked : declared.tracked? name = none := by
            unfold Variable.tracked?
            split
            next isNamed =>
              rcases declaresNot with isEmpty | never
              · exact absurd isEmpty isNamed.2
              · cases isHeld : declared.type.holding? with
                | none => rfl
                | some held =>
                    exact absurd ⟨by rw [calling]; rfl, declared, rfl, isNamed.1, isHeld⟩ (never held)
            next => rfl
          rw [Scope.find?_declare calling, untracked]
          rfl

end Step

/-! ### Whole uses -/

section Runs

variable (context : Context) (steps : List ScopeStep)

theorem find?_after_empty (sort : VariableSort) :
    ((after context steps).scope.localTable sort).find? "" = none := by
  induction steps using List.reverseRecOn with
  | nil => cases sort <;> rfl
  | append_singleton steps step inductionHypothesis =>
      rw [after_append_singleton]
      by_cases leaves : (after context steps).LeavesBody step
      · exact find?_take_of_leavesBody leaves sort
      · rw [find?_take_of_other leaves (.inl rfl), inductionHypothesis]

/-- A name that is not empty is found as its most recent declaration has it. -/
theorem find?_after_iff {name : String} (named : name ≠ "") (sort : VariableSort) (type : String) :
    ((after context steps).scope.localTable sort).find? name = some type ↔
      MostRecent context steps name (sort.holding type) := by
  induction steps using List.reverseRecOn with
  | nil =>
      have noneYet : ((after context []).scope.localTable sort).find? name = none := by
        cases sort <;> rfl
      rw [noneYet]
      exact iff_of_false nofun (not_mostRecent_nil _)
  | append_singleton steps step inductionHypothesis =>
      rw [mostRecent_append_singleton_iff, after_append_singleton]
      by_cases leaves : (after context steps).LeavesBody step
      · rw [find?_take_of_leavesBody leaves]
        refine iff_of_false nofun ?_
        rintro (⟨-, declared, rfl, -⟩ | ⟨-, stays, -⟩)
        · exact nomatch leaves.1
        · exact stays leaves
      · by_cases declaresSome : ∃ held, (after context steps).Declares step name held
        · obtain ⟨held, declares⟩ := declaresSome
          rw [find?_take_of_declares declares named, sort.type?_eq_some_iff]
          constructor
          · rintro rfl
            exact .inl declares
          · rintro (declaresType | ⟨-, -, notAgain⟩)
            · exact declares.unique declaresType
            · exact absurd declares (notAgain held)
        · have declaresNone := not_exists.mp declaresSome
          rw [find?_take_of_other leaves (.inr declaresNone), inductionHypothesis]
          constructor
          · intro recent
            exact .inr ⟨recent, leaves, declaresNone⟩
          · rintro (declares | ⟨recent, -, -⟩)
            · exact absurd declares (declaresNone _)
            · exact recent

/-- The tables hold the most recent declarations of names that are not empty, and
nothing else. -/
theorem find?_after_iff_mostRecent (sort : VariableSort) (name type : String) :
    ((after context steps).scope.localTable sort).find? name = some type ↔
      name ≠ "" ∧ MostRecent context steps name (sort.holding type) := by
  by_cases isEmpty : name = ""
  · subst isEmpty
    rw [find?_after_empty]
    exact iff_of_false nofun fun recent => recent.1 rfl
  · rw [find?_after_iff context steps isEmpty, and_iff_right isEmpty]

/-- No name is in both tables. -/
theorem not_contains_both (name : String) :
    ¬ ((after context steps).scope.plainLocals.contains name = true ∧
      (after context steps).scope.userDefinedLocals.contains name = true) := by
  rintro ⟨inPlain, inUserDefined⟩
  obtain ⟨plain, isPlain⟩ := Option.isSome_iff_exists.mp inPlain
  obtain ⟨userDefined, isUserDefined⟩ := Option.isSome_iff_exists.mp inUserDefined
  have recentPlain := ((find?_after_iff_mostRecent context steps .plain name plain).mp isPlain).2
  have recentUserDefined :=
    ((find?_after_iff_mostRecent context steps .userDefined name userDefined).mp isUserDefined).2
  exact nomatch recentPlain.unique recentUserDefined

end Runs

end ScopeUse

/-! ### Orderly uses -/

/-- A step that keeps to the order of a program: no contract inside another one, and
bodies only directly inside a contract. -/
def ScopeStep.IsOrderly (opened : List Region) : ScopeStep → Prop
  | enterContract _ => .contract ∉ opened
  | enterBody => opened.head? = some .contract
  | leave => True
  | declare _ => True

instance (opened : List Region) : (step : ScopeStep) → Decidable (step.IsOrderly opened)
  | .enterContract _ => inferInstanceAs (Decidable (.contract ∉ opened))
  | .enterBody => inferInstanceAs (Decidable (opened.head? = some .contract))
  | .leave => inferInstanceAs (Decidable True)
  | .declare _ => inferInstanceAs (Decidable True)

/-- Steps that keep to the order of a program, from what is open. -/
def Orderly (opened : List Region) : List ScopeStep → Prop
  | [] => True
  | step :: later => step.IsOrderly opened ∧ Orderly (step.openAfter opened) later

instance decidableOrderly : (opened : List Region) → (steps : List ScopeStep) →
    Decidable (Orderly opened steps)
  | _, [] => inferInstanceAs (Decidable True)
  | opened, step :: later =>
    let _ := decidableOrderly (step.openAfter opened) later
    inferInstanceAs (Decidable (step.IsOrderly opened ∧ Orderly (step.openAfter opened) later))

namespace ScopeUse

/-- The situations of an orderly use: outside, in a contract, and in a body of the
current contract. -/
inductive InOrder : ScopeUse → Prop
  | outside : InOrder {}
  | inContract (name : String) (plain userDefined : Table String String) :
      InOrder
        { scope := { current := some name, plainState := plain, userDefinedState := userDefined }
          opened := [.contract] }
  | inBody (scope : Scope) (name : String) (isCurrent : scope.current = some name)
      (isCalling : scope.calling = some name) :
      InOrder { scope, opened := [.body, .contract] }

theorem InOrder.take {use : ScopeUse} (inOrder : use.InOrder) (context : Context)
    {step : ScopeStep} (orderly : step.IsOrderly use.opened) : (use.take context step).InOrder := by
  cases inOrder with
  | outside =>
      cases step with
      | enterContract name =>
          obtain ⟨plain, userDefined, entered⟩ := Scope.enterContract_frame context name
          unfold ScopeUse.take
          dsimp only
          rw [entered]
          exact .inContract name plain userDefined
      | enterBody => contradiction
      | leave => exact .outside
      | declare declared => exact .outside
  | inContract name plain userDefined =>
      cases step with
      | enterContract other => exact absurd List.mem_cons_self orderly
      | enterBody => exact .inBody _ name rfl rfl
      | leave => exact .outside
      | declare declared => exact .inContract name plain userDefined
  | inBody scope name isCurrent isCalling =>
      cases step with
      | enterContract other => exact absurd (List.mem_cons_of_mem _ List.mem_cons_self) orderly
      | enterBody => exact absurd orderly (by simp [ScopeStep.IsOrderly])
      | leave =>
          have left : scope.leaveBody =
              { current := some name, plainState := scope.plainState
                userDefinedState := scope.userDefinedState } := by
            rw [← isCurrent]
            rfl
          unfold ScopeUse.take ScopeUse.leave
          dsimp only
          rw [left]
          exact .inContract name scope.plainState scope.userDefinedState
      | declare declared =>
          obtain ⟨_, _, changed⟩ := Scope.foldl_declare_frame scope [declared]
          have current := congrArg Scope.current changed
          exact .inBody _ name (current.trans isCurrent)
            ((Scope.calling_declare scope declared).trans isCalling)

theorem InOrder.foldl_take {use : ScopeUse} (inOrder : use.InOrder) (context : Context)
    {steps : List ScopeStep} (orderly : Orderly use.opened steps) :
    (steps.foldl (ScopeUse.take context) use).InOrder := by
  induction steps generalizing use with
  | nil => exact inOrder
  | cons step later inductionHypothesis =>
      exact inductionHypothesis (inOrder.take context orderly.1) orderly.2

theorem InOrder.calling_eq {use : ScopeUse} (inOrder : use.InOrder) :
    use.scope.calling = none ∨ use.scope.calling = use.scope.current := by
  cases inOrder with
  | outside => exact .inl rfl
  | inContract name plain userDefined => exact .inl rfl
  | inBody scope name isCurrent isCalling => exact .inr (isCalling.trans isCurrent.symm)

theorem InOrder.locals_eq {use : ScopeUse} (inOrder : use.InOrder)
    (outside : use.scope.calling = none) :
    use.scope.plainLocals = {} ∧ use.scope.userDefinedLocals = {} := by
  cases inOrder with
  | outside => exact ⟨rfl, rfl⟩
  | inContract name plain userDefined => exact ⟨rfl, rfl⟩
  | inBody scope name isCurrent isCalling =>
      rw [isCalling] at outside
      contradiction

theorem InOrder.leave_eq {use : ScopeUse} (inOrder : use.InOrder)
    (inContract : use.opened.head? = some .contract) : use.leave = {} := by
  cases inOrder with
  | outside => contradiction
  | inContract name plain userDefined => rfl
  | inBody scope name isCurrent isCalling =>
      have isContract : Region.body = .contract := Option.some.inj inContract
      contradiction

/-- After any steps, no name is in both tables of local variables, and a name is in one of
them with a type exactly if it is not empty and its most recent declaration, since a body
was last left, holds that type.  In an orderly use moreover the contract to call from is
the current one or absent, both tables are empty when it is absent, and leaving a contract
gives the fresh scope back. -/
theorem after_local_tables (context : Context) (steps : List ScopeStep) :
    (∀ name, ¬ ((after context steps).scope.plainLocals.contains name = true ∧
        (after context steps).scope.userDefinedLocals.contains name = true)) ∧
      (∀ name type, (after context steps).scope.plainLocals.find? name = some type ↔
        name ≠ "" ∧ MostRecent context steps name (.plain type)) ∧
      (∀ name type, (after context steps).scope.userDefinedLocals.find? name = some type ↔
        name ≠ "" ∧ MostRecent context steps name (.userDefined type)) ∧
      (Orderly [] steps →
        ((after context steps).scope.calling = none ∨
          (after context steps).scope.calling = (after context steps).scope.current) ∧
        ((after context steps).scope.calling = none →
          (after context steps).scope.plainLocals = {} ∧
            (after context steps).scope.userDefinedLocals = {}) ∧
        ((after context steps).opened.head? = some .contract →
          (after context (steps ++ [.leave])).scope = {})) := by
  refine ⟨not_contains_both context steps, find?_after_iff_mostRecent context steps .plain,
    find?_after_iff_mostRecent context steps .userDefined, ?_⟩
  intro orderly
  have inOrder : (after context steps).InOrder := InOrder.outside.foldl_take context orderly
  refine ⟨inOrder.calling_eq, inOrder.locals_eq, ?_⟩
  intro inContract
  rw [after_append_singleton]
  exact inOrder.leave_eq inContract

/-- A variable of one body, and one of the next body that is declared twice. -/
def tillSteps : List ScopeStep :=
  [.enterContract "Till", .enterBody, .declare { name := some "tip", type := .userDefined "Token" },
    .leave, .enterBody, .declare { name := some "fee", type := .elementary "uint" },
    .declare { name := some "fee", type := .userDefined "Vault" }]

theorem after_local_tables_till :
    Orderly [] tillSteps ∧ Orderly [] (tillSteps ++ [.leave]) ∧
      MostRecent (unitContext false tillUnits tillOrders) tillSteps "fee"
        (.userDefined "Vault") ∧
      (¬ MostRecent (unitContext false tillUnits tillOrders) tillSteps "tip"
        (.userDefined "Token")) ∧
      (after (unitContext false tillUnits tillOrders) tillSteps).scope.calling =
        (after (unitContext false tillUnits tillOrders) tillSteps).scope.current ∧
      (after (unitContext false tillUnits tillOrders)
        (tillSteps ++ [.leave] ++ [.leave])).scope = {} := by
  have orderly : Orderly [] tillSteps := by decide
  have orderlyLeft : Orderly [] (tillSteps ++ [.leave]) := by decide
  obtain ⟨-, -, userDefined, inOrder⟩ :=
    after_local_tables (unitContext false tillUnits tillOrders) tillSteps
  obtain ⟨-, -, -, leftInOrder⟩ :=
    after_local_tables (unitContext false tillUnits tillOrders) (tillSteps ++ [.leave])
  refine ⟨orderly, orderlyLeft, ((userDefined "fee" "Vault").mp rfl).2, ?_, ?_, ?_⟩
  · intro recent
    have found := (userDefined "tip" "Token").mpr ⟨by decide, recent⟩
    contradiction
  · rcases (inOrder orderly).1 with absent | isCurrent
    · contradiction
    · exact isCurrent
  · exact (leftInOrder orderlyLeft).2.2 rfl

/-- A variable with an empty name in a body. -/
def unnamedSteps : List ScopeStep :=
  [.enterContract "Till", .enterBody,
    .declare { name := some "", type := .elementary "uint256" }]

/-- The most recent declaration of the empty name is in no table. -/
theorem unnamed_not_in_tables :
    MostRecent (unitContext false [{ contracts := [{ name := "Till" }] }] ⟨[("Till", ["Till"])]⟩)
        unnamedSteps "" (.plain "uint256") ∧
      (after (unitContext false [{ contracts := [{ name := "Till" }] }] ⟨[("Till", ["Till"])]⟩)
        unnamedSteps).scope.plainLocals.find? "" = none := by
  refine ⟨?_, rfl⟩
  have split : unnamedSteps = [.enterContract "Till", .enterBody] ++
      [.declare { name := some "", type := .elementary "uint256" }] := rfl
  rw [split, mostRecent_append_singleton_iff]
  exact .inl ⟨rfl, _, rfl, rfl, rfl⟩

end ScopeUse

end ContractCalls.Analysis
