import ContractCalls.Proofs.CallGraph.StateVariables

/-!
Contract: the library that a member call is redirected to, against the directives
in the source.

Owns:
- the search through the source: the directives of the last definition of a
  contract for one type, then those for every type, up to the first library whose
  last definition has the function;
- the table of attached libraries, seen through such searches;
- the agreement of the two, which holds for every member with a name.

A library is kept once for each type, at its first directive.  Searches for a first
match do not see the difference.
-/

set_option autoImplicit false

namespace ContractCalls.Solidity

/-! ### Directives and functions of a contract -/

/-- The library of a directive, with the type it is written for. -/
def Member.directive? : Member → Option (String × Option String)
  | usingFor library type => some (library, type)
  | _ => none

def Member.functionName? : Member → Option String
  | function name _ _ => name
  | _ => none

namespace Contract

def directives (contract : Contract) : List (String × Option String) :=
  contract.members.filterMap Member.directive?

def hasFunction (contract : Contract) (name : String) : Bool :=
  (contract.members.filterMap Member.functionName?).contains name

end Contract

/-- A directive for a type, under any of its spellings. -/
def isForType (type : String) : Option String → Bool
  | none => false
  | some written => canonicalType written == canonicalType type

/-- A directive for every type: it names no type, or the star. -/
def isForEveryType : Option String → Bool
  | none => true
  | some written => written.isEmpty || written == "*"

/-- The libraries of the directives for a type and then of those for every type,
each in source order. -/
def Contract.librariesInSource (contract : Contract) (type : String) : List String :=
  (contract.directives.filter fun directive => isForType type directive.2).map Prod.fst ++
    (contract.directives.filter fun directive => isForEveryType directive.2).map Prod.fst

theorem canonicalType_eq_star_iff (name : String) : canonicalType name = "*" ↔ name = "*" := by
  unfold canonicalType
  split
  next unsigned => simp [unsigned]
  next => split <;> simp_all

end ContractCalls.Solidity

namespace ContractCalls.Analysis

open ContractCalls.Solidity

namespace Declaration

/-! ### The table of attached libraries -/

/-- The libraries of members that are attached under a key, with repetitions. -/
def librariesUnder (key : String) (members : List Member) : List String :=
  ((members.filterMap Member.directive?).filter fun directive =>
    attachmentKey directive.2 == key).map Prod.fst

theorem librariesAt_attachLibrary (declaration : Declaration) (library : String)
    (type : Option String) (key : String) :
    (declaration.attachLibrary library type).librariesAt key =
      if attachmentKey type = key then
        if library ∈ declaration.librariesAt key then declaration.librariesAt key
        else declaration.librariesAt key ++ [library]
      else declaration.librariesAt key := by
  unfold attachLibrary librariesAt
  dsimp only
  rw [Table.find?_insert]
  by_cases same : attachmentKey type = key
  · simp [same]
  · simp [same]

theorem librariesAt_addMember_of_other (declaration : Declaration) {member : Member}
    (other : member.directive? = none) (key : String) :
    (declaration.addMember member).librariesAt key = declaration.librariesAt key := by
  cases member with
  | stateVariable name type =>
      dsimp only [addMember]
      split <;> rfl
  | function name kind callable =>
      dsimp only [addMember]
      split
      · rfl
      · split <;> rfl
  | usingFor library type => simp [Member.directive?] at other
  | modifier name callable => rfl
  | event name => rfl
  | struct name => rfl

/-- A library that is found again behind its first directive is not what a search
for a first match ends with. -/
theorem find?_append_new (before later : List String) (library : String)
    (wanted : String → Bool) :
    ((if library ∈ before then before else before ++ [library]) ++ later).find? wanted =
      (before ++ library :: later).find? wanted := by
  by_cases known : library ∈ before
  · rw [if_pos known, List.find?_append, List.find?_append, List.find?_cons]
    split
    next isWanted =>
      have found : (before.find? wanted).isSome := List.find?_isSome.mpr ⟨library, known, isWanted⟩
      rw [Option.or_of_isSome found, Option.or_of_isSome found]
    next => rfl
  · rw [if_neg known, List.append_assoc]
    rfl

theorem find?_librariesAt_foldl_addMember (declaration : Declaration) (members : List Member)
    (key : String) (wanted : String → Bool) :
    ((members.foldl addMember declaration).librariesAt key).find? wanted =
      (declaration.librariesAt key ++ librariesUnder key members).find? wanted := by
  induction members generalizing declaration with
  | nil => simp [librariesUnder]
  | cons member later inductionHypothesis =>
      rw [List.foldl_cons, inductionHypothesis]
      cases directive : member.directive? with
      | none =>
          rw [librariesAt_addMember_of_other declaration directive]
          simp [librariesUnder, directive]
      | some attached =>
          obtain ⟨library, type⟩ := attached
          cases member with
          | usingFor given for_ =>
              obtain ⟨rfl, rfl⟩ : given = library ∧ for_ = type := by
                simpa [Member.directive?] using directive
              rw [addMember, librariesAt_attachLibrary]
              by_cases same : attachmentKey for_ = key
              · rw [if_pos same, find?_append_new]
                simp [librariesUnder, Member.directive?, same]
              · rw [if_neg same]
                simp [librariesUnder, Member.directive?, same]
          | _ => simp [Member.directive?] at directive

theorem find?_librariesAt_ofContract (contract : Contract) (key : String)
    (wanted : String → Bool) :
    ((ofContract contract).librariesAt key).find? wanted =
      (librariesUnder key contract.members).find? wanted :=
  find?_librariesAt_foldl_addMember _ contract.members key wanted

theorem attachmentKey_eq_canonicalType_iff {type : String} (named : type ≠ "")
    (single : type ≠ "*") (written : Option String) :
    attachmentKey written = canonicalType type ↔ isForType type written = true := by
  have notStar : "*" ≠ canonicalType type := fun isStar =>
    single ((canonicalType_eq_star_iff type).mp isStar.symm)
  cases written with
  | none => simpa [attachmentKey, everyType, isForType] using notStar
  | some name =>
      by_cases empty : name = ""
      · subst empty
        have notEmpty : canonicalType "" ≠ canonicalType type := fun isEmpty =>
          named ((canonicalType_eq_empty_iff type).mp isEmpty.symm)
        simpa [attachmentKey, everyType, isForType, notEmpty] using notStar
      · simp [attachmentKey, isForType, empty]

theorem attachmentKey_eq_everyType_iff (written : Option String) :
    attachmentKey written = everyType ↔ isForEveryType written = true := by
  cases written with
  | none => simp [attachmentKey, isForEveryType]
  | some name =>
      by_cases empty : name = ""
      · simp [attachmentKey, isForEveryType, empty]
      · simp [attachmentKey, everyType, isForEveryType, empty, canonicalType_eq_star_iff]

/-- A first match among the libraries for a type is a first match in the source. -/
theorem find?_librariesFor_ofContract (contract : Contract) {type : String} (named : type ≠ "")
    (single : type ≠ "*") (wanted : String → Bool) :
    ((ofContract contract).librariesFor (canonicalType type)).find? wanted =
      (contract.librariesInSource type).find? wanted := by
  have specific : librariesUnder (canonicalType type) contract.members =
      (contract.directives.filter fun directive => isForType type directive.2).map Prod.fst := by
    unfold librariesUnder Contract.directives
    congr 2
    funext directive
    apply Bool.eq_iff_iff.mpr
    rw [beq_iff_eq, attachmentKey_eq_canonicalType_iff named single]
  have general : librariesUnder everyType contract.members =
      (contract.directives.filter fun directive => isForEveryType directive.2).map Prod.fst := by
    unfold librariesUnder Contract.directives
    congr 2
    funext directive
    apply Bool.eq_iff_iff.mpr
    rw [beq_iff_eq, attachmentKey_eq_everyType_iff]
  unfold librariesFor Contract.librariesInSource
  rw [List.find?_append, List.find?_append, find?_librariesAt_ofContract,
    find?_librariesAt_ofContract, specific, general]

/-! ### The list of functions -/

theorem functions_addMember (declaration : Declaration) (member : Member) :
    (declaration.addMember member).functions =
      declaration.functions ++ member.functionName?.toList.filter (· ≠ "") := by
  cases member with
  | stateVariable name type =>
      dsimp only [addMember]
      split <;> simp [Member.functionName?]
  | function name kind callable =>
      dsimp only [addMember, Member.functionName?]
      cases name with
      | none => simp
      | some given => by_cases empty : given = "" <;> simp [empty]
  | usingFor library type => simp [addMember, attachLibrary, Member.functionName?]
  | modifier name callable => simp [addMember, Member.functionName?]
  | event name => simp [addMember, Member.functionName?]
  | struct name => simp [addMember, Member.functionName?]

theorem functions_foldl_addMember (declaration : Declaration) (members : List Member) :
    (members.foldl addMember declaration).functions =
      declaration.functions ++ (members.filterMap Member.functionName?).filter (· ≠ "") := by
  induction members generalizing declaration with
  | nil => simp
  | cons member later inductionHypothesis =>
      rw [List.foldl_cons, inductionHypothesis, functions_addMember, List.append_assoc,
        ← List.filter_append]
      cases named : member.functionName? with
      | none => rw [List.filterMap_cons_none named, Option.toList_none, List.nil_append]
      | some name => rw [List.filterMap_cons_some named, Option.toList_some, List.singleton_append]

theorem contains_functions_ofContract (contract : Contract) {name : String} (named : name ≠ "") :
    (ofContract contract).functions.contains name = contract.hasFunction name := by
  apply Bool.eq_iff_iff.mpr
  rw [ofContract, functions_foldl_addMember, Contract.hasFunction]
  simp [named]

theorem empty_not_mem_functions_ofContract (contract : Contract) :
    (ofContract contract).functions.contains "" = false := by
  rw [ofContract, functions_foldl_addMember]
  simp

end Declaration

/-! ### The search through the source -/

/-- The last definition of a library has a function of this name. -/
def libraryDefines (units : List SourceUnit) (member library : String) : Bool :=
  (definition? units library).any fun definition => definition.hasFunction member

/-- The first library that the last definition of a contract attaches to a type, or
to every type, and that defines the member. -/
def firstAttached? (units : List SourceUnit) (contract type member : String) : Option String :=
  (definition? units contract).bind fun definition =>
    (definition.librariesInSource type).find? (libraryDefines units member)

namespace CallTarget

variable {units : List SourceUnit} {orders : Linearization.Orders} {omitLibraries : Bool}

theorem libraryHas_eq_libraryDefines {member : String} (named : member ≠ "") :
    libraryHas (unitContext omitLibraries units orders) member = libraryDefines units member := by
  funext library
  unfold libraryHas libraryDefines unitContext
  dsimp only
  rw [find?_declarations_eq_definition?]
  cases definition? units library with
  | none => rfl
  | some definition => exact Declaration.contains_functions_ofContract definition named

/-- Functions without a name are not listed, so none of them is found. -/
theorem libraryHas_empty (library : String) :
    libraryHas (unitContext omitLibraries units orders) "" library = false := by
  unfold libraryHas unitContext
  dsimp only
  rw [find?_declarations_eq_definition?]
  cases definition? units library with
  | none => rfl
  | some definition => exact Declaration.empty_not_mem_functions_ofContract definition

/-- Wherever a contract is the current one, the library for a member of a value is
the first one that a search through the source finds.  A member without a name has
none, whatever the source holds. -/
theorem attachedLibrary?_eq_firstAttached? {scope : Scope} {contract type : String}
    (inside : scope.current = some contract) (named : type ≠ "") (single : type ≠ "*")
    (member : String) :
    attachedLibrary? (unitContext omitLibraries units orders) scope type member =
      if member = "" then none else firstAttached? units contract type member := by
  have found : (unitContext omitLibraries units orders).declarations.find? contract =
      (definition? units contract).map Declaration.ofContract :=
    find?_declarations_eq_definition? units contract
  unfold attachedLibrary? firstAttached?
  rw [inside, Option.bind_eq_bind, Option.bind_some, Option.bind_eq_bind, found]
  cases definition? units contract with
  | none => simp
  | some definition =>
      rw [Option.map_some, Option.bind_some, Option.bind_some,
        Declaration.find?_librariesFor_ofContract definition named single]
      split
      next unnamed =>
        subst unnamed
        exact List.find?_eq_none.mpr fun library _ => by simp [libraryHas_empty library]
      next hasName => rw [libraryHas_eq_libraryDefines hasName]

/-- Directives under both spellings of a type and for every type, a library that is
attached twice, and a library and a contract that are defined again. -/
def ledgerUnits : List SourceUnit :=
  [{ contracts := [
      { name := "Ledger", members := [.usingFor "Old" (some "uint256")] },
      { name := "Safe", kind := .library
        members := [.function (some "add") .function {}, .function (some "sub") .function {}] },
      { name := "Math", kind := .library, members := [.function (some "add") .function {}] }] },
    { contracts := [
      { name := "Safe", kind := .library, members := [.function (some "sub") .function {}] },
      { name := "Any", kind := .library
        members := [.function (some "add") .function {}, .function (some "log") .function {}] },
      { name := "Ledger"
        members := [.usingFor "Any" (some "*"), .usingFor "Safe" (some "uint"),
          .usingFor "Math" (some "uint256"), .usingFor "Safe" (some "uint256"),
          .usingFor "Math" none] }] }]

theorem attachedLibrary?_eq_firstAttached?_ledger :
    (Scope.enterContract (unitContext false ledgerUnits {}) {} "Ledger").current = some "Ledger" ∧
      "uint" ≠ "" ∧ "uint" ≠ "*" ∧
      attachedLibrary? (unitContext false ledgerUnits {})
        (Scope.enterContract (unitContext false ledgerUnits {}) {} "Ledger") "uint" "add" =
          some "Math" ∧
      attachedLibrary? (unitContext false ledgerUnits {})
        (Scope.enterContract (unitContext false ledgerUnits {}) {} "Ledger") "int" "add" =
          some "Any" := by
  have inside : (Scope.enterContract (unitContext false ledgerUnits {}) {} "Ledger").current =
      some "Ledger" := rfl
  refine ⟨inside, by decide, by decide, ?_, ?_⟩
  · exact attachedLibrary?_eq_firstAttached? inside (by decide) (by decide) "add"
  · exact attachedLibrary?_eq_firstAttached? inside (by decide) (by decide) "add"

/-- A library with a function whose name is empty. -/
def unnamedUnits : List SourceUnit :=
  [{ contracts := [
      { name := "L", kind := .library, members := [.function (some "") .function {}] },
      { name := "C", members := [.usingFor "L" (some "uint256")] }] }]

/-- The search through the source finds a function with the empty name; the look-up
does not. -/
theorem attachedLibrary?_unnamed :
    firstAttached? unnamedUnits "C" "uint256" "" = some "L" ∧
      attachedLibrary? (unitContext false unnamedUnits {})
        (Scope.enterContract (unitContext false unnamedUnits {}) {} "C") "uint256" "" = none := by
  exact ⟨rfl, rfl⟩

end CallTarget

end ContractCalls.Analysis
