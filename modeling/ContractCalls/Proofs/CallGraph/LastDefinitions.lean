import ContractCalls.Proofs.CallGraph.CalleeNames
import ContractCalls.Proofs.CallGraph.GraphHistory

/-!
Contract: the first reading of a program against the last definition of each name.

Owns:
- the keys of a table that was filled by insertions, in the order of their first ones;
- the messages on repeated names, definition by definition: one is left exactly if the
  name is declared when its definition comes;
- the balance of names: those that are declared in the end and those in the messages
  are together the names of all definitions;
- the law that an entry is made from the last definition of its name alone.
-/

set_option autoImplicit false

namespace ContractCalls.Table

variable {κ α : Type} [DecidableEq κ]

theorem eraseDups_insert_append (keys rest : List κ) (key : κ) :
    ((if key ∈ keys then keys else keys ++ [key]) ++ rest).eraseDups =
      (keys ++ key :: rest).eraseDups := by
  by_cases present : key ∈ keys
  · have again : (key :: rest).removeAll keys = rest.removeAll keys := by
      simp [List.removeAll, present]
    rw [if_pos present, List.eraseDups_append, List.eraseDups_append, again]
  · rw [if_neg present, List.append_assoc, List.singleton_append]

/-- A merge lists the keys of both tables once, in the order of their first entries. -/
theorem keys_merge {table : Table κ α} (distinct : table.keys.Nodup) (entries : List (κ × α)) :
    (table.merge ⟨entries⟩).keys = (table.keys ++ entries.map Prod.fst).eraseDups := by
  induction entries generalizing table with
  | nil =>
      rw [List.map_nil, List.append_nil, eraseDups_of_nodup distinct]
      rfl
  | cons entry rest inductionHypothesis =>
      have stillDistinct := nodup_keys_insert table entry.1 entry.2 distinct
      have ofRest := inductionHypothesis stillDistinct
      rw [keys_insert, eraseDups_insert_append] at ofRest
      exact ofRest

end ContractCalls.Table

namespace ContractCalls.Analysis

open ContractCalls.Solidity

theorem keys_baseLists (declarations : Declarations) :
    declarations.baseLists.keys = declarations.keys := by
  unfold Declarations.baseLists Table.keys
  rw [List.map_map]
  rfl

namespace Collection

/-! ### Messages on repeated names -/

/-- The messages that contracts leave when they are added to a collection. -/
def messages (collection : Collection) (contracts : List Contract) : List Log.Entry :=
  Declarations.repeatedMessages collection.declarations.keys (contracts.map Contract.name)

theorem log_eq_messages (collection : Collection) (units : List SourceUnit) :
    collection.log units = collection.messages (unitContracts units) := by
  rw [log, messages, contractNames_eq_map]

theorem keys_addContract (collection : Collection) (contract : Contract) :
    (collection.addContract contract).declarations.keys =
      if contract.name ∈ collection.declarations.keys then collection.declarations.keys
      else collection.declarations.keys ++ [contract.name] := by
  unfold addContract Declarations.add
  rw [Table.keys_insert, Declaration.ofContract_name]

/-- A definition leaves a message exactly if its name is declared already, and those
behind it see the name as declared. -/
theorem messages_cons (collection : Collection) (contract : Contract) (later : List Contract) :
    collection.messages (contract :: later) =
      (if contract.name ∈ collection.declarations.keys then
        [Declarations.repeatedMessage contract.name] else []) ++
        (collection.addContract contract).messages later := by
  unfold messages
  rw [keys_addContract, List.map_cons, Declarations.repeatedMessages]
  simp only [List.contains_iff_mem]
  split <;> rfl

/-- Definitions are kept or reported: the names that are declared in the end, with
those in the messages, are the names that were declared before and those of the
definitions. -/
theorem exists_reported (collection : Collection) (contracts : List Contract) :
    ∃ reported, collection.messages contracts = reported.map Declarations.repeatedMessage ∧
      ((contracts.foldl addContract collection).declarations.keys ++ reported).Perm
        (collection.declarations.keys ++ contracts.map Contract.name) := by
  induction contracts generalizing collection with
  | nil => exact ⟨[], rfl, .refl _⟩
  | cons contract later inductionHypothesis =>
      obtain ⟨reported, isReported, balance⟩ := inductionHypothesis (collection.addContract contract)
      rw [keys_addContract] at balance
      rw [messages_cons, isReported, List.foldl_cons, List.map_cons]
      by_cases known : contract.name ∈ collection.declarations.keys
      · rw [if_pos known] at balance
        refine ⟨contract.name :: reported, ?_, ?_⟩
        · rw [if_pos known]
          rfl
        · exact List.perm_middle.trans ((balance.cons _).trans List.perm_middle.symm)
      · rw [if_neg known, List.append_assoc, List.singleton_append] at balance
        refine ⟨reported, ?_, balance⟩
        rw [if_neg known]
        rfl

/-! ### Entries -/

theorem keys_addUnits (units : List SourceUnit) :
    (addUnits {} units).declarations.keys = (contractNames units).eraseDups := by
  have noKeys : ({} : Collection).declarations.keys.Nodup := List.nodup_nil
  rw [addUnits_eq_foldl, declarations_foldl_addContract, Table.keys_merge noKeys,
    declarationEntries_keys, contractNames_eq_map]
  rfl

/-- One definition alone makes one entry. -/
theorem entries_addUnits_single (definition : Contract) :
    (addUnits {} [{ contracts := [definition] }]).declarations.entries =
      [(definition.name, Declaration.ofContract definition)] := by
  rw [addUnits_eq_foldl, declarations_foldl_addContract]
  rfl

theorem exists_definition_of_mem {units : List SourceUnit} {name : String}
    (defined : name ∈ contractNames units) :
    ∃ definition, definition? units name = some definition ∧ definition.name = name := by
  rw [contractNames_eq_map] at defined
  obtain ⟨contract, isContract, isNamed⟩ := List.mem_map.mp defined
  have found : (definition? units name).isSome :=
    List.find?_isSome.mpr ⟨contract, List.mem_reverse.mpr isContract, decide_eq_true isNamed⟩
  obtain ⟨definition, isDefinition⟩ := Option.isSome_iff_exists.mp found
  have named : definition.name = name := by simpa using List.find?_some isDefinition
  exact ⟨definition, isDefinition, named⟩

/-- The first reading of source units into an empty collection declares the distinct
contract names in the order of their first definitions.  The entry of a name is the one
that its last definition makes alone, and the base map has the bases of that definition.
The nodes are the same names in the same order, all defined, and there are no edges.  All
messages are on repeated names, and there is one for each definition beyond the number of
names. -/
theorem addUnits_keeps_last_definitions (units : List SourceUnit) :
    (addUnits {} units).declarations.keys = (contractNames units).eraseDups ∧
      (∀ name ∈ (contractNames units).eraseDups, ∃ definition declaration,
        definition? units name = some definition ∧
        (addUnits {} [{ contracts := [definition] }]).declarations.entries =
          [(name, declaration)] ∧
        (addUnits {} units).declarations.find? name = some declaration ∧
        (addUnits {} units).declarations.baseLists.find? name = some definition.bases) ∧
      (addUnits {} units).declarations.baseLists.keys = (contractNames units).eraseDups ∧
      (addUnits {} units).graph.nodes.entries =
        (contractNames units).eraseDups.map
          (fun name => (name, { label := name, defined := true })) ∧
      (addUnits {} units).graph.edges.entries = [] ∧
      ∃ reported, log {} units = reported.map Declarations.repeatedMessage ∧
        ((contractNames units).eraseDups ++ reported).Perm (contractNames units) ∧
        (log {} units).length =
          (unitContracts units).length - (contractNames units).eraseDups.length := by
  refine ⟨keys_addUnits units, ?_, (keys_baseLists _).trans (keys_addUnits units),
    nodes_addUnits units, by rw [edges_addUnits], ?_⟩
  · intro name listed
    obtain ⟨definition, isLast, rfl⟩ := exists_definition_of_mem (List.mem_eraseDups.mp listed)
    have found := find?_declarations_eq_definition? units definition.name
    rw [isLast, Option.map_some] at found
    refine ⟨definition, Declaration.ofContract definition, isLast,
      entries_addUnits_single definition, found, ?_⟩
    rw [find?_baseLists, found, Option.map_some, Declaration.ofContract_bases]
  · obtain ⟨reported, isReported, balance⟩ := exists_reported {} (unitContracts units)
    rw [← addUnits_eq_foldl, keys_addUnits, ← contractNames_eq_map] at balance
    have count : (contractNames units).eraseDups.length + reported.length =
        (unitContracts units).length := by
      have total := balance.length_eq
      rw [List.length_append, contractNames_eq_map, List.length_append, List.length_map] at total
      rw [contractNames_eq_map]
      exact total.trans (Nat.zero_add _)
    refine ⟨reported, (log_eq_messages {} units).trans isReported, balance, ?_⟩
    rw [log_eq_messages, isReported, List.length_map]
    omega

/-- A contract that is defined three times, twice in one unit, each time with other
contents. -/
def revisedUnits : List SourceUnit :=
  [{ contracts := [
      { name := "Vault", kind := .library, bases := ["Old"]
        members := [.stateVariable "owner" (.userDefined "Token"), .event "Paid"] },
      { name := "Pool", bases := ["Vault"] },
      { name := "Vault", bases := ["Older", "Old"]
        members := [.struct "Slot", .usingFor "Math" none] }] },
    { contracts := [
      { name := "Vault", bases := ["Base"]
        members := [.stateVariable "owner" (.elementary "uint")] }] }]

theorem addUnits_keeps_last_definitions_revised :
    "Vault" ∈ (contractNames revisedUnits).eraseDups ∧
      (addUnits {} revisedUnits).declarations.keys = ["Vault", "Pool"] ∧
      (∃ declaration, (addUnits {} revisedUnits).declarations.find? "Vault" = some declaration ∧
        declaration = { name := "Vault", kind := .contract, bases := ["Base"]
                        plainVariables := ⟨[("owner", "uint256")]⟩ }) ∧
      (log {} revisedUnits).length = 4 - 2 := by
  have isName : "Vault" ∈ (contractNames revisedUnits).eraseDups := by decide
  obtain ⟨keys, entries, -, -, -, -, -, -, count⟩ := addUnits_keeps_last_definitions revisedUnits
  obtain ⟨definition, declaration, isLast, alone, found, -⟩ := entries "Vault" isName
  obtain rfl := Option.some.inj isLast
  obtain ⟨isEntry, -⟩ := List.cons.inj alone
  exact ⟨isName, keys, ⟨declaration, found, (Prod.mk.inj isEntry).2.symm⟩, count⟩

end Collection

end ContractCalls.Analysis
