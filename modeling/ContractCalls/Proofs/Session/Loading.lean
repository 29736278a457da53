import ContractCalls.Proofs.Files.Readings
import ContractCalls.Proofs.Session.RunEffect
import ContractCalls.Proofs.TableEntries

/-!
Contract: the files that a session loads, and what it remembers of them.

Owns:
- `Loads`: what a path loads as, which no session has a say in;
- `Remembers`: sessions whose units are those that their paths load as;
- crawls in a session: they succeed exactly with readings that load.

Does not own: which readings a crawl makes.
-/

set_option autoImplicit false

namespace ContractCalls.Session

open ContractCalls.Files ContractCalls.Solidity

/-! ### What a path loads as -/

/-- What a path loads as: the unit of a file, none for a directory. -/
inductive Loads (disk : Disk) (path : String) : Option SourceUnit → Prop where
  | file {content : String} {unit : SourceUnit}
      (isText : disk.read (Path.ofString path) = .ok (some content))
      (parsed : parse (some path) content = .ok unit) : Loads disk path (some unit)
  | directory {error : FileError} (failed : disk.read (Path.ofString path) = .error error)
      (isDirectory : error.cause = .isDirectory) : Loads disk path none

/-- A reading that finds the imports of what its path loads as. -/
def LoadedReading (disk : Disk) (reading : Reading) : Prop :=
  ∃ unit, Loads disk reading.path unit ∧ reading.imports = unit.map SourceUnit.imports

theorem Loads.unique {disk : Disk} {path : String} {left right : Option SourceUnit}
    (isLeft : Loads disk path left) (isRight : Loads disk path right) : left = right := by
  cases isLeft with
  | file isText parsed =>
      cases isRight with
      | file sameText sameParsed =>
          obtain rfl := Option.some.inj (Except.ok.inj (isText.symm.trans sameText))
          rw [Except.ok.inj (parsed.symm.trans sameParsed)]
      | directory failed _ =>
          rw [isText] at failed
          contradiction
  | directory failed _ =>
      cases isRight with
      | file isText _ =>
          rw [isText] at failed
          contradiction
      | directory _ _ => rfl

/-- What is skipped is a directory. -/
theorem Loads.at?_directory {disk : Disk} {path : String} (loads : Loads disk path none) :
    ∃ children, disk.root.at? (disk.locateText path) = some (.directory children) := by
  cases loads with
  | directory failed isDirectory =>
      unfold Disk.read at failed
      split at failed
      next => contradiction
      next children found => exact ⟨children, (Disk.at?_of_find found).1⟩
      next cause found =>
        obtain rfl := Except.error.inj failed
        obtain rfl : cause = .isDirectory := isDirectory
        exact absurd found (Disk.find_ne_isDirectory _ _)

/-! ### What a session remembers -/

/-- Every unit of a session is what its path loads as. -/
def Remembers (disk : Disk) (session : Session) : Prop :=
  ∀ path unit, session.units.find? path = some unit → Loads disk path (some unit)

theorem remembers_empty (disk : Disk) : Remembers disk {} := by
  intro path unit known
  contradiction

/-- Loading took a session to another, which remembers right, has forgotten nothing
and knows given paths. -/
structure Learns (disk : Disk) (before after : Session) (paths : List String) : Prop where
  remembers : Remembers disk after
  keeps : ∀ path, before.units.contains path = true → after.units.contains path = true
  knows : ∀ path ∈ paths, after.units.contains path = true

namespace Learns

variable {disk : Disk} {before middle after : Session} {early late : List String}

theorem of_units_eq (remembers : Remembers disk before) (same : after.units = before.units) :
    Learns disk before after [] where
  remembers := by
    unfold Remembers
    rw [same]
    exact remembers
  keeps := by
    rw [same]
    exact fun _ known => known
  knows path member := absurd member List.not_mem_nil

theorem reported (remembers : Remembers disk before) (entries : List Log.Entry) :
    Learns disk before { before with log := before.log ++ entries.toArray } [] :=
  .of_units_eq remembers rfl

theorem trans (first : Learns disk before middle early) (second : Learns disk middle after late) :
    Learns disk before after (early ++ late) where
  remembers := second.remembers
  keeps path known := second.keeps path (first.keeps path known)
  knows path member := by
    rcases List.mem_append.mp member with isEarly | isLate
    · exact second.keeps path (first.knows path isEarly)
    · exact second.knows path isLate

/-- Sessions that know the same paths have the same units for them. -/
theorem units_eq {first second firstAfter secondAfter : Session} {paths : List String}
    (left : Learns disk first firstAfter paths) (right : Learns disk second secondAfter paths) :
    (paths.filterMap fun path => firstAfter.units.find? path) =
      paths.filterMap fun path => secondAfter.units.find? path := by
  apply List.filterMap_congr
  intro path member
  obtain ⟨leftUnit, leftKnown⟩ := Option.isSome_iff_exists.mp (left.knows path member)
  obtain ⟨rightUnit, rightKnown⟩ := Option.isSome_iff_exists.mp (right.knows path member)
  rw [leftKnown, rightKnown]
  exact (left.remembers path leftUnit leftKnown).unique
    (right.remembers path rightUnit rightKnown)

end Learns

section Files

variable {disk : Disk} {path : String} {unit : Option SourceUnit} {session after : Session}

theorem Remembers.insert {unit : SourceUnit} (remembers : Remembers disk session)
    (loads : Loads disk path (some unit)) (same : after.units = session.units.insert path unit) :
    Learns disk session after [path] where
  remembers := by
    intro other otherUnit known
    rw [same, Table.find?_insert] at known
    split at known
    next isPath =>
      obtain rfl := Option.some.inj known
      exact isPath ▸ loads
    next => exact remembers other otherUnit known
  keeps other known := by
    rw [same, Table.contains_insert, known, Bool.or_true]
  knows other member := by
    obtain rfl := List.mem_singleton.mp member
    rw [same, Table.contains_insert, decide_eq_true rfl, Bool.true_or]

/-- The paths that loading a unit makes known. -/
def known (path : String) (unit : Option SourceUnit) : List String :=
  listed [⟨path, unit.map SourceUnit.imports⟩]

theorem outcome_parseFile (loads : Loads disk path unit) (session : Session) :
    ∃ after, outcome (parseFile disk path) session = (.ok unit, after) ∧
      after.units = unit.elim session.units (session.units.insert path) := by
  unfold parseFile
  cases loads with
  | file isText parsed =>
      rw [isText]
      dsimp only
      unfold parseSource
      rw [parsed]
      exact ⟨_, rfl, rfl⟩
  | directory failed isDirectory =>
      rw [failed]
      dsimp only
      rw [isDirectory]
      exact ⟨_, rfl, rfl⟩

theorem parseFile_of_loads (remembers : Remembers disk session) (loads : Loads disk path unit) :
    ∃ after, outcome (parseFile disk path) session = (.ok unit, after) ∧
      Learns disk session after (known path unit) := by
  obtain ⟨after, ended, units⟩ := outcome_parseFile loads session
  refine ⟨after, ended, ?_⟩
  cases unit with
  | none => exact .of_units_eq remembers units
  | some unit => exact remembers.insert loads units

theorem loads_of_parseFile (ended : outcome (parseFile disk path) session = (.ok unit, after)) :
    Loads disk path unit := by
  unfold parseFile at ended
  split at ended
  next content isText =>
    obtain ⟨parsedUnit, middle, parsing, rest⟩ := exists_of_outcome_bind ended
    cases rest
    unfold parseSource at parsing
    split at parsing
    next parsed =>
      cases parsing
      exact .file isText parsed
    next => cases parsing
    next => cases parsing
  next => cases ended
  next error failed =>
    split at ended
    next isDirectory =>
      cases ended
      exact .directory failed isDirectory
    next => cases ended

theorem unitOf_of_loads (remembers : Remembers disk session) (loads : Loads disk path unit) :
    ∃ after, outcome (unitOf disk path) session = (.ok unit, after) ∧
      Learns disk session after (known path unit) := by
  unfold unitOf
  rw [outcome_bind_of_ok (outcome_get session)]
  cases found : session.units.find? path with
  | none => exact parseFile_of_loads remembers loads
  | some remembered =>
      obtain rfl := (remembers path remembered found).unique loads
      refine ⟨session, rfl, remembers, fun _ known => known, fun other member => ?_⟩
      obtain rfl := List.mem_singleton.mp member
      rw [Table.contains, found, Option.isSome_some]

/-- How a path gets its unit: it is remembered, or the path is loaded. -/
theorem unitOf_cases (ended : outcome (unitOf disk path) session = (.ok unit, after)) :
    (∃ remembered, unit = some remembered ∧ session.units.find? path = some remembered ∧
        after = session) ∨
      session.units.find? path = none ∧ Loads disk path unit ∧
        after.units = unit.elim session.units (session.units.insert path) := by
  unfold unitOf at ended
  rw [outcome_bind_of_ok (outcome_get session)] at ended
  cases found : session.units.find? path with
  | none =>
      rw [found] at ended
      have loads := loads_of_parseFile ended
      obtain ⟨_, parsed, units⟩ := outcome_parseFile loads session
      obtain rfl := (Prod.mk.inj (ended.symm.trans parsed)).2
      exact Or.inr ⟨rfl, loads, units⟩
  | some remembered =>
      rw [found] at ended
      cases ended
      exact Or.inl ⟨remembered, rfl, rfl, rfl⟩

theorem loads_of_unitOf (remembers : Remembers disk session)
    (ended : outcome (unitOf disk path) session = (.ok unit, after)) : Loads disk path unit := by
  rcases unitOf_cases ended with ⟨remembered, rfl, found, -⟩ | ⟨-, loads, -⟩
  · exact remembers path remembered found
  · exact loads

theorem importsOf_of_loads (remembers : Remembers disk session) (loads : Loads disk path unit) :
    ∃ after, outcome (importsOf disk path) session =
        (.ok (unit.map SourceUnit.imports), after) ∧
      Learns disk session after (known path unit) := by
  obtain ⟨after, ended, learns⟩ := unitOf_of_loads remembers loads
  refine ⟨after, ?_, learns⟩
  unfold importsOf
  rw [outcome_bind_of_ok ended]
  rfl

theorem loads_of_importsOf {imports : Option (List String)} (remembers : Remembers disk session)
    (ended : outcome (importsOf disk path) session = (.ok imports, after)) :
    ∃ unit, Loads disk path unit ∧ imports = unit.map SourceUnit.imports := by
  obtain ⟨unit, middle, loading, rest⟩ := exists_of_outcome_bind ended
  cases rest
  exact ⟨unit, loads_of_unitOf remembers loading, rfl⟩

end Files

/-! ### Crawls in a session -/

section Crawls

variable {disk : Disk} {unseen : List Location} {pending : List String} {session : Session}

theorem crawlFrom_of_skipped {path : String} {later : List String} {middle : Session}
    (fresh : disk.locateText path ∈ unseen)
    (read : outcome (importsOf disk path) session = (.ok none, middle)) :
    outcome (crawlFrom disk (importsOf disk) report unseen (path :: later)) session =
      outcome (crawlFrom disk (importsOf disk) report (without unseen (disk.locateText path))
        later) middle := by
  rw [crawlFrom, dif_pos fresh, outcome_bind_of_ok read]

theorem crawlFrom_of_read {path : String} {later imports : List String} {middle : Session}
    (fresh : disk.locateText path ∈ unseen)
    (read : outcome (importsOf disk path) session = (.ok (some imports), middle)) :
    outcome (crawlFrom disk (importsOf disk) report unseen (path :: later)) session =
      outcome (do
        report (unresolvedImports disk imports path)
        let rest ← crawlFrom disk (importsOf disk) report (without unseen (disk.locateText path))
          (later ++ resolvedImports disk imports path)
        return path :: rest) middle := by
  rw [crawlFrom, dif_pos fresh, outcome_bind_of_ok read]

/-- Readings that load are made in every session that remembers right. -/
theorem crawlFrom_of_reads {readings : List Reading} (reads : Reads disk unseen pending readings)
    (loaded : ∀ reading ∈ readings, LoadedReading disk reading)
    (remembers : Remembers disk session) :
    ∃ after, outcome (crawlFrom disk (importsOf disk) report unseen pending) session =
        (.ok (listed readings), after) ∧
      Learns disk session after (listed readings) := by
  induction reads generalizing session with
  | done unseen =>
      rw [crawlFrom]
      exact ⟨session, rfl, .of_units_eq remembers rfl⟩
  | again seen _ inductionHypothesis =>
      rw [crawlFrom, dif_neg seen]
      exact inductionHypothesis loaded remembers
  | first reading fresh _ inductionHypothesis =>
      obtain ⟨⟨unit, loads, found⟩, restLoaded⟩ := List.forall_mem_cons.mp loaded
      obtain ⟨path, imports⟩ := reading
      obtain rfl : imports = unit.map SourceUnit.imports := found
      obtain ⟨middle, read, learnsFirst⟩ := importsOf_of_loads remembers loads
      cases unit with
      | none =>
          obtain ⟨after, ended, learnsRest⟩ :=
            inductionHypothesis restLoaded learnsFirst.remembers
          rw [Option.map_none, targets_skipped, List.append_nil] at ended
          rw [crawlFrom_of_skipped fresh read, ended]
          exact ⟨after, rfl, learnsFirst.trans learnsRest⟩
      | some unit =>
          rw [crawlFrom_of_read fresh read, outcome_bind_of_ok (outcome_report _ _)]
          have learnsMore :=
            learnsFirst.trans (.reported learnsFirst.remembers
              (unresolvedImports disk unit.imports path))
          obtain ⟨after, ended, learnsRest⟩ :=
            inductionHypothesis restLoaded learnsMore.remembers
          refine ⟨after, outcome_bind_of_ok ended, learnsMore.trans learnsRest⟩

/-- A crawl that succeeds makes readings that load. -/
theorem reads_of_crawlFrom (session after : Session) (paths : List String)
    (remembers : Remembers disk session)
    (ended : outcome (crawlFrom disk (importsOf disk) report unseen pending) session =
      (.ok paths, after)) :
    ∃ readings, Reads disk unseen pending readings ∧
      (∀ reading ∈ readings, LoadedReading disk reading) ∧ paths = listed readings := by
  induction unseen, pending using crawlFrom.induct disk generalizing session paths after with
  | case1 unseen =>
      rw [crawlFrom] at ended
      cases ended
      exact ⟨[], .done unseen, by simp, rfl⟩
  | case2 unseen path later fresh _ remaining afterNone afterSome =>
      have split := ended
      rw [crawlFrom, dif_pos fresh] at split
      obtain ⟨imports, middle, read, -⟩ := exists_of_outcome_bind split
      obtain ⟨unit, loads, rfl⟩ := loads_of_importsOf remembers read
      obtain ⟨_, sameRead, learns⟩ := importsOf_of_loads remembers loads
      obtain rfl := (Prod.mk.inj (read.symm.trans sameRead)).2
      have loadedHead : LoadedReading disk ⟨path, unit.map SourceUnit.imports⟩ :=
        ⟨unit, loads, rfl⟩
      cases unit with
      | none =>
          rw [crawlFrom_of_skipped fresh read] at ended
          obtain ⟨readings, reads, loaded, rfl⟩ := afterNone _ _ _ learns.remembers ended
          refine ⟨⟨path, none⟩ :: readings, .first ⟨path, none⟩ fresh ?_, ?_, rfl⟩
          · rw [targets_skipped, List.append_nil]
            exact reads
          · exact List.forall_mem_cons.mpr ⟨loadedHead, loaded⟩
      | some unit =>
          rw [crawlFrom_of_read fresh read, outcome_bind_of_ok (outcome_report _ _)] at ended
          obtain ⟨others, last, crawled, returned⟩ := exists_of_outcome_bind ended
          cases returned
          have learnsMore :=
            Learns.reported learns.remembers (unresolvedImports disk unit.imports path)
          obtain ⟨readings, reads, loaded, rfl⟩ :=
            afterSome unit.imports _ _ _ learnsMore.remembers crawled
          exact ⟨_, .first ⟨path, some unit.imports⟩ fresh reads,
            List.forall_mem_cons.mpr ⟨loadedHead, loaded⟩, rfl⟩
  | case3 unseen path later seen inductionHypothesis =>
      rw [crawlFrom, dif_neg seen] at ended
      obtain ⟨readings, reads, loaded, same⟩ := inductionHypothesis _ _ _ remembers ended
      exact ⟨readings, .again seen reads, loaded, same⟩

end Crawls

/-! ### Listed files -/

/-- Files that load are all kept. -/
theorem filterM_of_loads {disk : Disk} {paths : List String} {session : Session}
    (remembers : Remembers disk session)
    (loaded : ∀ path ∈ paths, ∃ unit, Loads disk path (some unit)) :
    ∃ after, outcome (paths.filterM fun path => do return (← unitOf disk path).isSome) session =
        (.ok paths, after) ∧
      Learns disk session after paths := by
  have accumulating : ∀ kept : List String, ∃ after,
      outcome (paths.filterAuxM (fun path => do return (← unitOf disk path).isSome) kept)
          session = (.ok (paths.reverse ++ kept), after) ∧
        Learns disk session after paths := by
    induction paths generalizing session with
    | nil => exact fun kept => ⟨session, rfl, .of_units_eq remembers rfl⟩
    | cons path rest inductionHypothesis =>
        intro kept
        obtain ⟨⟨unit, loads⟩, restLoaded⟩ := List.forall_mem_cons.mp loaded
        obtain ⟨middle, ended, learnsFirst⟩ := unitOf_of_loads remembers loads
        obtain ⟨after, restEnded, learnsRest⟩ :=
          inductionHypothesis learnsFirst.remembers restLoaded (path :: kept)
        refine ⟨after, ?_, learnsFirst.trans learnsRest⟩
        have keeps : outcome (do return (← unitOf disk path).isSome) session =
            (.ok true, middle) := by
          rw [outcome_bind_of_ok ended]
          rfl
        rw [List.filterAuxM, outcome_bind_of_ok keeps, List.reverse_cons, List.append_assoc]
        exact restEnded
  obtain ⟨after, ended, learns⟩ := accumulating []
  refine ⟨after, ?_, learns⟩
  rw [List.filterM, outcome_bind_of_ok ended, List.append_nil]
  exact congrArg (fun kept => (Except.ok kept, after)) (List.reverse_reverse paths)

theorem loadUnits_of_paths {options : Options} {disk : Disk} {inputs paths : List String}
    {session after : Session} (arePaths : options.literalSources = false)
    (ended : outcome (pathsToAnalyse options disk inputs) session = (.ok paths, after)) :
    outcome (loadUnits options disk inputs) session =
      (.ok (paths.filterMap fun path => after.units.find? path), after) := by
  unfold loadUnits
  rw [arePaths, if_neg Bool.false_ne_true, outcome_bind_of_ok ended]
  rfl

/-- The units that inputs load as, if they load. -/
def loadedUnits (options : Options) (disk : Disk) (inputs : List String) (session : Session) :
    List SourceUnit :=
  (outcome (loadUnits options disk inputs) session).1.toOption.getD []

theorem loads_loadedUnits {options : Options} {disk : Disk} {inputs : List String}
    {session : Session} (loads : (outcome (loadUnits options disk inputs) session).1.isOk = true) :
    outcome (loadUnits options disk inputs) session =
      (.ok (loadedUnits options disk inputs session),
        (outcome (loadUnits options disk inputs) session).2) := by
  unfold loadedUnits
  rcases ended : outcome (loadUnits options disk inputs) session with ⟨failure | units, loaded⟩
  · rw [ended] at loads
    contradiction
  · rfl

end ContractCalls.Session
