import ContractCalls.Proofs.Files.Readings
import Mathlib.Order.Nat

/-!
Contract: a crawl reads the import closure of its start, nearest files first.

Owns:
- `Found`: the paths that a number of imports leads to from the start, and the
  distance of a place;
- `Layered`: the pending paths of a crawl, those of one level before those of the
  next, and what one step of the crawl keeps of this;
- the crawl with a reader that answers by the place: what it reads, what it lists,
  and in which order.
-/

set_option autoImplicit false

namespace ContractCalls.Files

/-! ### What imports lead to -/

/-- The paths that are given at the start, after no import, and those that the
imports of a path found stand for, after one import more. -/
inductive Found (disk : Disk) (answer : Location → Option (List String)) (start : List String) :
    Nat → String → Prop where
  | given {path : String} (member : path ∈ start) : Found disk answer start 0 path
  | imported {steps : Nat} {path : String} {imports : List String} {name target : String}
      (found : Found disk answer start steps path)
      (answered : answer (disk.locateText path) = some imports) (member : name ∈ imports)
      (resolved : resolveImport disk name path = some target) :
      Found disk answer start (steps + 1) target

/-- A place that a number of imports leads to. -/
def FoundAt (disk : Disk) (answer : Location → Option (List String)) (start : List String)
    (place : Location) (steps : Nat) : Prop :=
  ∃ path, Found disk answer start steps path ∧ disk.locateText path = place

/-- The least number of imports that leads to a place. -/
def Distance (disk : Disk) (answer : Location → Option (List String)) (start : List String)
    (place : Location) (steps : Nat) : Prop :=
  IsLeast {count | FoundAt disk answer start place count} steps

theorem exists_distance_iff (disk : Disk) (answer : Location → Option (List String))
    (start : List String) (place : Location) :
    (∃ steps, Distance disk answer start place steps) ↔
      ∃ steps path, Found disk answer start steps path ∧ disk.locateText path = place := by
  classical
  constructor
  · rintro ⟨steps, least⟩
    exact ⟨steps, least.1⟩
  · intro found
    exact ⟨_, Nat.isLeast_find found⟩

/-- Answers that find imports only where a file stands. -/
def OnlyFiles (disk : Disk) (answer : Location → Option (List String)) : Prop :=
  ∀ place imports, answer place = some imports →
    ∃ text, disk.root.at? place = some (.file text)

section Closure

variable {disk : Disk} {answer : Location → Option (List String)} {start : List String}

/-- The reading of a path by a reader that answers by the place. -/
def readingOf (disk : Disk) (answer : Location → Option (List String)) (path : String) : Reading :=
  ⟨path, answer (disk.locateText path)⟩

theorem Found.target {steps : Nat} {path target : String}
    (found : Found disk answer start steps path)
    (isTarget : target ∈ (readingOf disk answer path).targets disk) :
    Found disk answer start (steps + 1) target := by
  obtain ⟨name, member, resolved⟩ := (mem_resolvedImports_iff _ _ _ _).mp isTarget
  dsimp only [readingOf] at member
  cases answered : answer (disk.locateText path) with
  | none => simp [answered] at member
  | some imports => exact .imported found answered (by simpa [answered] using member) resolved

theorem Found.exists_source {steps : Nat} {target : String}
    (found : Found disk answer start (steps + 1) target) :
    ∃ path, Found disk answer start steps path ∧
      target ∈ (readingOf disk answer path).targets disk := by
  cases found with
  | @imported _ path imports name _ before answered member resolved =>
      refine ⟨path, before, (mem_resolvedImports_iff _ _ _ _).mpr ⟨name, ?_, resolved⟩⟩
      simpa [readingOf, answered] using member

section Spelling

variable (grounded : disk.Grounded) (onlyFiles : OnlyFiles disk answer)
  (named : ∀ path ∈ start, (Path.ofString path).parts.getLast? ≠ some parentName)
include grounded onlyFiles named

theorem Found.endsInName {steps : Nat} {path : String} {imports : List String}
    (found : Found disk answer start steps path)
    (answered : answer (disk.locateText path) = some imports) : EndsInName path := by
  cases found with
  | given member =>
      obtain ⟨text, stands⟩ := onlyFiles _ _ answered
      exact endsInName_of_file grounded (named path member) stands
  | imported _ _ _ resolved => exact (file_of_resolveImport grounded resolved).1

/-- A file imports the same files under all spellings by which it is found. -/
theorem Found.targets_eq {leftSteps rightSteps : Nat} {left right : String}
    (leftFound : Found disk answer start leftSteps left)
    (rightFound : Found disk answer start rightSteps right)
    (same : disk.locateText left = disk.locateText right) :
    (readingOf disk answer left).targets disk = (readingOf disk answer right).targets disk := by
  unfold readingOf
  cases answered : answer (disk.locateText right) with
  | none => rw [same, answered, targets_skipped, targets_skipped]
  | some imports =>
      rw [same, answered]
      have leftEnds := leftFound.endsInName grounded onlyFiles named (same ▸ answered)
      have rightEnds := rightFound.endsInName grounded onlyFiles named answered
      exact resolvedImports_congr leftEnds rightEnds same imports

end Spelling

/-! ### Levels -/

/-- The pending paths of a crawl: `current` after `level` imports, `next` after one
more.  Places that fewer imports lead to were seen, and what is still to be seen on
this level, or is imported by a file that was seen, is pending at its place. -/
structure Layered (disk : Disk) (answer : Location → Option (List String)) (start : List String)
    (level : Nat) (unseen : List Location) (current next : List String) : Prop where
  current_found : ∀ path ∈ current, Found disk answer start level path
  next_found : ∀ path ∈ next, Found disk answer start (level + 1) path
  nearer_seen : ∀ steps path, Found disk answer start steps path → steps < level →
    disk.locateText path ∉ unseen
  level_pending : ∀ path, Found disk answer start level path → disk.locateText path ∈ unseen →
    disk.locateText path ∈ current.map disk.locateText
  targets_pending : ∀ steps path target, Found disk answer start steps path →
    disk.locateText path ∉ unseen → target ∈ (readingOf disk answer path).targets disk →
    disk.locateText target ∈ unseen →
    disk.locateText target ∈ (current ++ next).map disk.locateText

namespace Layered

variable {level : Nat} {unseen : List Location} {current next : List String}

/-- A crawl starts on level zero. -/
theorem initial {pending : List String} (samePaths : ∀ path, path ∈ pending ↔ path ∈ start)
    (unseen : List Location)
    (allUnseen : ∀ steps path, Found disk answer start steps path →
      disk.locateText path ∈ unseen) :
    Layered disk answer start 0 unseen pending [] where
  current_found path member := .given ((samePaths path).mp member)
  next_found path member := absurd member List.not_mem_nil
  nearer_seen _ _ _ below := absurd below (Nat.not_lt_zero _)
  level_pending path found _ := by
    cases found with
    | given member => exact List.mem_map_of_mem ((samePaths path).mpr member)
  targets_pending steps path _ found seen := absurd (allUnseen steps path found) seen

theorem level_seen (layered : Layered disk answer start level unseen [] next) {steps : Nat}
    {path : String} (found : Found disk answer start steps path) (atMost : steps ≤ level) :
    disk.locateText path ∉ unseen := by
  intro isUnseen
  rcases Nat.lt_or_eq_of_le atMost with below | rfl
  · exact layered.nearer_seen steps path found below isUnseen
  · have pending := layered.level_pending path found isUnseen
    simp at pending

/-- Where nothing is pending on a level, the next one is begun. -/
theorem advance (layered : Layered disk answer start level unseen [] next) :
    Layered disk answer start (level + 1) unseen next [] where
  current_found := layered.next_found
  next_found path member := absurd member List.not_mem_nil
  nearer_seen steps path found below := layered.level_seen found (Nat.le_of_lt_succ below)
  level_pending path found isUnseen := by
    obtain ⟨source, sourceFound, isTarget⟩ := found.exists_source
    have sourceSeen := layered.level_seen sourceFound (Nat.le_refl level)
    exact layered.targets_pending level source path sourceFound sourceSeen isTarget isUnseen
  targets_pending steps path target found seen isTarget isUnseen := by
    rw [List.append_nil]
    exact layered.targets_pending steps path target found seen isTarget isUnseen

/-- A path whose place was seen can be passed over. -/
theorem again {path : String}
    (layered : Layered disk answer start level unseen (path :: current) next)
    (seen : disk.locateText path ∉ unseen) :
    Layered disk answer start level unseen current next where
  current_found other member := layered.current_found other (List.mem_cons_of_mem path member)
  next_found := layered.next_found
  nearer_seen := layered.nearer_seen
  level_pending other found isUnseen := by
    rcases List.mem_cons.mp (layered.level_pending other found isUnseen) with same | later
    · exact absurd (same ▸ isUnseen) seen
    · exact later
  targets_pending steps source target found sourceSeen isTarget isUnseen := by
    have pending := layered.targets_pending steps source target found sourceSeen isTarget isUnseen
    rcases List.mem_cons.mp pending with same | later
    · exact absurd (same ▸ isUnseen) seen
    · exact later

/-- A path that is read puts what it imports on the next level. -/
theorem first {path : String}
    (layered : Layered disk answer start level unseen (path :: current) next)
    (sameTargets : ∀ steps other, Found disk answer start steps other →
      disk.locateText other = disk.locateText path →
      (readingOf disk answer other).targets disk = (readingOf disk answer path).targets disk) :
    Layered disk answer start level (without unseen (disk.locateText path)) current
      (next ++ (readingOf disk answer path).targets disk) where
  current_found other member := layered.current_found other (List.mem_cons_of_mem path member)
  next_found other member := by
    rcases List.mem_append.mp member with before | isTarget
    · exact layered.next_found other before
    · exact (layered.current_found path List.mem_cons_self).target isTarget
  nearer_seen steps other found below isUnseen :=
    layered.nearer_seen steps other found below ((mem_without_iff _ _ _).mp isUnseen).1
  level_pending other found isUnseen := by
    obtain ⟨wasUnseen, different⟩ := (mem_without_iff _ _ _).mp isUnseen
    exact (List.mem_cons.mp (layered.level_pending other found wasUnseen)).resolve_left different
  targets_pending steps source target found sourceSeen isTarget isUnseen := by
    obtain ⟨wasUnseen, different⟩ := (mem_without_iff _ _ _).mp isUnseen
    rw [← List.append_assoc, List.map_append, List.mem_append]
    by_cases same : disk.locateText source = disk.locateText path
    · rw [sameTargets steps source found same] at isTarget
      exact Or.inr (List.mem_map_of_mem isTarget)
    · have sourceWasSeen : disk.locateText source ∉ unseen := fun sourceUnseen =>
        sourceSeen ((mem_without_iff _ _ _).mpr ⟨sourceUnseen, same⟩)
      have pending :=
        layered.targets_pending steps source target found sourceWasSeen isTarget wasUnseen
      exact Or.inl ((List.mem_cons.mp pending).resolve_left different)

/-- The first pending path can be taken to be on the current level. -/
theorem exists_head (layered : Layered disk answer start level unseen current next)
    {path : String} {later : List String} (pending : current ++ next = path :: later) :
    ∃ level rest following, Layered disk answer start level unseen (path :: rest) following ∧
      rest ++ following = later := by
  cases current with
  | cons head rest =>
      obtain ⟨rfl, rfl⟩ := List.cons.inj pending
      exact ⟨level, rest, next, layered, rfl⟩
  | nil =>
      have next_eq : next = path :: later := pending
      subst next_eq
      exact ⟨level + 1, later, [], layered.advance, List.append_nil later⟩

end Layered

section Order

variable (grounded : disk.Grounded) (onlyFiles : OnlyFiles disk answer)
  (named : ∀ path ∈ start, (Path.ofString path).parts.getLast? ≠ some parentName)
include grounded onlyFiles named

/-- All that is read was found, and no place is read after one that is farther
from the start. -/
theorem Reads.nearest_first {level : Nat} {unseen : List Location}
    {current next pending : List String} {readings : List Reading}
    (reads : Reads disk unseen pending readings) (isPending : current ++ next = pending)
    (layered : Layered disk answer start level unseen current next)
    (answers : ∀ reading ∈ readings, reading = readingOf disk answer reading.path) :
    (∀ reading ∈ readings, ∃ steps, Found disk answer start steps reading.path) ∧
      (places disk readings).Pairwise fun earlier later => ∀ less more,
        Distance disk answer start earlier less → Distance disk answer start later more →
          less ≤ more := by
  induction reads generalizing level current next with
  | done => exact ⟨by simp, .nil⟩
  | again seen _ inductionHypothesis =>
      obtain ⟨_, _, _, headed, rest⟩ := layered.exists_head isPending
      exact inductionHypothesis rest (headed.again seen) answers
  | @first reading _ _ readings _ rest inductionHypothesis =>
      obtain ⟨level, current, next, headed, split⟩ := layered.exists_head isPending
      have found := headed.current_found reading.path List.mem_cons_self
      have after := headed.first fun steps other otherFound same =>
        otherFound.targets_eq grounded onlyFiles named found same
      rw [← answers reading List.mem_cons_self] at after
      have laterAnswers : ∀ later ∈ readings, later = readingOf disk answer later.path :=
        fun later member => answers later (List.mem_cons_of_mem reading member)
      obtain ⟨laterFound, ordered⟩ := inductionHypothesis
        (by rw [← List.append_assoc, split]) after laterAnswers
      refine ⟨List.forall_mem_cons.mpr ⟨⟨level, found⟩, laterFound⟩, .cons ?_ ordered⟩
      -- The head is on the current level, and nothing unseen is on a level below it.
      intro place member less more isLess isMore
      have atMost : less ≤ level := isLess.2 ⟨reading.path, found, rfl⟩
      have atLeast : level ≤ more := by
        obtain ⟨path, pathFound, rfl⟩ := isMore.1
        by_contra nearer
        exact after.nearer_seen more path pathFound (Nat.lt_of_not_le nearer)
          (rest.subset_unseen _ member)
      exact Nat.le_trans atMost atLeast

/-- All that is found is read, if none of it was seen before. -/
theorem Reads.complete {unseen : List Location} {pending : List String} {readings : List Reading}
    (reads : Reads disk unseen pending readings)
    (startPending : ∀ path ∈ start, path ∈ pending)
    (allUnseen : ∀ steps path, Found disk answer start steps path →
      disk.locateText path ∈ unseen)
    (allFound : ∀ reading ∈ readings, ∃ steps, Found disk answer start steps reading.path)
    (answers : ∀ reading ∈ readings, reading = readingOf disk answer reading.path)
    {steps : Nat} {path : String} (found : Found disk answer start steps path) :
    disk.locateText path ∈ places disk readings := by
  induction steps generalizing path with
  | zero =>
      cases found with
      | given member =>
          exact reads.pending_read (startPending path member) (allUnseen 0 path (.given member))
  | succ steps inductionHypothesis =>
      obtain ⟨source, sourceFound, isTarget⟩ := found.exists_source
      obtain ⟨reading, member, same⟩ := List.mem_map.mp (inductionHypothesis sourceFound)
      obtain ⟨_, readingFound⟩ := allFound reading member
      rw [sourceFound.targets_eq grounded onlyFiles named readingFound same.symm,
        ← answers reading member] at isTarget
      exact reads.targets_read member isTarget (allUnseen _ path found)

end Order

end Closure

/-! ### The crawl with a reader that notes what it is asked for -/

/-- A reader that notes every path it is asked for and answers by the place. -/
def noting (disk : Disk) (answer : Location → Option (List String)) (path : String) :
    StateM (List String) (Option (List String)) := do
  modify fun asked => asked ++ [path]
  return answer (disk.locateText path)

/-- The crawl with this reader, from paths asked for before: what it lists, and all
that was asked for. -/
def notedFrom (disk : Disk) (answer : Location → Option (List String))
    (unseen : List Location) (pending asked : List String) : List String × List String :=
  (crawlFrom disk (noting disk answer) (fun _ => pure ()) unseen pending).run asked

section Noted

variable {disk : Disk} {answer : Location → Option (List String)} {unseen : List Location}
  {path : String} {later : List String}

theorem notedFrom_nil (unseen : List Location) (asked : List String) :
    notedFrom disk answer unseen [] asked = ([], asked) := by
  rw [notedFrom, crawlFrom]
  rfl

theorem notedFrom_of_seen (seen : disk.locateText path ∉ unseen) (asked : List String) :
    notedFrom disk answer unseen (path :: later) asked =
      notedFrom disk answer unseen later asked := by
  rw [notedFrom, crawlFrom, dif_neg seen]
  rfl

theorem notedFrom_of_skipped (fresh : disk.locateText path ∈ unseen)
    (skipped : answer (disk.locateText path) = none) (asked : List String) :
    notedFrom disk answer unseen (path :: later) asked =
      notedFrom disk answer (without unseen (disk.locateText path)) later (asked ++ [path]) := by
  rw [notedFrom, crawlFrom, dif_pos fresh]
  simp only [noting, skipped]
  rfl

theorem notedFrom_of_read {imports : List String} (fresh : disk.locateText path ∈ unseen)
    (answered : answer (disk.locateText path) = some imports) (asked : List String) :
    notedFrom disk answer unseen (path :: later) asked =
      let rest := notedFrom disk answer (without unseen (disk.locateText path))
        (later ++ resolvedImports disk imports path) (asked ++ [path])
      (path :: rest.1, rest.2) := by
  rw [notedFrom, crawlFrom, dif_pos fresh]
  simp only [noting, answered]
  rfl

end Noted

theorem notedFrom_reads (disk : Disk) (answer : Location → Option (List String))
    (unseen : List Location) (pending asked : List String) :
    ∃ readings, Reads disk unseen pending readings ∧
      (∀ reading ∈ readings, reading = readingOf disk answer reading.path) ∧
      notedFrom disk answer unseen pending asked =
        (listed readings, asked ++ readings.map Reading.path) := by
  induction unseen, pending using crawlFrom.induct disk generalizing asked with
  | case1 unseen =>
      refine ⟨[], .done unseen, by simp, ?_⟩
      rw [notedFrom_nil, listed_nil, List.map_nil, List.append_nil]
  | case2 unseen path later fresh _ remaining afterNone afterSome =>
      cases answered : answer (disk.locateText path) with
      | none =>
          obtain ⟨readings, reads, answers, ran⟩ := afterNone (asked ++ [path])
          refine ⟨⟨path, none⟩ :: readings, .first ⟨path, none⟩ fresh ?_, ?_, ?_⟩
          · rw [targets_skipped, List.append_nil]
            exact reads
          · exact List.forall_mem_cons.mpr ⟨by rw [readingOf, answered], answers⟩
          · rw [notedFrom_of_skipped fresh answered, ran]
            simp
      | some imports =>
          obtain ⟨readings, reads, answers, ran⟩ := afterSome imports (asked ++ [path])
          refine ⟨⟨path, some imports⟩ :: readings, .first ⟨path, some imports⟩ fresh reads, ?_, ?_⟩
          · exact List.forall_mem_cons.mpr ⟨by rw [readingOf, answered], answers⟩
          · rw [notedFrom_of_read fresh answered, ran]
            simp
  | case3 unseen path later seen inductionHypothesis =>
      obtain ⟨readings, reads, answers, ran⟩ := inductionHypothesis asked
      refine ⟨readings, .again seen reads, answers, ?_⟩
      rw [notedFrom_of_seen seen, ran]

theorem listed_eq_filter {disk : Disk} {answer : Location → Option (List String)}
    {readings : List Reading}
    (answers : ∀ reading ∈ readings, reading = readingOf disk answer reading.path) :
    listed readings = (readings.map Reading.path).filter fun path =>
      (answer (disk.locateText path)).isSome := by
  rw [listed, kept, List.filter_map]
  congr 1
  apply List.filter_congr
  intro reading member
  rw [answers reading member]
  rfl

/-- A place that is found is one of the start or holds a file. -/
theorem Found.mem_unseen {disk : Disk} {answer : Location → Option (List String)}
    {start : List String} (grounded : disk.Grounded) {steps : Nat} {path : String}
    (found : Found disk answer start steps path) :
    disk.locateText path ∈ start.map disk.locateText ++ disk.fileLocations := by
  cases found with
  | given member => exact List.mem_append_left _ (List.mem_map_of_mem member)
  | imported _ _ _ resolved =>
      obtain ⟨-, text, stands⟩ := file_of_resolveImport grounded resolved
      exact List.mem_append_right _ (Disk.mem_fileLocations_of_at? stands)

/-- A crawl asks once for every place that imports lead to and for no other place.
It lists what it asked for without what was skipped, no place twice and none after
a place that is farther from the start. -/
theorem crawl_reads_import_closure {disk : Disk} {answer : Location → Option (List String)}
    {start : List String} (grounded : disk.Grounded) (onlyFiles : OnlyFiles disk answer)
    (named : ∀ path ∈ start, (Path.ofString path).parts.getLast? ≠ some parentName) :
    ∃ returned asked,
      (crawl disk (noting disk answer) (fun _ => pure ()) start).run [] = (returned, asked) ∧
      (asked.map disk.locateText).Nodup ∧
      (∀ place, place ∈ asked.map disk.locateText ↔
        ∃ steps, Distance disk answer start place steps) ∧
      (returned = asked.filter fun path => (answer (disk.locateText path)).isSome) ∧
      (returned.map disk.locateText).Nodup ∧
      (returned.map disk.locateText).Pairwise fun earlier later => ∀ less more,
        Distance disk answer start earlier less → Distance disk answer start later more →
          less ≤ more := by
  obtain ⟨readings, reads, answers, ran⟩ := notedFrom_reads disk answer
    (start.map disk.locateText ++ disk.fileLocations) start.eraseDups []
  have allUnseen : ∀ steps path, Found disk answer start steps path →
      disk.locateText path ∈ start.map disk.locateText ++ disk.fileLocations :=
    fun _ _ found => found.mem_unseen grounded
  have layered := Layered.initial (fun path => List.mem_eraseDups) _ allUnseen
  obtain ⟨allFound, ordered⟩ :=
    reads.nearest_first grounded onlyFiles named (List.append_nil _) layered answers
  have samePlaces : (readings.map Reading.path).map disk.locateText = places disk readings :=
    List.map_map
  refine ⟨listed readings, readings.map Reading.path, ran, ?_, ?_, ?_, ?_, ?_⟩
  · rw [samePlaces]
    exact reads.nodup_places
  · intro place
    rw [samePlaces, exists_distance_iff]
    constructor
    · intro member
      obtain ⟨reading, isReading, rfl⟩ := List.mem_map.mp member
      obtain ⟨steps, found⟩ := allFound reading isReading
      exact ⟨steps, reading.path, found, rfl⟩
    · rintro ⟨steps, path, found, rfl⟩
      exact reads.complete grounded onlyFiles named (fun _ => List.mem_eraseDups.mpr)
        allUnseen allFound answers found
  · exact listed_eq_filter answers
  · exact reads.nodup_places.sublist (places_listed_sublist disk readings)
  · exact ordered.sublist (places_listed_sublist disk readings)

/-- Two files that import each other, one of them also itself. -/
def mutualDisk : Disk where
  root := .directory
    [("src", .directory [("A.sol", .file (some "")), ("B.sol", .file (some ""))])]
  working := ["src"]

def mutualImports (place : Location) : Option (List String) :=
  if place = ["src", "A.sol"] then some ["./B.sol", "./A.sol"]
  else if place = ["src", "B.sol"] then some ["../src/A.sol"]
  else none

theorem grounded_mutualDisk : mutualDisk.Grounded where
  directory := ⟨_, rfl⟩
  named := by decide

theorem onlyFiles_mutualImports : OnlyFiles mutualDisk mutualImports := by
  intro place imports answered
  unfold mutualImports at answered
  split at answered
  next here => exact ⟨some "", by rw [here]; rfl⟩
  next =>
    split at answered
    next here => exact ⟨some "", by rw [here]; rfl⟩
    next => contradiction

theorem noted_mutualDisk :
    notedFrom mutualDisk mutualImports
        (["A.sol", "../src/A.sol", "gone.sol"].map mutualDisk.locateText ++
          mutualDisk.fileLocations) ["A.sol", "../src/A.sol", "gone.sol"] [] =
      (["A.sol", "/src/B.sol"], ["A.sol", "gone.sol", "/src/B.sol"]) := by
  have readA : mutualImports (mutualDisk.locateText "A.sol") = some ["./B.sol", "./A.sol"] := by
    decide +kernel
  have skipped : mutualImports (mutualDisk.locateText "gone.sol") = none := by decide +kernel
  have readB : mutualImports (mutualDisk.locateText "/src/B.sol") = some ["../src/A.sol"] := by
    decide +kernel
  have fromA : resolvedImports mutualDisk ["./B.sol", "./A.sol"] "A.sol" =
      ["/src/B.sol", "/src/A.sol"] := by
    decide +kernel
  have fromB : resolvedImports mutualDisk ["../src/A.sol"] "/src/B.sol" = ["/src/A.sol"] := by
    decide +kernel
  rw [notedFrom_of_read (by decide +kernel) readA, fromA]
  dsimp only [List.cons_append, List.nil_append]
  rw [notedFrom_of_seen (by decide +kernel), notedFrom_of_skipped (by decide +kernel) skipped,
    notedFrom_of_read (by decide +kernel) readB, fromB]
  dsimp only [List.cons_append, List.nil_append]
  rw [notedFrom_of_seen (by decide +kernel), notedFrom_of_seen (by decide +kernel), notedFrom_nil]

theorem crawl_reads_import_closure_mutual :
    mutualDisk.Grounded ∧ OnlyFiles mutualDisk mutualImports ∧
      (∀ path ∈ ["A.sol", "../src/A.sol", "gone.sol"],
        (Path.ofString path).parts.getLast? ≠ some parentName) ∧
      (crawl mutualDisk (noting mutualDisk mutualImports) (fun _ => pure ())
          ["A.sol", "../src/A.sol", "gone.sol"]).run [] =
        (["A.sol", "/src/B.sol"], ["A.sol", "gone.sol", "/src/B.sol"]) ∧
      ∀ place, place ∈ [["src", "A.sol"], ["src", "gone.sol"], ["src", "B.sol"]] ↔
        ∃ steps, Distance mutualDisk mutualImports ["A.sol", "../src/A.sol", "gone.sol"]
          place steps := by
  have named : ∀ path ∈ ["A.sol", "../src/A.sol", "gone.sol"],
      (Path.ofString path).parts.getLast? ≠ some parentName := by decide
  have computed : (crawl mutualDisk (noting mutualDisk mutualImports) (fun _ => pure ())
      ["A.sol", "../src/A.sol", "gone.sol"]).run [] =
        (["A.sol", "/src/B.sol"], ["A.sol", "gone.sol", "/src/B.sol"]) := noted_mutualDisk
  obtain ⟨returned, asked, ran, -, closure, -⟩ :=
    crawl_reads_import_closure grounded_mutualDisk onlyFiles_mutualImports named
  obtain ⟨-, rfl⟩ := Prod.mk.inj (computed.symm.trans ran)
  exact ⟨grounded_mutualDisk, onlyFiles_mutualImports, named, computed, closure⟩

end ContractCalls.Files
