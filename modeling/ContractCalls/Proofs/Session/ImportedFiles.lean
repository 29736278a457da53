import ContractCalls.Proofs.Session.Loading

/-!
Contract: following imports is the same as giving the files that they lead to.

Owns:
- the crawl from what a crawl listed, which lists the same files again;
- the comparison of a run that follows imports with a run on the files that the
  crawl lists: one finds files by their places and loads while it looks, the other
  tells inputs apart by their texts and loads them one after another.

Does not own: what a crawl lists.
-/

set_option autoImplicit false

namespace ContractCalls.Session

open ContractCalls.Files ContractCalls.Solidity

/-! ### Crawling again -/

section Again

variable {disk : Disk} {start : List String} {readings : List Reading}

/-- What is read at the place of a file is not skipped. -/
theorem mem_places_kept (loaded : ∀ reading ∈ readings, LoadedReading disk reading)
    {place : Location} {text : Option String} (isRead : place ∈ places disk readings)
    (stands : disk.root.at? place = some (.file text)) :
    place ∈ places disk (kept readings) := by
  obtain ⟨reading, member, rfl⟩ := List.mem_map.mp isRead
  obtain ⟨unit, loads, imports⟩ := loaded reading member
  cases unit with
  | none =>
      obtain ⟨children, isDirectory⟩ := loads.at?_directory
      rw [isDirectory] at stands
      cases stands
  | some unit =>
      have isKept : reading ∈ kept readings :=
        (mem_kept_iff _ _).mpr ⟨member, by rw [imports]; rfl⟩
      exact List.mem_map_of_mem isKept

/-- A crawl from the files that a crawl listed reads these files, in the same order. -/
theorem reads_again (grounded : disk.Grounded)
    (reads : Reads disk (start.map disk.locateText ++ disk.fileLocations) start.eraseDups readings)
    (loaded : ∀ reading ∈ readings, LoadedReading disk reading) :
    Reads disk ((listed readings).map disk.locateText ++ disk.fileLocations)
      (listed readings).eraseDups (kept readings) := by
  have distinctPlaces := reads.nodup_places.sublist (places_listed_sublist disk readings)
  rw [← places_kept] at distinctPlaces
  rw [Table.eraseDups_of_nodup (nodup_listed reads.nodup_places), ← places_kept, listed,
    ← List.append_nil ((kept readings).map Reading.path)]
  refine .of_closed distinctPlaces (fun _ member => List.mem_append_left _ member) ?_
  rintro path (nowhere | ⟨reading, isKept, isTarget⟩) -
  · contradiction
  · -- An import stands for a file, and a file is reached by every crawl.
    obtain ⟨name, -, resolved⟩ := (mem_resolvedImports_iff _ _ _ _).mp isTarget
    obtain ⟨-, text, stands⟩ := file_of_resolveImport grounded resolved
    have isUnseen : disk.locateText path ∈ start.map disk.locateText ++ disk.fileLocations :=
      List.mem_append_right _ (Disk.mem_fileLocations_of_at? stands)
    have member := ((mem_kept_iff _ _).mp isKept).1
    exact mem_places_kept loaded (reads.targets_read member isTarget isUnseen) stands

end Again

/-! ### The two ways to give files -/

section Ways

variable {disk : Disk} {options : Options} {start paths : List String}
  {session crawled : Session}

/-- What a successful crawl lists loads, and crawls again to itself in every session
that remembers right. -/
theorem listing_of_crawl (grounded : disk.Grounded) (remembers : Remembers disk session)
    (crawls : outcome (crawl disk (importsOf disk) report start) session = (.ok paths, crawled)) :
    paths.Nodup ∧ (∀ path ∈ paths, ∃ unit, Loads disk path (some unit)) ∧
      Learns disk session crawled paths ∧
      ∀ other, Remembers disk other →
        (outcome (crawl disk (importsOf disk) report paths) other).1 = .ok paths := by
  obtain ⟨readings, reads, loaded, rfl⟩ := reads_of_crawlFrom _ _ _ remembers crawls
  obtain ⟨after, ended, learns⟩ := crawlFrom_of_reads reads loaded remembers
  obtain rfl : crawled = after := (Prod.mk.inj (crawls.symm.trans ended)).2
  refine ⟨nodup_listed reads.nodup_places, ?_, learns, ?_⟩
  · intro path member
    obtain ⟨reading, isKept, rfl⟩ := List.mem_map.mp member
    obtain ⟨isReading, notSkipped⟩ := (mem_kept_iff _ _).mp isKept
    obtain ⟨unit, loads, found⟩ := loaded reading isReading
    rw [found, Option.isSome_map] at notSkipped
    obtain ⟨unit, rfl⟩ := Option.isSome_iff_exists.mp notSkipped
    exact ⟨unit, loads⟩
  · intro other otherRemembers
    have keptLoaded : ∀ reading ∈ kept readings, LoadedReading disk reading :=
      fun reading isKept => loaded reading ((mem_kept_iff _ _).mp isKept).1
    obtain ⟨after, again, -⟩ :=
      crawlFrom_of_reads (reads_again grounded reads loaded) keptLoaded otherRemembers
    rw [listed_kept] at again
    rw [crawl, again]

theorem pathsToAnalyse_listing (distinctPaths : paths.Nodup)
    (listing : options.followImports = false) :
    pathsToAnalyse options disk paths =
      paths.filterM fun path => do return (← unitOf disk path).isSome := by
  unfold pathsToAnalyse distinct
  rw [Table.eraseDups_of_nodup distinctPaths, listing]
  rfl

/-- A run that follows imports ends like a run on the files that its crawl lists. -/
theorem run_importing_eq_run_listing (grounded : disk.Grounded) (options : Options)
    (nonempty : start ≠ [])
    (crawls : outcome (crawl disk (importsOf disk) report start) {} = (.ok paths, crawled))
    (found : paths ≠ []) :
    let importing := { options with literalSources := false, followImports := true }
    let listing := { options with literalSources := false, followImports := false }
    (outcome (run importing disk start) {}).1 = (outcome (run listing disk paths) {}).1 ∧
      (outcome (run importing disk start) {}).2.collection =
        (outcome (run listing disk paths) {}).2.collection ∧
      (∀ path ∈ paths, crawled.units.contains path = true) ∧
      (∀ path ∈ paths,
        (outcome (pathsToAnalyse listing disk paths) {}).2.units.contains path = true) ∧
      (outcome (crawl disk (importsOf disk) report paths) {}).1 = .ok paths ∧
      (outcome (crawl disk (importsOf disk) report paths) crawled).1 = .ok paths := by
  intro importing listing
  obtain ⟨distinctPaths, loads, learns, again⟩ :=
    listing_of_crawl grounded (remembers_empty disk) crawls
  obtain ⟨listed, listingEnds, listingLearns⟩ := filterM_of_loads (remembers_empty disk) loads
  have importingPaths : outcome (pathsToAnalyse importing disk start) {} =
      (.ok paths, crawled) := crawls
  have listingPaths : outcome (pathsToAnalyse listing disk paths) {} = (.ok paths, listed) := by
    rw [pathsToAnalyse_listing distinctPaths rfl, listingEnds]
  obtain ⟨importingResult, importingCollection⟩ :=
    run_of_loads nonempty (loadUnits_of_paths rfl importingPaths)
  obtain ⟨listingResult, listingCollection⟩ :=
    run_of_loads found (loadUnits_of_paths rfl listingPaths)
  rw [importingResult, importingCollection, listingResult, listingCollection,
    learns.units_eq listingLearns, listingPaths]
  exact ⟨rfl, rfl, learns.knows, listingLearns.knows, again {} (remembers_empty disk),
    again crawled learns.remembers⟩

end Ways

/-! ### A contract and its base, in files that import each other -/

theorem loadedReading_of_text {disk : Disk} {path content : String} {imports : List String}
    (isText : disk.read (Path.ofString path) = .ok (some content))
    (parsed : (parse (some path) content).toOption.map SourceUnit.imports = some imports) :
    LoadedReading disk ⟨path, some imports⟩ := by
  cases result : parse (some path) content with
  | error rejection =>
      rw [result] at parsed
      contradiction
  | ok unit =>
      rw [result] at parsed
      exact ⟨some unit, .file isText result, parsed.symm⟩

def derivedDisk : Disk where
  root := .directory
    [("src", .directory
      [("A.sol", .file (some "import './B.sol'; contract A is B {}")),
        ("B.sol", .file (some "import './A.sol'; contract B {}"))])]
  working := ["src"]

/-- What a crawl reads there from one of the files and their directory. -/
def derivedReadings : List Reading :=
  [⟨"A.sol", some ["./B.sol"]⟩, ⟨".", none⟩, ⟨"/src/B.sol", some ["./A.sol"]⟩]

theorem grounded_derivedDisk : derivedDisk.Grounded where
  directory := ⟨_, rfl⟩
  named := by decide

theorem reads_derivedDisk :
    Reads derivedDisk (["A.sol", "."].map derivedDisk.locateText ++ derivedDisk.fileLocations)
      ["A.sol", "."] derivedReadings := by
  have fromA : Reading.targets derivedDisk ⟨"A.sol", some ["./B.sol"]⟩ = ["/src/B.sol"] := by
    decide +kernel
  have fromB : Reading.targets derivedDisk ⟨"/src/B.sol", some ["./A.sol"]⟩ = ["/src/A.sol"] := by
    decide +kernel
  refine .first ⟨"A.sol", _⟩ (by decide +kernel) ?_
  rw [fromA]
  refine .first ⟨".", none⟩ (by decide +kernel) (.first ⟨"/src/B.sol", _⟩ (by decide +kernel) ?_)
  rw [fromB]
  exact .again (by decide +kernel) (.done _)

theorem loaded_derivedReadings :
    ∀ reading ∈ derivedReadings, LoadedReading derivedDisk reading := by
  intro reading member
  simp only [derivedReadings, List.mem_cons, List.not_mem_nil, or_false] at member
  rcases member with rfl | rfl | rfl
  · exact loadedReading_of_text rfl (by decide +kernel)
  · exact ⟨none, .directory rfl rfl, rfl⟩
  · exact loadedReading_of_text rfl (by decide +kernel)

theorem run_importing_eq_run_listing_derived :
    derivedDisk.Grounded ∧ ∃ crawled,
      outcome (crawl derivedDisk (importsOf derivedDisk) report ["A.sol", "."]) {} =
        (.ok ["A.sol", "/src/B.sol"], crawled) ∧
      (outcome (run { followImports := true } derivedDisk ["A.sol", "."]) {}).1 =
        (outcome (run {} derivedDisk ["A.sol", "/src/B.sol"]) {}).1 ∧
      (outcome (crawl derivedDisk (importsOf derivedDisk) report ["A.sol", "/src/B.sol"])
        crawled).1 = .ok ["A.sol", "/src/B.sol"] := by
  obtain ⟨crawled, crawls, -⟩ :=
    crawlFrom_of_reads reads_derivedDisk loaded_derivedReadings (remembers_empty derivedDisk)
  obtain ⟨sameResult, -, -, -, -, again⟩ := run_importing_eq_run_listing grounded_derivedDisk {}
    (List.cons_ne_nil "A.sol" ["."]) crawls (List.cons_ne_nil "A.sol" ["/src/B.sol"])
  exact ⟨grounded_derivedDisk, crawled, crawls, sameResult, again⟩

end ContractCalls.Session
