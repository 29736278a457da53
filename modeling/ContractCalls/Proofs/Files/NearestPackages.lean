import ContractCalls.Proofs.Files.ImportResolution

/-!
Contract: what an import stands for, as a function of the directory it is made from.

Owns:
- a directory and those above it as prefixes of a place, the longest first;
- the nearest of them whose packages hold an import;
- the law of imports: the spelling of the importing file does not matter, what is
  returned is a file, and packages go before the files next to the importing one.

Paths into packages are not followed when they are built, so that the names of parents in
them are left to the file system.  The path next to the importing file is followed at once,
from the place of its directory.
-/

set_option autoImplicit false

namespace ContractCalls.Files

/-! ### A directory and those above it -/

namespace Location

theorem mem_selfAndAbove_iff (here above : Location) :
    above ∈ here.selfAndAbove ↔ above <+: here := by
  unfold selfAndAbove
  rw [List.mem_map]
  constructor
  · rintro ⟨count, -, rfl⟩
    exact List.take_prefix count here
  · intro isPrefix
    refine ⟨above.length, ?_, (List.prefix_iff_eq_take.mp isPrefix).symm⟩
    rw [List.mem_reverse, List.mem_range]
    exact Nat.lt_succ_of_le isPrefix.length_le

/-- What is listed later is farther up. -/
theorem pairwise_selfAndAbove (here : Location) :
    here.selfAndAbove.Pairwise fun nearer farther => farther <+: nearer := by
  unfold selfAndAbove
  rw [List.pairwise_map, List.pairwise_reverse]
  refine List.pairwise_lt_range.imp ?_
  intro fewer more isLess
  exact List.take_prefix_take_left (Nat.le_of_lt isLess)

/-- The first of the places that holds something is the longest one that does. -/
theorem prefix_of_find?_selfAndAbove {here nearest : Location} {holds : Location → Bool}
    (found : here.selfAndAbove.find? holds = some nearest) {other : Location}
    (isAbove : other <+: here) (otherHolds : holds other = true) : other <+: nearest := by
  obtain ⟨-, nearer, farther, listed, noneNearer⟩ := List.find?_eq_some_iff_append.mp found
  have ordered := here.pairwise_selfAndAbove
  rw [← mem_selfAndAbove_iff, listed, List.mem_append, List.mem_cons] at isAbove
  rw [listed, List.pairwise_append, List.pairwise_cons] at ordered
  rcases isAbove with isNearer | rfl | isFarther
  · have holdsNot := noneNearer other isNearer
    rw [otherHolds] at holdsNot
    contradiction
  · exact List.prefix_refl other
  · exact ordered.2.1.1 other isFarther

end Location

/-! ### The paths of an import -/

/-- The place of the directory of an importing file. -/
def importingPlace (disk : Disk) (importer : String) : Location :=
  disk.locate (Path.ofString importer).parent

/-- The path of an import in the packages of a directory. -/
def packagePath (above : Location) (imported : String) : Path :=
  (above ++ [packageDirectory] |> Location.path).join (Path.ofString imported)

/-- The path of an import next to the files of a directory. -/
def besidePath (directory : Location) (imported : String) : Path :=
  ((Path.ofString imported).locate directory).path

/-- The packages of a directory hold an import. -/
def Disk.holdsPackage (disk : Disk) (imported : String) (above : Location) : Bool :=
  disk.isFile (packagePath above imported)

/-- The nearest directory, at or above a place, whose packages hold an import. -/
structure IsNearestPackage (disk : Disk) (imported : String) (directory nearest : Location) :
    Prop where
  above : nearest <+: directory
  holds : disk.holdsPackage imported nearest = true
  nearest : ∀ other, other <+: directory → disk.holdsPackage imported other = true →
    other <+: nearest

/-- The paths of an import are determined by the place of the importing file's
directory. -/
theorem importPaths_eq (disk : Disk) (imported importer : String) :
    importPaths disk imported importer =
      (if isRelative imported then []
        else (importingPlace disk importer).selfAndAbove.map fun above =>
          packagePath above imported) ++
        [besidePath (importingPlace disk importer) imported] := by
  have beside : neighbour disk (Path.ofString importer).parent imported =
      besidePath (importingPlace disk importer) imported := by
    rw [neighbour, locate_join]
    rfl
  unfold importPaths
  dsimp only
  rw [beside]
  split <;> rfl

theorem resolveImport_of_no_package {disk : Disk} {imported importer : String}
    (noPackage : isRelative imported = true ∨ ∀ above, above <+: importingPlace disk importer →
      disk.holdsPackage imported above = false) :
    resolveImport disk imported importer =
      if disk.isFile (besidePath (importingPlace disk importer) imported) then
        some (besidePath (importingPlace disk importer) imported).text else none := by
  have noneBefore : (if isRelative imported then []
      else (importingPlace disk importer).selfAndAbove.map fun above =>
        packagePath above imported).find? disk.isFile = none := by
    rcases noPackage with relative | holdNone
    · rw [if_pos relative]
      rfl
    · split
      next => rfl
      next =>
        rw [List.find?_map, Option.map_eq_none_iff, List.find?_eq_none]
        intro above listed
        have holdsNot := holdNone above ((Location.mem_selfAndAbove_iff _ above).mp listed)
        exact Bool.eq_false_iff.mp holdsNot
  unfold resolveImport
  rw [importPaths_eq, List.find?_append, noneBefore, Option.none_or, List.find?_singleton]
  split <;> rfl

theorem resolveImport_of_package {disk : Disk} {imported importer : String}
    (notRelative : isRelative imported = false)
    (held : ∃ above, above <+: importingPlace disk importer ∧
      disk.holdsPackage imported above = true) :
    ∃ nearest, IsNearestPackage disk imported (importingPlace disk importer) nearest ∧
      resolveImport disk imported importer = some (packagePath nearest imported).text := by
  obtain ⟨above, isAbove, holds⟩ := held
  have someHolds : ((importingPlace disk importer).selfAndAbove.find?
      (disk.holdsPackage imported)).isSome :=
    List.find?_isSome.mpr ⟨above, (Location.mem_selfAndAbove_iff _ above).mpr isAbove, holds⟩
  obtain ⟨nearest, found⟩ := Option.isSome_iff_exists.mp someHolds
  refine ⟨nearest, ⟨?_, List.find?_some found, ?_⟩, ?_⟩
  · exact (Location.mem_selfAndAbove_iff _ nearest).mp (List.mem_of_find?_eq_some found)
  · intro other isAboveToo otherHolds
    exact Location.prefix_of_find?_selfAndAbove found isAboveToo otherHolds
  · have first : ((importingPlace disk importer).selfAndAbove.map fun above =>
        packagePath above imported).find? disk.isFile = some (packagePath nearest imported) := by
      rw [List.find?_map]
      exact congrArg _ found
    unfold resolveImport
    rw [importPaths_eq, notRelative, if_neg Bool.false_ne_true, List.find?_append, first]
    rfl

/-- The text that is returned is read as the path of a file. -/
theorem isFile_of_resolveImport {disk : Disk} (grounded : disk.Grounded)
    {imported importer target : String}
    (resolved : resolveImport disk imported importer = some target) :
    disk.isFile (Path.ofString target) = true := by
  obtain ⟨path, first, rfl⟩ := Option.map_eq_some_iff.mp resolved
  have named := isPart_of_mem_importPaths grounded (List.mem_of_find?_eq_some first)
  rw [ofString_text named]
  exact List.find?_some first

/-- On a grounded disk, an import stands for the same in all spellings of the importing
file that end in a name and have the same place, and what it stands for is always a file.
An import that is not relative stands for the one in the nearest packages at or above the
directory of the importing file, if any packages there hold it.  In all other cases it
stands for the file next to the importing one, or for nothing. -/
theorem resolveImport_by_place {disk : Disk} (grounded : disk.Grounded) (imported : String) :
    (∀ left right, EndsInName left → EndsInName right →
        disk.locateText left = disk.locateText right →
        resolveImport disk imported left = resolveImport disk imported right) ∧
      (∀ importer target, resolveImport disk imported importer = some target →
        disk.isFile (Path.ofString target) = true) ∧
      (isRelative imported = false → ∀ importer,
        (∃ above, above <+: importingPlace disk importer ∧
          disk.holdsPackage imported above = true) →
        ∃ nearest, IsNearestPackage disk imported (importingPlace disk importer) nearest ∧
          resolveImport disk imported importer = some (packagePath nearest imported).text) ∧
      ∀ importer, (isRelative imported = true ∨
          ∀ above, above <+: importingPlace disk importer →
            disk.holdsPackage imported above = false) →
        resolveImport disk imported importer =
          if disk.isFile (besidePath (importingPlace disk importer) imported) then
            some (besidePath (importingPlace disk importer) imported).text else none := by
  refine ⟨?_, ?_, ?_, ?_⟩
  · intro left right leftEnds rightEnds same
    exact resolveImport_congr leftEnds rightEnds same imported
  · intro importer target resolved
    exact isFile_of_resolveImport grounded resolved
  · intro notRelative importer held
    exact resolveImport_of_package notRelative held
  · intro importer noPackage
    exact resolveImport_of_no_package noPackage

/-- A file next to the importing one, and two package directories above it that hold a
file of the same name. -/
def packagesDisk : Disk where
  root := .directory
    [("work", .directory
        [("contracts", .directory [("Vault.sol", .file (some "")), ("Token.sol", .file (some ""))]),
          ("node_modules", .directory [("Token.sol", .file (some ""))])]),
      ("node_modules", .directory [("Token.sol", .file (some ""))])]
  working := ["work"]

theorem grounded_packagesDisk : packagesDisk.Grounded where
  directory := ⟨_, rfl⟩
  named := by decide

theorem resolveImport_by_place_packages :
    packagesDisk.Grounded ∧
      EndsInName "contracts/Vault.sol" ∧ EndsInName "/work/./gone//../contracts/Vault.sol" ∧
      packagesDisk.locateText "contracts/Vault.sol" =
        packagesDisk.locateText "/work/./gone//../contracts/Vault.sol" ∧
      isRelative "Token.sol" = false ∧ isRelative "./Token.sol" = true ∧
      resolveImport packagesDisk "Token.sol" "contracts/Vault.sol" =
        resolveImport packagesDisk "Token.sol" "/work/./gone//../contracts/Vault.sol" ∧
      packagesDisk.isFile (Path.ofString "/work/node_modules/Token.sol") = true ∧
      (∃ nearest, IsNearestPackage packagesDisk "Token.sol" ["work", "contracts"] nearest ∧
        resolveImport packagesDisk "Token.sol" "contracts/Vault.sol" =
          some (packagePath nearest "Token.sol").text) ∧
      resolveImport packagesDisk "./Token.sol" "contracts/Vault.sol" =
        some "/work/contracts/Token.sol" := by
  have leftEnds : EndsInName "contracts/Vault.sol" := ⟨"Vault.sol", by decide, by decide⟩
  have rightEnds : EndsInName "/work/./gone//../contracts/Vault.sol" :=
    ⟨"Vault.sol", by decide, by decide⟩
  have samePlace : packagesDisk.locateText "contracts/Vault.sol" =
      packagesDisk.locateText "/work/./gone//../contracts/Vault.sol" := by decide
  obtain ⟨sameFile, isFile, ofPackage, -⟩ :=
    resolveImport_by_place grounded_packagesDisk "Token.sol"
  obtain ⟨-, -, -, beside⟩ := resolveImport_by_place grounded_packagesDisk "./Token.sol"
  refine ⟨grounded_packagesDisk, leftEnds, rightEnds, samePlace, by decide, by decide,
    sameFile _ _ leftEnds rightEnds samePlace, ?_, ?_, ?_⟩
  · exact isFile "contracts/Vault.sol" _ (by decide)
  · exact ofPackage (by decide) "contracts/Vault.sol" ⟨["work"], by decide, by decide⟩
  · exact (beside "contracts/Vault.sol" (.inl (by decide))).trans (by decide)

end ContractCalls.Files
