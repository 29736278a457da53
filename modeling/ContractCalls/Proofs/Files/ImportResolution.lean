import ContractCalls.Files.Imports
import ContractCalls.Proofs.Files.Places
import Mathlib.Data.List.Basic

/-!
Contract: what an import stands for, seen from places.

Owns:
- the paths an import may stand for, which depend on the directory of the
  importing file and on nothing else about how that file is written;
- the file an import stands for: there is one at its place, and the path of that
  file ends in a name.

A path that ends in the name of a parent is written below the directory it leads
to, so the directory of such a file cannot be read off its place.
-/

set_option autoImplicit false

namespace ContractCalls.Files

/-! ### The directory of an importing file -/

/-- A path that ends in a name, not in that of a parent. -/
def EndsInName (path : String) : Prop :=
  ∃ last, (Path.ofString path).parts.getLast? = some last ∧ last ≠ parentName

theorem locate_join (disk : Disk) (directory path : Path) :
    disk.locate (directory.join path) = path.locate (disk.locate directory) := by
  obtain ⟨anchor, parts⟩ := path
  cases anchor with
  | relative => exact follow_append _ directory.parts parts
  | root => rfl
  | doubledRoot => rfl

theorem importPaths_congr {disk : Disk} {left right : String}
    (same : disk.locate (Path.ofString left).parent = disk.locate (Path.ofString right).parent)
    (imported : String) : importPaths disk imported left = importPaths disk imported right := by
  unfold importPaths packagePaths neighbour
  simp only [locate_join, same]

theorem locate_parent {disk : Disk} {path : String} (ends : EndsInName path) :
    disk.locate (Path.ofString path).parent = (disk.locateText path).dropLast := by
  obtain ⟨last, isLast, notParent⟩ := ends
  have place : disk.locateText path = disk.locate (Path.ofString path).parent ++ [last] :=
    locate_eq_parent_append isLast notParent disk.working
  rw [place, List.dropLast_concat]

/-- An import stands for the same file in all spellings of the importing file. -/
theorem resolveImport_congr {disk : Disk} {left right : String} (leftEnds : EndsInName left)
    (rightEnds : EndsInName right) (same : disk.locateText left = disk.locateText right)
    (imported : String) :
    resolveImport disk imported left = resolveImport disk imported right := by
  have sameDirectory : disk.locate (Path.ofString left).parent =
      disk.locate (Path.ofString right).parent := by
    rw [locate_parent leftEnds, locate_parent rightEnds, same]
  rw [resolveImport, importPaths_congr sameDirectory imported]
  rfl

theorem resolvedImports_congr {disk : Disk} {left right : String} (leftEnds : EndsInName left)
    (rightEnds : EndsInName right) (same : disk.locateText left = disk.locateText right)
    (imports : List String) :
    resolvedImports disk imports left = resolvedImports disk imports right := by
  apply List.filterMap_congr
  intro imported _
  exact resolveImport_congr leftEnds rightEnds same imported

theorem mem_resolvedImports_iff (disk : Disk) (imports : List String) (importer target : String) :
    target ∈ resolvedImports disk imports importer ↔
      ∃ imported ∈ imports, resolveImport disk imported importer = some target :=
  List.mem_filterMap

/-! ### The names in the paths of imports -/

section Names

variable {disk : Disk} (grounded : disk.Grounded)

theorem isPart_of_mem_join {directory path : Path}
    (ofDirectory : ∀ part ∈ directory.parts, IsPart part)
    (ofPath : ∀ part ∈ path.parts, IsPart part) :
    ∀ part ∈ (directory.join path).parts, IsPart part := by
  unfold Path.join
  intro part member
  split at member
  next =>
    rcases List.mem_append.mp member with early | late
    · exact ofDirectory part early
    · exact ofPath part late
  next => exact ofPath part member

theorem isPart_of_mem_parent {path : String} :
    ∀ part ∈ (Path.ofString path).parent.parts, IsPart part := by
  intro part member
  exact isPart_of_mem_partsOf (List.dropLast_subset _ member)

include grounded

theorem isPart_of_mem_locate {path : Path} (named : ∀ part ∈ path.parts, IsPart part) :
    ∀ name ∈ disk.locate path, IsPart name := by
  intro name member
  rcases mem_follow member with atStart | ⟨followed, -⟩
  · unfold Path.start at atStart
    split at atStart
    next => exact (grounded.named name atStart).1
    next => contradiction
  · exact named name followed

theorem isPart_of_mem_importPaths {imported importer : String} {path : Path}
    (candidate : path ∈ importPaths disk imported importer) :
    ∀ part ∈ path.parts, IsPart part := by
  have ofImport : ∀ part ∈ (Path.ofString imported).parts, IsPart part :=
    fun part member => isPart_of_mem_partsOf member
  have ofDirectory : ∀ part ∈ (Path.ofString importer).parent.parts, IsPart part :=
    isPart_of_mem_parent
  have ofNeighbour : ∀ part ∈ (neighbour disk (Path.ofString importer).parent imported).parts,
      IsPart part :=
    isPart_of_mem_locate grounded (isPart_of_mem_join ofDirectory ofImport)
  unfold importPaths at candidate
  dsimp only at candidate
  split at candidate
  next =>
    rw [List.mem_singleton.mp candidate]
    exact ofNeighbour
  next =>
    rcases List.mem_append.mp candidate with ofPackage | last
    · obtain ⟨above, isAbove, rfl⟩ := List.mem_map.mp ofPackage
      obtain ⟨count, -, rfl⟩ := List.mem_map.mp isAbove
      refine isPart_of_mem_join ?_ ofImport
      intro part member
      rcases List.mem_append.mp member with early | packages
      · exact isPart_of_mem_locate grounded ofDirectory part (List.mem_of_mem_take early)
      · rw [List.mem_singleton.mp packages]
        decide
    · rw [List.mem_singleton.mp last]
      exact ofNeighbour

/-- A file at the place of a path that does not end in the name of a parent has
its own name at the end of that path. -/
theorem endsInName_of_file {path : String} {text : Option String}
    (notParent : (Path.ofString path).parts.getLast? ≠ some parentName)
    (stands : disk.root.at? (disk.locateText path) = some (.file text)) : EndsInName path := by
  cases ends : (Path.ofString path).parts.getLast? with
  | none =>
      obtain ⟨children, isDirectory⟩ :=
        grounded.directory_of_no_parts (List.getLast?_eq_none_iff.mp ends)
      rw [Disk.locateText, isDirectory] at stands
      have impossible : Entry.directory children = .file text := Option.some.inj stands
      contradiction
  | some last =>
      refine ⟨last, ends, ?_⟩
      rintro rfl
      exact notParent ends

/-- The file that an import stands for is there, under a path that ends in its
name. -/
theorem file_of_resolveImport {imported importer target : String}
    (resolved : resolveImport disk imported importer = some target) :
    EndsInName target ∧ ∃ text, disk.root.at? (disk.locateText target) = some (.file text) := by
  obtain ⟨path, first, rfl⟩ := Option.map_eq_some_iff.mp resolved
  have isFile := List.find?_some first
  have named := isPart_of_mem_importPaths grounded (List.mem_of_find?_eq_some first)
  have samePath : Path.ofString path.text = path := ofString_text named
  obtain ⟨text, stands⟩ := Disk.at?_of_isFile isFile
  have standsText : disk.root.at? (disk.locateText path.text) = some (.file text) := by
    rw [Disk.locateText, samePath, stands]
  refine ⟨endsInName_of_file grounded ?_ standsText, text, standsText⟩
  rw [samePath]
  exact Disk.getLast?_ne_of_isFile isFile

end Names

end ContractCalls.Files
