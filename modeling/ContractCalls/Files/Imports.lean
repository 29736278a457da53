import ContractCalls.Files.Disk
import ContractCalls.Log

/-!
Contract: the files that a file imports, and those that they import in turn.

Owns:
- the file that an import stands for: one next to the importing file, or one of
  a package in the nearest `node_modules` directory above it;
- the crawl from given files over their imports, which reads every file once.

Does not own: how the imports of a file are found.
-/

set_option autoImplicit false

namespace ContractCalls.Files

/-- The directory in which packages are kept. -/
def packageDirectory : String := "node_modules"

/-- The path of an import next to the importing file. -/
def neighbour (disk : Disk) (directory : Path) (imported : String) : Path :=
  (disk.locate (directory.join (Path.ofString imported))).path

/-- The paths of an import in the packages above a directory, nearest first. -/
def packagePaths (disk : Disk) (directory : Path) (imported : String) : List Path :=
  (disk.locate directory).selfAndAbove.map fun above =>
    (above ++ [packageDirectory] |> Location.path).join (Path.ofString imported)

/-- Whether an import is written as one from the importing file's directory. -/
def isRelative (imported : String) : Bool := imported.toList.head? == some '.'

/-- The paths that an import may stand for, best first. -/
def importPaths (disk : Disk) (imported importer : String) : List Path :=
  let directory := (Path.ofString importer).parent
  if isRelative imported then [neighbour disk directory imported]
  else packagePaths disk directory imported ++ [neighbour disk directory imported]

/-- The file that an import stands for. -/
def resolveImport (disk : Disk) (imported importer : String) : Option String :=
  ((importPaths disk imported importer).find? disk.isFile).map Path.text

/-- The message for an import that stands for no file. -/
def unresolvedImport (imported importer : String) : Log.Entry :=
  { level := .warning, origin := .imports
    text := "Could not resolve import " ++ Text.quoted imported ++ " in " ++ importer }

/-- The messages for the imports of a file that stand for no file. -/
def unresolvedImports (disk : Disk) (imports : List String) (importer : String) :
    List Log.Entry :=
  (imports.filter fun imported => (resolveImport disk imported importer).isNone).map
    fun imported => unresolvedImport imported importer

/-- The files that the imports of a file stand for. -/
def resolvedImports (disk : Disk) (imports : List String) (importer : String) : List String :=
  imports.filterMap fun imported => resolveImport disk imported importer

/-- The place of a path that is given as a text. -/
def Disk.locateText (disk : Disk) (path : String) : Location := disk.locate (Path.ofString path)

/-- Places without one of them. -/
def without (places : List Location) (place : Location) : List Location :=
  places.filter fun other => other ≠ place

theorem length_without_lt (places : List Location) (place : Location) (member : place ∈ places) :
    (without places place).length < places.length := by
  unfold without
  induction places with
  | nil => simp at member
  | cons head tail inductionHypothesis =>
    have tailLe := List.length_filter_le (fun other => decide (other ≠ place)) tail
    by_cases here : head = place
    · simp only [here, ne_eq, not_true_eq_false, decide_false, Bool.false_eq_true,
        not_false_eq_true, List.filter_cons_of_neg, List.length_cons]
      simp only [ne_eq] at tailLe
      omega
    · have later : place ∈ tail := by
        rcases List.mem_cons.mp member with equal | later
        · exact absurd equal.symm here
        · exact later
      have tailLt := inductionHypothesis later
      simp only [ne_eq, here, not_false_eq_true, decide_true, List.filter_cons_of_pos,
        List.length_cons]
      simp only [ne_eq] at tailLt
      omega

section Crawl

variable {m : Type → Type} [Monad m]

/-- Read the pending files and those they import, and list the files that are
not skipped.  `unseen` holds the places that have not been read. -/
def crawlFrom (disk : Disk) (read : String → m (Option (List String)))
    (report : List Log.Entry → m Unit) (unseen : List Location) (pending : List String) :
    m (List String) :=
  match pending with
  | [] => pure []
  | path :: later =>
    if fresh : disk.locateText path ∈ unseen then
      have := length_without_lt unseen (disk.locateText path) fresh
      do
        let remaining := without unseen (disk.locateText path)
        match ← read path with
        | none => crawlFrom disk read report remaining later
        | some imports =>
          report (unresolvedImports disk imports path)
          let rest ←
            crawlFrom disk read report remaining (later ++ resolvedImports disk imports path)
          return path :: rest
    else crawlFrom disk read report unseen later
termination_by (unseen.length, pending.length)
decreasing_by
  · exact Prod.Lex.left _ _ this
  · exact Prod.Lex.left _ _ this
  · exact Prod.Lex.right _ (by simp)

/-- The given files and all that they import, each once and in the order in which
they are found.  Only a place of a given file or of a file that exists is ever
reached. -/
def crawl (disk : Disk) (read : String → m (Option (List String)))
    (report : List Log.Entry → m Unit) (files : List String) : m (List String) :=
  crawlFrom disk read report (files.map disk.locateText ++ disk.fileLocations) files.eraseDups

end Crawl

end ContractCalls.Files
