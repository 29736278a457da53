import ContractCalls.Files.Disk
import Mathlib.Data.List.Induction

/-!
Contract: paths as texts, and the places they lead to.

Owns:
- the round trip: the text of a path is read back as that path;
- the place of a path, name by name, and that of its parent;
- what stands at the places that a walk along names comes through;
- the listing of files, which holds every place with a file.

Does not own: which paths an import may stand for.
-/

set_option autoImplicit false

namespace ContractCalls.Files

/-! ### The names in a text -/

/-- A name that can stand between the slashes of a text. -/
structure IsPart (part : String) : Prop where
  nonempty : part ≠ ""
  notHere : part ≠ "."
  noSlash : '/' ∉ part.toList

instance (part : String) : Decidable (IsPart part) :=
  decidable_of_iff (part ≠ "" ∧ part ≠ "." ∧ '/' ∉ part.toList)
    ⟨fun ⟨nonempty, notHere, noSlash⟩ => ⟨nonempty, notHere, noSlash⟩,
      fun isPart => ⟨isPart.nonempty, isPart.notHere, isPart.noSlash⟩⟩

theorem piecesOf_append_slash {piece : List Char} (noSlash : '/' ∉ piece) (rest : List Char) :
    piecesOf (piece ++ '/' :: rest) = piece :: piecesOf rest := by
  induction piece with
  | nil => rfl
  | cons char later inductionHypothesis =>
      simp only [List.mem_cons, not_or] at noSlash
      have different : char ≠ '/' := fun same => noSlash.1 same.symm
      rw [List.cons_append, piecesOf, inductionHypothesis noSlash.2]
      simpa using different

theorem piecesOf_of_noSlash {piece : List Char} (noSlash : '/' ∉ piece) :
    piecesOf piece = [piece] := by
  induction piece with
  | nil => rfl
  | cons char later inductionHypothesis =>
      simp only [List.mem_cons, not_or] at noSlash
      have different : char ≠ '/' := fun same => noSlash.1 same.symm
      rw [piecesOf, inductionHypothesis noSlash.2]
      simpa using different

theorem noSlash_of_mem_piecesOf {text piece : List Char} (member : piece ∈ piecesOf text) :
    '/' ∉ piece := by
  induction text using piecesOf.induct generalizing piece with
  | case1 =>
      rw [piecesOf, List.mem_singleton] at member
      simp [member]
  | case2 rest inductionHypothesis =>
      rcases List.mem_cons.mp member with rfl | later
      · simp
      · exact inductionHypothesis later
  | case3 char rest different none inductionHypothesis =>
      rw [piecesOf, none] at member
      · rw [List.mem_singleton.mp member, List.mem_singleton]
        exact fun same => different same.symm
      · exact different
  | case4 char rest different first others pieces inductionHypothesis =>
      rw [piecesOf, pieces] at member
      · rw [pieces] at inductionHypothesis
        rcases List.mem_cons.mp member with rfl | later
        · rw [List.mem_cons, not_or]
          exact ⟨fun same => different same.symm, inductionHypothesis List.mem_cons_self⟩
        · exact inductionHypothesis (List.mem_cons_of_mem first later)
      · exact different

theorem isPart_of_mem_partsOf {text part : String} (member : part ∈ partsOf text) :
    IsPart part := by
  unfold partsOf at member
  obtain ⟨listed, kept⟩ := List.mem_filter.mp member
  obtain ⟨piece, isPiece, rfl⟩ := List.mem_map.mp listed
  obtain ⟨nonempty, notHere⟩ := of_decide_eq_true kept
  refine ⟨nonempty, notHere, ?_⟩
  rw [String.toList_ofList]
  exact noSlash_of_mem_piecesOf isPiece

theorem piecesOf_intercalate {parts : List String} (named : ∀ part ∈ parts, IsPart part)
    (nonempty : parts ≠ []) :
    piecesOf ("/".intercalate parts).toList = parts.map String.toList := by
  rw [String.toList_intercalate]
  induction parts with
  | nil => contradiction
  | cons part rest inductionHypothesis =>
      have noSlash := (named part List.mem_cons_self).noSlash
      cases rest with
      | nil => simpa using piecesOf_of_noSlash noSlash
      | cons next others =>
          have ofRest := inductionHypothesis
            (fun other member => named other (List.mem_cons_of_mem part member)) (by simp)
          rw [List.map_cons, List.map_cons, List.intercalate_cons_cons, List.append_assoc]
          exact (piecesOf_append_slash noSlash _).trans (congrArg _ ofRest)

theorem partsOf_intercalate {parts : List String} (named : ∀ part ∈ parts, IsPart part) :
    partsOf ("/".intercalate parts) = parts := by
  cases parts with
  | nil => rfl
  | cons part rest =>
      rw [partsOf, piecesOf_intercalate named (by simp), List.map_map]
      have sameTexts : String.ofList ∘ String.toList = id := by
        funext text
        exact String.ofList_toList
      rw [sameTexts, List.map_id, List.filter_eq_self]
      intro other member
      exact decide_eq_true ⟨(named other member).nonempty, (named other member).notHere⟩

theorem partsOf_slash_append (text : String) : partsOf ("/" ++ text) = partsOf text := by
  rw [partsOf, String.toList_append]
  rfl

theorem takeWhile_slash_intercalate {parts : List String} (named : ∀ part ∈ parts, IsPart part) :
    ("/".intercalate parts).toList.takeWhile (· == '/') = [] := by
  rw [String.toList_intercalate]
  cases parts with
  | nil => rfl
  | cons part rest =>
      have isPart := named part List.mem_cons_self
      have noSlash := isPart.noSlash
      cases characters : part.toList with
      | nil =>
          have empty : part = "" := String.toList_inj.mp characters
          exact absurd empty isPart.nonempty
      | cons first others =>
          rw [characters] at noSlash
          have different : first ≠ '/' := by
            rintro rfl
            exact noSlash List.mem_cons_self
          cases rest with
          | nil => simp [characters, different]
          | cons next later =>
              simp [List.intercalate_cons_cons, characters, different]

/-- The text of a path is read back as that path. -/
theorem ofString_text {path : Path} (named : ∀ part ∈ path.parts, IsPart part) :
    Path.ofString path.text = path := by
  obtain ⟨anchor, parts⟩ := path
  have noSlash := takeWhile_slash_intercalate named
  have sameParts := partsOf_intercalate named
  unfold Path.ofString Path.text
  dsimp only at noSlash sameParts ⊢
  generalize "/".intercalate parts = names at noSlash sameParts
  cases anchor with
  | relative =>
      cases parts with
      | nil =>
          show Path.ofString "." = {}
          rfl
      | cons part rest => simp [noSlash, sameParts]
  | root =>
      dsimp only
      rw [partsOf_slash_append, sameParts]
      simp [noSlash]
  | doubledRoot =>
      have twice : "//" = "/" ++ "/" := rfl
      dsimp only
      rw [twice, String.append_assoc, partsOf_slash_append, partsOf_slash_append, sameParts]
      simp [noSlash]

/-! ### The place of a path -/

theorem follow_append (start : Location) (first second : List String) :
    Location.follow start (first ++ second) =
      Location.follow (Location.follow start first) second := List.foldl_append

theorem step_name {name : String} (notParent : name ≠ parentName) (here : Location) :
    Location.step here name = here ++ [name] := if_neg notParent

/-- A place holds names of its start and names that were followed, but no name of
the parent beyond those of the start. -/
theorem mem_follow {start : Location} {names : List String} {name : String}
    (member : name ∈ Location.follow start names) :
    name ∈ start ∨ name ∈ names ∧ name ≠ parentName := by
  induction names generalizing start with
  | nil => exact Or.inl member
  | cons first later inductionHypothesis =>
      have fromNext : name ∈ Location.follow (Location.step start first) later := member
      rcases inductionHypothesis fromNext with early | ⟨listed, notParent⟩
      · unfold Location.step at early
        split at early
        next => exact Or.inl (List.dropLast_subset start early)
        next notParent =>
          rcases List.mem_append.mp early with before | last
          · exact Or.inl before
          · obtain rfl := List.mem_singleton.mp last
            exact Or.inr ⟨List.mem_cons_self, notParent⟩
      · exact Or.inr ⟨List.mem_cons_of_mem first listed, notParent⟩

/-- A path that ends in a name leads one name beyond its parent. -/
theorem locate_eq_parent_append {path : Path} {last : String}
    (ends : path.parts.getLast? = some last) (notParent : last ≠ parentName) (working : Location) :
    path.locate working = path.parent.locate working ++ [last] := by
  obtain ⟨before, parts⟩ := List.getLast?_eq_some_iff.mp ends
  have parentParts : path.parent.parts = before := by
    rw [Path.parent, parts, List.dropLast_concat]
  have sameStart : path.parent.start working = path.start working := rfl
  rw [Path.locate, Path.locate, parentParts, sameStart, parts, follow_append]
  exact step_name notParent _

/-! ### What stands at a place -/

namespace Entry

theorem at?_append (entry : Entry) (above below : Location) :
    entry.at? (above ++ below) = (entry.at? above).bind fun middle => middle.at? below := by
  induction above generalizing entry with
  | nil => rfl
  | cons name rest inductionHypothesis =>
      cases entry with
      | file text => rfl
      | directory children =>
          rw [List.cons_append, at?, at?]
          cases Table.lookup name children with
          | none => rfl
          | some child => exact inductionHypothesis child

theorem at?_file_cons (text : Option String) (name : String) (below : Location) :
    (file text).at? (name :: below) = none := rfl

/-- Above a place with an entry there is a directory. -/
theorem exists_directory_above {root entry : Entry} {here : Location} {name : String}
    (found : root.at? (here ++ [name]) = some entry) :
    ∃ children, root.at? here = some (directory children) := by
  rw [at?_append] at found
  obtain ⟨middle, isMiddle, below⟩ := Option.bind_eq_some_iff.mp found
  cases middle with
  | file text =>
      rw [at?_file_cons] at below
      contradiction
  | directory children => exact ⟨children, isMiddle⟩

theorem exists_directory_dropLast {root : Entry} {here : Location}
    {children : List (String × Entry)} (found : root.at? here = some (directory children)) :
    ∃ above, root.at? here.dropLast = some (directory above) := by
  cases here using List.reverseRecOn with
  | nil => exact ⟨children, found⟩
  | append_singleton before name =>
      rw [List.dropLast_concat]
      exact exists_directory_above found

mutual

theorem mem_fileLocations {text : Option String} (start : Location) :
    ∀ (entry : Entry) (below : Location), entry.at? below = some (file text) →
      start ++ below ∈ entry.fileLocations start
  | file _, [], _ => by simp [fileLocations]
  | file _, _ :: _, found => by contradiction
  | directory _, [], found => by
      have impossible : directory _ = file text := Option.some.inj found
      contradiction
  | directory children, name :: rest, found => by
      rw [at?] at found
      split at found
      next child isChild =>
        exact mem_childFileLocations start children name rest child isChild found
      next => contradiction

theorem mem_childFileLocations {text : Option String} (start : Location) :
    ∀ (children : List (String × Entry)) (name : String) (rest : Location) (child : Entry),
      Table.lookup name children = some child → child.at? rest = some (file text) →
        start ++ name :: rest ∈ childFileLocations start children
  | [], _, _, _, isChild, _ => by contradiction
  | (other, entry) :: later, name, rest, child, isChild, found => by
      rw [childFileLocations, List.mem_append]
      rw [Table.lookup] at isChild
      split at isChild
      next same =>
        obtain rfl := Option.some.inj isChild
        subst same
        have below := mem_fileLocations (start ++ [other]) entry rest found
        rw [List.append_assoc] at below
        exact Or.inl below
      next => exact Or.inr (mem_childFileLocations start later name rest child isChild found)

end

end Entry

/-! ### Walks -/

theorem walk_append {root : Entry} {here place : Location} {first second : List String}
    (reached : walk root here (first ++ second) = .ok place) :
    walk root here first = .ok (Location.follow here first) ∧
      walk root (Location.follow here first) second = .ok place := by
  induction first generalizing here with
  | nil => exact ⟨rfl, reached⟩
  | cons name rest inductionHypothesis =>
      rw [List.cons_append, walk] at reached
      rw [walk]
      split at reached
      next => contradiction
      next => contradiction
      next => exact inductionHypothesis reached

theorem walk_eq_follow {root : Entry} {here place : Location} {names : List String}
    (reached : walk root here names = .ok place) : place = Location.follow here names := by
  have whole : walk root here (names ++ []) = .ok place := by rw [List.append_nil, reached]
  exact (Except.ok.inj (walk_append whole).2).symm

/-- A walk fails for want of a directory, never because there is one. -/
theorem walk_ne_isDirectory (root : Entry) (here : Location) (names : List String) :
    walk root here names ≠ .error .isDirectory := by
  induction names generalizing here with
  | nil =>
      intro failed
      contradiction
  | cons name rest inductionHypothesis =>
      intro failed
      rw [walk] at failed
      split at failed
      next => cases failed
      next => cases failed
      next => exact inductionHypothesis _ failed

namespace Disk

theorem find_ne_isDirectory (disk : Disk) (path : Path) :
    disk.find path ≠ .error .isDirectory := by
  intro failed
  unfold find at failed
  cases reached : walk disk.root (path.start disk.working) path.parts with
  | error cause =>
      rw [reached] at failed
      obtain rfl : cause = .isDirectory := Except.error.inj failed
      exact walk_ne_isDirectory _ _ _ reached
  | ok place =>
      rw [reached] at failed
      dsimp only [bind, Except.bind] at failed
      split at failed
      next => cases failed
      next => cases failed

/-- What a path leads to stands at its place, and the walk there passes through
directories only. -/
theorem at?_of_find {disk : Disk} {path : Path} {entry : Entry}
    (found : disk.find path = .ok entry) :
    disk.root.at? (disk.locate path) = some entry ∧
      walk disk.root (path.start disk.working) path.parts = .ok (disk.locate path) := by
  unfold find at found
  cases reached : walk disk.root (path.start disk.working) path.parts with
  | error cause =>
      rw [reached] at found
      contradiction
  | ok place =>
      obtain rfl := walk_eq_follow reached
      rw [reached] at found
      dsimp only [bind, Except.bind] at found
      split at found
      next stands => exact ⟨Except.ok.inj found ▸ stands, rfl⟩
      next => contradiction

theorem find_of_isFile {disk : Disk} {path : Path} (isFile : disk.isFile path = true) :
    ∃ text, disk.find path = .ok (.file text) := by
  unfold Disk.isFile at isFile
  split at isFile
  next text found => exact ⟨text, found⟩
  next => contradiction

theorem at?_of_isFile {disk : Disk} {path : Path} (isFile : disk.isFile path = true) :
    ∃ text, disk.root.at? (disk.locate path) = some (.file text) := by
  obtain ⟨text, found⟩ := find_of_isFile isFile
  exact ⟨text, (at?_of_find found).1⟩

/-- The parent of a directory is a directory, so no path to a file ends in it. -/
theorem getLast?_ne_of_isFile {disk : Disk} {path : Path} (isFile : disk.isFile path = true) :
    path.parts.getLast? ≠ some parentName := by
  intro ends
  obtain ⟨before, parts⟩ := List.getLast?_eq_some_iff.mp ends
  obtain ⟨text, found⟩ := find_of_isFile isFile
  obtain ⟨stands, reached⟩ := at?_of_find found
  rw [parts] at reached
  obtain ⟨-, last⟩ := walk_append reached
  rw [walk] at last
  split at last
  next => contradiction
  next => contradiction
  next children isDirectory =>
    obtain ⟨above, isAbove⟩ := Entry.exists_directory_dropLast isDirectory
    have place : disk.locate path = (Location.follow (path.start disk.working) before).dropLast :=
      (Except.ok.inj last).symm
    rw [place, isAbove] at stands
    have impossible : Entry.directory above = .file text := Option.some.inj stands
    contradiction

theorem mem_fileLocations_of_at? {disk : Disk} {place : Location} {text : Option String}
    (stands : disk.root.at? place = some (.file text)) : place ∈ disk.fileLocations :=
  Entry.mem_fileLocations [] disk.root place stands

/-- The working directory is a directory, and its names are ones that a path can
have and that are not the name of a parent. -/
structure Grounded (disk : Disk) : Prop where
  directory : ∃ children, disk.root.at? disk.working = some (.directory children)
  named : ∀ name ∈ disk.working, IsPart name ∧ name ≠ parentName

theorem Grounded.root_directory {disk : Disk} (grounded : disk.Grounded) :
    ∃ children, disk.root = .directory children := by
  obtain ⟨children, found⟩ := grounded.directory
  cases isRoot : disk.root with
  | directory children => exact ⟨children, rfl⟩
  | file text =>
      rw [isRoot] at found
      cases working : disk.working with
      | nil =>
          rw [working] at found
          have impossible : Entry.file text = .directory children := Option.some.inj found
          contradiction
      | cons name rest =>
          rw [working, Entry.at?_file_cons] at found
          contradiction

/-- A path without names leads to a directory. -/
theorem Grounded.directory_of_no_parts {disk : Disk} (grounded : disk.Grounded) {path : Path}
    (noParts : path.parts = []) :
    ∃ children, disk.root.at? (disk.locate path) = some (.directory children) := by
  have place : disk.locate path = path.start disk.working := by
    rw [Disk.locate, Path.locate, noParts]
    rfl
  rw [place]
  unfold Path.start
  split
  next => exact grounded.directory
  next =>
    obtain ⟨children, isRoot⟩ := grounded.root_directory
    exact ⟨children, by rw [isRoot]; rfl⟩

end Disk

end ContractCalls.Files
