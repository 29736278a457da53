/-!
Contract: paths as they are written, and the places they stand for.

Owns:
- the parts of a path, without empty parts and parts of a single dot;
- joining, parents, and the text of a path;
- the place of a path in a file system without links: `..` takes the last name
  away, whether or not it exists.

Does not own: what is at a place.
-/

set_option autoImplicit false

namespace ContractCalls.Files

/-- Where a path starts.  Exactly two slashes are kept apart from one. -/
inductive Anchor where
  | relative
  | root
  | doubledRoot
  deriving Repr, DecidableEq

/-- A path: its start and the names between its slashes. -/
structure Path where
  anchor : Anchor := .relative
  parts : List String := []
  deriving Repr, DecidableEq

/-- A place: the names that lead to it from the root. -/
abbrev Location := List String

/-- The pieces of a text between slashes. -/
def piecesOf : List Char → List (List Char)
  | [] => [[]]
  | '/' :: rest => [] :: piecesOf rest
  | char :: rest =>
    match piecesOf rest with
    | [] => [[char]]
    | piece :: pieces => (char :: piece) :: pieces

/-- The names between the slashes of a text. -/
def partsOf (text : String) : List String :=
  ((piecesOf text.toList).map String.ofList).filter fun part => part ≠ "" ∧ part ≠ "."

/-- The name of the parent in a path. -/
def parentName : String := ".."

namespace Path

def ofString (text : String) : Path :=
  let slashes := (text.toList.takeWhile (· == '/')).length
  { anchor := if slashes = 0 then .relative else if slashes = 2 then .doubledRoot else .root
    parts := partsOf text }

/-- The text of a path; without any part it is the current place. -/
def text (path : Path) : String :=
  let names := "/".intercalate path.parts
  match path.anchor with
  | .relative => if path.parts.isEmpty then "." else names
  | .root => "/" ++ names
  | .doubledRoot => "//" ++ names

/-- A path seen from another; one with a root stands for itself. -/
def join (base path : Path) : Path :=
  match path.anchor with
  | .relative => { base with parts := base.parts ++ path.parts }
  | _ => path

/-- The path without its last name. -/
def parent (path : Path) : Path := { path with parts := path.parts.dropLast }

end Path

namespace Location

/-- One name further. -/
def step (here : Location) (name : String) : Location :=
  if name = parentName then here.dropLast else here ++ [name]

/-- Follow names from a place. -/
def follow (start : Location) (names : List String) : Location := names.foldl step start

/-- A place and the places above it, up to the root. -/
def selfAndAbove (here : Location) : List Location :=
  (List.range (here.length + 1)).reverse.map here.take

/-- The path of a place from the root. -/
def path (here : Location) : Path := { anchor := .root, parts := here }

end Location

/-- The place from which a path starts. -/
def Path.start (working : Location) (path : Path) : Location :=
  match path.anchor with
  | .relative => working
  | _ => []

/-- The place of a path, seen from a working directory. -/
def Path.locate (working : Location) (path : Path) : Location :=
  Location.follow (path.start working) path.parts

end ContractCalls.Files
