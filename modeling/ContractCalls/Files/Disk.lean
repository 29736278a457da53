import ContractCalls.Files.Path
import ContractCalls.Table
import ContractCalls.Text.Quoted

/-!
Contract: file systems without links.

Owns:
- files and directories;
- the walk along a path, in which every name but the last has to lead to a
  directory;
- reading text files and writing them, and what goes wrong then.

Does not own: the contents of files other than text.
-/

set_option autoImplicit false

namespace ContractCalls.Files

/-- What stands at a place.  A file has a text unless its bytes encode none. -/
inductive Entry where
  | file (text : Option String)
  | directory (children : List (String × Entry))
  deriving Repr, Inhabited

/-- Why a path leads nowhere useful. -/
inductive Cause where
  | missing
  | notDirectory
  | isDirectory
  deriving Repr, DecidableEq

/-- A path, as it was given, that could not be used. -/
structure FileError where
  cause : Cause
  path : String
  deriving Repr, DecidableEq

/-- An error of the operating system: its number, its wording, and the path that it
is about, if it is about one. -/
structure SystemError where
  number : Nat
  reason : String
  path : Option String := none
  deriving Repr, DecidableEq

def SystemError.message (error : SystemError) : String :=
  let about := match error.path with
    | some path => ": " ++ Text.quoted path
    | none => ""
  "[Errno " ++ toString error.number ++ "] " ++ error.reason ++ about

/-- A path that leads nowhere useful, as an error of the operating system. -/
def FileError.system (error : FileError) : SystemError :=
  match error.cause with
  | .missing => ⟨2, "No such file or directory", some error.path⟩
  | .notDirectory => ⟨20, "Not a directory", some error.path⟩
  | .isDirectory => ⟨21, "Is a directory", some error.path⟩

def FileError.message (error : FileError) : String := error.system.message

namespace Entry

/-- What stands at a place below an entry. -/
def at? (entry : Entry) : Location → Option Entry
  | [] => some entry
  | name :: rest =>
    match entry with
    | file _ => none
    | directory children =>
      match Table.lookup name children with
      | some child => child.at? rest
      | none => none

def children : Entry → List (String × Entry)
  | file _ => []
  | directory children => children

/-- Put an entry at a place, and directories on the way to it.  A file on the way
gives way to a directory. -/
def put (entry leaf : Entry) : Location → Entry
  | [] => leaf
  | name :: rest =>
    let child := (Table.lookup name entry.children).getD (directory [])
    directory (Table.assign name (child.put leaf rest) entry.children)

mutual

/-- The places of all files at or below an entry that stands at a place. -/
def fileLocations (here : Location) : Entry → List Location
  | file _ => [here]
  | directory children => childFileLocations here children

def childFileLocations (here : Location) : List (String × Entry) → List Location
  | [] => []
  | (name, child) :: rest =>
    fileLocations (here ++ [name]) child ++ childFileLocations here rest

end

end Entry

/-- Walk along names; each has to start from a directory. -/
def walk (root : Entry) (here : Location) : List String → Except Cause Location
  | [] => .ok here
  | name :: rest =>
    match root.at? here with
    | none => .error .missing
    | some (.file _) => .error .notDirectory
    | some (.directory _) => walk root (Location.step here name) rest

/-- The places that a walk along names comes through, its ends included. -/
def waypoints (here : Location) : List String → List Location
  | [] => [here]
  | name :: rest => here :: waypoints (Location.step here name) rest

/-- A file system and the directory from which relative paths start. -/
structure Disk where
  root : Entry := .directory []
  working : Location := []
  deriving Repr, Inhabited

namespace Disk

/-- The place of a path, whether or not anything is there. -/
def locate (disk : Disk) (path : Path) : Location := path.locate disk.working

/-- The places that a path leads through. -/
def waypoints (disk : Disk) (path : Path) : List Location :=
  Files.waypoints (path.start disk.working) path.parts

/-- What a path leads to. -/
def find (disk : Disk) (path : Path) : Except Cause Entry := do
  let location ← walk disk.root (path.start disk.working) path.parts
  match disk.root.at? location with
  | some entry => .ok entry
  | none => .error .missing

def isFile (disk : Disk) (path : Path) : Bool :=
  match disk.find path with
  | .ok (.file _) => true
  | _ => false

def exists? (disk : Disk) (path : Path) : Bool := (disk.find path).isOk

/-- The places of all files. -/
def fileLocations (disk : Disk) : List Location := disk.root.fileLocations []

/-- A text with a line feed for every kind of line end. -/
def unifyLineEnds : List Char → List Char
  | [] => []
  | '\r' :: '\n' :: rest => '\n' :: unifyLineEnds rest
  | '\r' :: rest => '\n' :: unifyLineEnds rest
  | char :: rest => char :: unifyLineEnds rest

/-- The text of a file with unified line ends; none if it is no text. -/
def read (disk : Disk) (path : Path) : Except FileError (Option String) :=
  match disk.find path with
  | .ok (.file text) =>
    .ok (text.map fun content => String.ofList (unifyLineEnds content.toList))
  | .ok (.directory _) => .error ⟨.isDirectory, path.text⟩
  | .error cause => .error ⟨cause, path.text⟩

/-- The place where a path lets a file be written. -/
def writable (disk : Disk) (path : Path) : Except Cause Location := do
  let location ← walk disk.root (path.start disk.working) path.parts
  match disk.root.at? location with
  | some (.directory _) => .error .isDirectory
  | some (.file _) => .ok location
  | none =>
    match disk.root.at? location.dropLast with
    | some (.directory _) => .ok location
    | some (.file _) => .error .notDirectory
    | none => .error .missing

/-- Write a text to a file, which is made if its directory is there. -/
def write (disk : Disk) (path : Path) (text : String) : Except FileError Disk :=
  match disk.writable path with
  | .ok location => .ok { disk with root := disk.root.put (.file (some text)) location }
  | .error cause => .error ⟨cause, path.text⟩

/-- Make a directory and those on the way to it. -/
def makeDirectory (disk : Disk) (location : Location) : Disk :=
  match disk.root.at? location with
  | some (.directory _) => disk
  | _ => { disk with root := disk.root.put (.directory []) location }

/-- Make a file and the directories on the way to it. -/
def makeFile (disk : Disk) (location : Location) (text : Option String) : Disk :=
  { disk with root := disk.root.put (.file text) location }

end Disk

end ContractCalls.Files
