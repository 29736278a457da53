import ContractCalls.Files.Disk

/-!
Contract: operations that the operating system refuses.

Owns:
- what can be refused to a program that asks for a file, makes a text from files,
  and then writes it to a file or to its output;
- the limits on names and paths, which refuse operations on every disk.

A disk shows files and directories.  It shows no permissions, devices or limits, so
refusals are given beside it.
-/

set_option autoImplicit false

namespace ContractCalls.Files

/-- What keeps a text from the output. -/
inductive PrintFailure where
  | system (error : SystemError)
  /-- The output has no encoding for some character. -/
  | unencodable
  deriving Repr, DecidableEq

/-- An operation that is refused in the course of a longer work, and the number of
messages that come before it. -/
structure Interruption where
  error : SystemError
  messages : Nat
  deriving Repr, DecidableEq

/-- What the operating system refuses beyond what a disk shows. -/
structure Refusals where
  /-- To ask whether something is at a path. -/
  asking : Path → Option SystemError := fun _ => none
  /-- To read or look for one of the files from which the text is made. -/
  making : Option Interruption := none
  writing : Path → Option SystemError := fun _ => none
  printing : String → Option PrintFailure := fun _ => none
  deriving Inhabited

/-- The most bytes that a name can have. -/
def nameLimit : Nat := 255

/-- The most bytes that a path can have. -/
def pathLimit : Nat := 4095

/-- Whether a walk comes to a directory in which it has to look for a name that is
too long. -/
def meetsLongName (root : Entry) (here : Location) : List String → Bool
  | [] => false
  | name :: rest =>
    match root.at? here with
    | some (.directory _) =>
      nameLimit < name.utf8ByteSize || meetsLongName root (Location.step here name) rest
    | _ => false

namespace Disk

/-- The error of a path that is too long, or has a name that is. -/
def tooLong? (disk : Disk) (path : Path) : Option SystemError :=
  if pathLimit < path.text.utf8ByteSize ||
      meetsLongName disk.root (path.start disk.working) path.parts then
    some { number := 36, reason := "File name too long", path := some path.text }
  else none

/-- The refusals that follow from the limits alone.  Whether a limit is met while a text
is made depends on the files it is made from, and is not said here. -/
def refusals (disk : Disk) : Refusals where
  asking := disk.tooLong?
  writing := disk.tooLong?

end Disk

end ContractCalls.Files
