import ContractCalls.Files.Disk
import ContractCalls.Options.Basic
import ContractCalls.Yaml.Document

/-!
Contract: options from a file.

Owns which values of a file are options, and what goes wrong between a path and
its options.
-/

set_option autoImplicit false

namespace ContractCalls.Options

open ContractCalls.Files

/-- Why files give no options. -/
inductive LoadFailure where
  | file (error : FileError)
  | notText (path : String)
  /-- The text is not well-formed. -/
  | invalidText (path : String)
  /-- The text is well-formed, but a value in it cannot be made. -/
  | unmakeableValue (cause : Yaml.Failure)
  /-- A variable with this name cannot be set. -/
  | unsettable (name : String)
  | unknownScheme (name : String)
  /-- The value is no set of options, or has the problems that are given. -/
  | invalidOptions (path : String) (problems : Option (List Problem))
  deriving Repr, DecidableEq

def LoadFailure.message : LoadFailure → String
  | file error => error.message
  | notText path => path ++ " is not encoded as text"
  | invalidText path => "Invalid YAML in config file " ++ path
  | unmakeableValue _ => "A value of the config file cannot be made"
  | unsettable name => "The variable " ++ Text.quoted name ++ " cannot be set"
  | unknownScheme name => unknownSchemeMessage name
  | invalidOptions path _ => "Invalid configuration in " ++ path

/-- The entries of a value that is a set of options.  A value that counts as
nothing is an empty one; otherwise all keys are texts. -/
def entriesOf? (value : Value) : Option (List (Value × Value)) :=
  if value.isNothing then some []
  else
    match value with
    | .mapping entries =>
      if entries.all fun entry => match entry.1 with
        | .text _ => true
        | _ => false
      then some entries else none
    | _ => none

/-- The options of a text that stands in the file of a path. -/
def ofText (path text : String) : Except LoadFailure Options :=
  match Yaml.valueOf text with
  | .error .malformed => .error (.invalidText path)
  | .error cause => .error (.unmakeableValue cause)
  | .ok value =>
    match entriesOf? value with
    | none => .error (.invalidOptions path none)
    | some entries =>
      match ofEntries entries with
      | .ok options => .ok options
      | .error (.unknownScheme name) => .error (.unknownScheme name)
      | .error (.invalid problems) => .error (.invalidOptions path (some problems))

/-- The options of a file. -/
def load (disk : Disk) (path : Path) : Except LoadFailure Options :=
  match disk.read path with
  | .error error => .error (.file error)
  | .ok none => .error (.notText path.text)
  | .ok (some text) => ofText path.text text

end ContractCalls.Options
