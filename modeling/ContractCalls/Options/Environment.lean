import ContractCalls.Options.Bindings
import ContractCalls.Options.File

/-!
Contract: options from environment variables.

Owns the variables that are looked at, their defaults, and the file that may add
variables first: the nearest one at or above the directory of the program.
-/

set_option autoImplicit false

namespace ContractCalls.Options

open ContractCalls.Files

/-- Environment variables by name. -/
abbrev Environment := Table String String

/-- Whether a variable switches its option on. -/
def isSwitchedOn (environment : Environment) (name : String) : Bool :=
  match environment.find? name with
  | none => false
  | some value => ["1", "true", "yes"].contains (String.ofList (value.toList.map Char.toLower))

/-- The options of an environment. -/
def ofEnvironment (environment : Environment) : Except Failure Options := do
  let scheme ← namedScheme ((environment.find? "SOLGRAPH_COLOR_SCHEME").getD "default")
  return { scheme
           followImports := isSwitchedOn environment "SOLGRAPH_IMPORTER"
           omitLibraries := isSwitchedOn environment "SOLGRAPH_LIBRARIES" }

/-- The environment with the variables that a file adds.  A path that leads to no
file adds none. -/
def addFile (disk : Disk) (path : Path) (environment : Environment) :
    Except LoadFailure Environment :=
  match disk.read path with
  | .ok (some text) => (bindEnvironment environment (readBindings text)).mapError .unsettable
  | .ok none => .error (.notText path.text)
  | .error _ => .ok environment

/-- The name of files that add variables. -/
def variableFile : String := ".env"

/-- The paths at which a file of variables is searched from a directory, nearest
first. -/
def variablePaths (directory : Location) : List Path :=
  directory.selfAndAbove.map fun above => Location.path (above ++ [variableFile])

/-- The environment with the variables of the nearest file of variables. -/
def addNearestFile (disk : Disk) (directory : Location) (environment : Environment) :
    Except LoadFailure Environment :=
  match (variablePaths directory).find? disk.isFile with
  | some path => addFile disk path environment
  | none => .ok environment

/-- The options that variables give to a program in a directory. -/
def ofVariables (disk : Disk) (directory : Location) (environment : Environment) :
    Except LoadFailure Options := do
  let known ← addNearestFile disk directory environment
  match ofEnvironment known with
  | .ok options => .ok options
  | .error (.unknownScheme name) => .error (.unknownScheme name)
  | .error (.invalid problems) => .error (.invalidOptions "" (some problems))

end ContractCalls.Options
