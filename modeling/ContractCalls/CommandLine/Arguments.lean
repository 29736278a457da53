import ContractCalls.Dot.Scheme
import ContractCalls.Files.Path
import ContractCalls.Text.Decimal
import ContractCalls.Text.Quoted

/-!
Contract: the arguments of a command line.

Owns:
- the switches, their spellings, and abbreviations of the long ones;
- which arguments are switches, values of switches, and files;
- the usage and help texts, and the wording of rejections.

Files are taken as one block: those after a later switch are not recognized.

Does not own: what the arguments bring about.
-/

set_option autoImplicit false

namespace ContractCalls.CommandLine

open ContractCalls.Dot ContractCalls.Files

inductive Switch where
  | help
  | config
  | colorScheme
  | importer
  | libraries
  | output
  | verbose
  deriving Repr, DecidableEq

namespace Switch

/-- All switches, in the order of the help text. -/
def all : List Switch := [help, config, colorScheme, importer, libraries, output, verbose]

/-- The spellings of a switch. -/
def spellings : Switch → List String
  | help => ["-h", "--help"]
  | config => ["--config"]
  | colorScheme => ["--color-scheme"]
  | importer => ["--importer"]
  | libraries => ["--libraries"]
  | output => ["--output", "-o"]
  | verbose => ["--verbose", "-v"]

/-- Whether a switch has a value. -/
def takesValue : Switch → Bool
  | config => true
  | colorScheme => true
  | output => true
  | _ => false

/-- All spellings with their switches. -/
def spelled : List (String × Switch) :=
  all.flatMap fun switch => switch.spellings.map fun spelling => (spelling, switch)

/-- The switch of a spelling. -/
def ofSpelling? (spelling : String) : Option Switch := spelled.lookup spelling

end Switch

/-- Why arguments are rejected. -/
inductive Rejection where
  | ambiguous (argument : String) (spellings : List String)
  | missingValue (switch : Switch)
  | unusedValue (switch : Switch) (value : String)
  | unknownScheme (name : String)
  | unrecognized (arguments : List String)
  deriving Repr, DecidableEq

/-- A switch in a message: all its spellings. -/
def switchText (switch : Switch) : String := "argument " ++ "/".intercalate switch.spellings

def Rejection.message : Rejection → String
  | ambiguous argument spellings =>
    "ambiguous option: " ++ argument ++ " could match " ++ ", ".intercalate spellings
  | missingValue switch => switchText switch ++ ": expected one argument"
  | unusedValue switch value =>
    switchText switch ++ ": ignored explicit argument " ++ Text.quoted value
  | unknownScheme name =>
    switchText .colorScheme ++ ": invalid choice: " ++ Text.quoted name ++ " (choose from " ++
      ", ".intercalate (ColorScheme.presetNames.map Text.quoted) ++ ")"
  | unrecognized arguments => "unrecognized arguments: " ++ " ".intercalate arguments

/-- What an argument is. -/
inductive Role where
  | plain
  /-- The mark after which all arguments are plain. -/
  | mark
  /-- A switch by the spelling that is meant, perhaps with a value of its own. -/
  | switch (switch : Switch) (spelling : String) (value : Option String)
  | unknownSwitch
  deriving Repr, DecidableEq

structure Argument where
  text : String
  role : Role
  deriving Repr, DecidableEq

/-! ## The roles of arguments -/

/-- A text before and after its first equals sign. -/
def splitAtEquals? (text : String) : Option (String × String) :=
  match text.toList.dropWhile (· != '=') with
  | _ :: after => some (String.ofList (text.toList.takeWhile (· != '=')), String.ofList after)
  | [] => none

/-- Whether a text looks like a negative number. -/
def isNegativeNumber (text : String) : Bool :=
  match text.toList with
  | '-' :: rest =>
    let number := if rest.getLast? == some '\n' then rest.dropLast else rest
    let whole := number.takeWhile Text.isDecimal
    match number.dropWhile Text.isDecimal with
    | [] => !whole.isEmpty
    | '.' :: fraction => !fraction.isEmpty && fraction.all Text.isDecimal
    | _ => false
  | _ => false

/-- Whether a text starts with another. -/
def startsWith (text start : String) : Bool := start.toList.isPrefixOf text.toList

/-- The readings of an argument with two dashes: all long spellings that it
abbreviates. -/
def longReadings (argument : String) : List (Switch × String × Option String) :=
  let (start, value) := match splitAtEquals? argument with
    | some (start, value) => (start, some value)
    | none => (argument, none)
  (Switch.spelled.filter fun (spelling, _) => startsWith spelling start).map
    fun (spelling, switch) => (switch, spelling, value)

/-- The readings of an argument with one dash: a short spelling with a value, or
a spelling that it abbreviates. -/
def shortReadings (argument : String) : List (Switch × String × Option String) :=
  let short := String.ofList (argument.toList.take 2)
  let value := String.ofList (argument.toList.drop 2)
  Switch.spelled.filterMap fun (spelling, switch) =>
    if spelling == short then some (switch, spelling, some value)
    else if startsWith spelling argument then some (switch, spelling, none)
    else none

/-- The role of an argument that is no spelling of a switch. -/
def abbreviationRole (argument : String) : Except Rejection Role :=
  let readings :=
    if startsWith argument "--" then longReadings argument else shortReadings argument
  match readings with
  | [(switch, spelling, value)] => .ok (.switch switch spelling value)
  | [] =>
    if isNegativeNumber argument || argument.toList.contains ' ' then .ok .plain
    else .ok .unknownSwitch
  | several => .error (.ambiguous argument (several.map fun (_, spelling, _) => spelling))

/-- The role of an argument before any mark. -/
def roleOf (argument : String) : Except Rejection Role :=
  if !startsWith argument "-" || argument == "-" then .ok .plain
  else
    match Switch.ofSpelling? argument with
    | some switch => .ok (.switch switch argument none)
    | none =>
      match splitAtEquals? argument with
      | some (spelling, value) =>
        match Switch.ofSpelling? spelling with
        | some switch => .ok (.switch switch spelling (some value))
        | none => abbreviationRole argument
      | none => abbreviationRole argument

/-- The roles of all arguments. -/
def rolesOf : List String → Except Rejection (List Argument)
  | [] => .ok []
  | "--" :: rest =>
    .ok ({ text := "--", role := .mark } :: rest.map fun text => { text, role := .plain })
  | text :: rest => do
    let role ← roleOf text
    return { text, role } :: (← rolesOf rest)

/-! ## The meaning of arguments -/

/-- What arguments ask for. -/
structure Arguments where
  files : List String := []
  config : Option Path := none
  scheme : Option String := none
  followImports : Bool := false
  omitLibraries : Bool := false
  output : Option Path := none
  verbose : Bool := false
  deriving Repr, DecidableEq

/-- How the arguments of a command line are taken. -/
inductive Request where
  | run (arguments : Arguments)
  | help
  deriving Repr, DecidableEq

/-- The state of taking arguments. -/
structure Taking where
  arguments : Arguments := {}
  filesTaken : Bool := false
  helpAsked : Bool := false
  unrecognized : List String := []
  deriving Repr

/-- Take a switch with its value. -/
def Taking.apply (taking : Taking) (switch : Switch) (value : String) :
    Except Rejection Taking :=
  let arguments := taking.arguments
  match switch with
  | .help => .ok { taking with helpAsked := true }
  | .config =>
    .ok { taking with arguments := { arguments with config := some (Path.ofString value) } }
  | .colorScheme =>
    if ColorScheme.presetNames.contains value then
      .ok { taking with arguments := { arguments with scheme := some value } }
    else .error (.unknownScheme value)
  | .importer => .ok { taking with arguments := { arguments with followImports := true } }
  | .libraries => .ok { taking with arguments := { arguments with omitLibraries := true } }
  | .output =>
    .ok { taking with arguments := { arguments with output := some (Path.ofString value) } }
  | .verbose => .ok { taking with arguments := { arguments with verbose := true } }

/-- Take switches in order.  A request for help ends everything. -/
def Taking.applyAll (taking : Taking) : List (Switch × String) → Except Rejection Taking
  | [] => .ok taking
  | (switch, value) :: rest => do
    if taking.helpAsked then return taking
    (← taking.apply switch value).applyAll rest

/-- Take a block of files; the first mark in it does not count.  A second block
is not recognized. -/
def Taking.addFiles (taking : Taking) (block : List Argument) : Taking :=
  let texts := block.map Argument.text
  if taking.filesTaken then { taking with unrecognized := taking.unrecognized ++ texts }
  else
    { taking with
      arguments := { taking.arguments with files := texts.erase "--" }, filesTaken := true }

/-- Whether an argument may be a file. -/
def Argument.isFile (argument : Argument) : Bool :=
  argument.role == .plain || argument.role == .mark

/-- The value of a switch among the arguments after it. -/
def nextValue (switch : Switch) : List Argument → Except Rejection (String × List Argument)
  | { text, role := .plain } :: rest => .ok (text, rest)
  | _ => .error (.missingValue switch)

/-- The switches of one argument: short switches may share a dash, and the last
of them may have a value.  `long` says whether the spelling has two dashes; the
text is what follows the spelling. -/
def clusterOf (long : Bool) (switch : Switch) (value : Option (List Char))
    (later : List Argument) : Except Rejection (List (Switch × String) × List Argument) :=
  match value with
  | none => do
    if switch.takesValue then
      let (text, rest) ← nextValue switch later
      return ([(switch, text)], rest)
    else return ([(switch, "")], later)
  | some text =>
    if switch.takesValue then .ok ([(switch, String.ofList text)], later)
    else
      match long, text with
      | false, char :: rest =>
        match Switch.ofSpelling? (String.ofList ['-', char]) with
        | none => .error (.unusedValue switch (String.ofList text))
        | some next => do
          let (switches, later) ←
            clusterOf false next (if rest.isEmpty then none else some rest) later
          return ((switch, "") :: switches, later)
      | _, _ => .error (.unusedValue switch (String.ofList text))
termination_by (value.getD []).length
decreasing_by
  cases rest <;> simp

/-- Take arguments from the first to the last. -/
def takeAll (taking : Taking) : Nat → List Argument → Except Rejection Taking
  | 0, _ => .ok taking
  | fuel + 1, arguments =>
    if taking.helpAsked then .ok taking
    else
      match arguments.takeWhile Argument.isFile, arguments.dropWhile Argument.isFile with
      | [], [] => .ok (if taking.filesTaken then taking else taking.addFiles [])
      | [], { text, role } :: rest =>
        match role with
        | .switch switch spelling value => do
          let (switches, later) ←
            clusterOf (startsWith spelling "--") switch (value.map String.toList) rest
          takeAll (← taking.applyAll switches) fuel later
        | _ => takeAll { taking with unrecognized := taking.unrecognized ++ [text] } fuel rest
      | block, rest => takeAll (taking.addFiles block) fuel rest

/-- What the arguments of a command line ask for. -/
def parse (texts : List String) : Except Rejection Request := do
  let arguments ← rolesOf texts
  let taken ← takeAll {} (2 * arguments.length + 2) arguments
  if taken.helpAsked then return .help
  else if taken.unrecognized.isEmpty then return .run taken.arguments
  else throw (.unrecognized taken.unrecognized)

/-! ## Texts -/

def usage : String :=
  "usage: solgraph [-h] [--config CONFIG] [--color-scheme \x7bdark,default\x7d]\n" ++
  "                [--importer] [--libraries] [--output OUTPUT] [--verbose]\n" ++
  "                [files ...]\n"

def helpText : String :=
  usage ++
  "\nGenerate a contract-level call graph (DOT) for Solidity sources\n" ++
  "\npositional arguments:\n" ++
  "  files                 Solidity source files to analyze\n" ++
  "\noptions:\n" ++
  "  -h, --help            show this help message and exit\n" ++
  "  --config CONFIG       Path to options YAML file (defaults to SOLGRAPH_*\n" ++
  "                        environment variables)\n" ++
  "  --color-scheme \x7bdark,default\x7d\n" ++
  "                        Preset colour scheme\n" ++
  "  --importer            Follow import directives to discover dependency files\n" ++
  "  --libraries           Suppress edges to libraries attached with using-for\n" ++
  "  --output OUTPUT, -o OUTPUT\n" ++
  "                        Write DOT to this file instead of stdout\n" ++
  "  --verbose, -v         Enable verbose (debug) logging\n" ++
  "\nExamples:\n" ++
  "    # Print the graph for a set of files\n" ++
  "    python -m solgraph contracts/Token.sol contracts/Vault.sol\n" ++
  "\n    # Follow imports, dark theme, write to a file\n" ++
  "    python -m solgraph contracts/Vault.sol --importer --color-scheme dark -o vault.dot\n" ++
  "\n    # Options from YAML (command-line flags take precedence)\n" ++
  "    python -m solgraph contracts/*.sol --config solgraph.yaml\n" ++
  "        \n"

/-- The text for rejected arguments. -/
def rejectionText (rejection : Rejection) : String :=
  usage ++ "solgraph: error: " ++ rejection.message ++ "\n"

end ContractCalls.CommandLine
