import ContractCalls.Dot.Scheme
import ContractCalls.Options.Checked
import ContractCalls.Text.Quoted

/-!
Contract: the options of an analysis.

Owns the options with their defaults, how they are read from the entries of an
option file, and what goes wrong then.
-/

set_option autoImplicit false

namespace ContractCalls

open ContractCalls.Dot

/-- The options of an analysis. -/
structure Options where
  scheme : ColorScheme := {}
  /-- Follow imports to further files. -/
  followImports : Bool := false
  /-- The inputs are sources and not paths. -/
  literalSources : Bool := false
  /-- Leave out calls that go to an attached library. -/
  omitLibraries : Bool := false
  deriving Repr, DecidableEq, Inhabited

namespace Options

/-- Why values are no options. -/
inductive Failure where
  | unknownScheme (name : String)
  | invalid (problems : List Problem)
  deriving Repr, DecidableEq

def unknownSchemeMessage (name : String) : String :=
  "Unknown color scheme " ++ Text.quoted name ++ " (known: " ++
    ", ".intercalate ColorScheme.presetNames ++ ")"

/-- The scheme of a name. -/
def namedScheme (name : String) : Except Failure ColorScheme :=
  match ColorScheme.named? name with
  | some scheme => .ok scheme
  | none => .error (.unknownScheme name)

def readGraphStyle : Value → Checked GraphStyle :=
  readRecord "DigraphStyle" {} fun entries => do
    let background ← readField entries ["bgcolor"] none readTextOption
    let nodeAttributes ← readField entries ["node_attribs"] {} readTable
    let edgeAttributes ← readField entries ["edge_attribs"] {} readTable
    return { background, nodeAttributes, edgeAttributes }

def readCallColors : Value → Checked CallColors :=
  readRecord "CallColors" {} fun entries => do
    let standard : CallColors := {}
    let others ← readField entries ["default"] standard.others readText
    let direct ← readField entries ["regular"] standard.direct readText
    let this ← readField entries ["this"] standard.this readText
    return { others, direct, this }

def readContractStyle : Value → Checked ContractStyle :=
  readRecord "ContractStyle" {} fun entries => do
    let standard : ContractStyle := {}
    let background ← readField entries ["bgcolor"] none readTextOption
    let color ← readField entries ["color"] standard.color readText
    let fontColor ← readField entries ["fontcolor"] none readTextOption
    let style ← readField entries ["style"] none readTextOption
    return { background, color, fontColor, style }

def readContractStyles : Value → Checked ContractStyles :=
  readRecord "ContractColors" {} fun entries => do
    let standard : ContractStyles := {}
    let defined ← readField entries ["defined"] standard.defined readContractStyle
    let mentioned ← readField entries ["undefined"] standard.mentioned readContractStyle
    return { defined, mentioned }

/-- Read a scheme that is written out. -/
def readScheme : Value → Checked ColorScheme :=
  readRecord "ColorScheme" {} fun entries => do
    let graph ← readField entries ["digraph"] {} readGraphStyle
    let calls ← readField entries ["call"] {} readCallColors
    let contracts ← readField entries ["contract"] {} readContractStyles
    return { graph, calls, contracts }

/-- The names of the field that holds the scheme; of two present fields the
first counts. -/
def schemeNames : List String := ["colorScheme", "color_scheme"]

/-- The name of the scheme, if the scheme is given by name. -/
def schemeName? (entries : List (Value × Value)) : Option String :=
  match schemeNames.findSome? fun name => Value.entry? entries name with
  | some (.text name) => some name
  | _ => none

/-- Read options whose scheme is already known if it is given by name. -/
def readOptions (named : Option ColorScheme) (entries : List (Value × Value)) :
    Checked Options := do
  let scheme ← match named with
    | some scheme => pure scheme
    | none => readField entries schemeNames {} readScheme
  let followImports ← readField entries ["importer"] false readFlag
  let literalSources ←
    readField entries ["contentsInFilePath", "contents_in_file_path"] false readFlag
  let omitLibraries ← readField entries ["libraries"] false readFlag
  return { scheme, followImports, literalSources, omitLibraries }

/-- The value that was read, unless there were problems. -/
def accept {α : Type} (checked : Checked α) : Except Failure α :=
  if checked.problems.isEmpty then .ok checked.value else .error (.invalid checked.problems)

/-- The scheme of a value. -/
def schemeOf (value : Value) : Except Failure ColorScheme := accept (readScheme value)

/-- The options of the entries of an option file.  A name of no scheme is
reported before all other problems. -/
def ofEntries (entries : List (Value × Value)) : Except Failure Options := do
  let named ← match schemeName? entries with
    | some name => some <$> namedScheme name
    | none => pure none
  accept (readOptions named entries)

end Options

end ContractCalls
