import ContractCalls.Analysis.CallGraph
import ContractCalls.Dot.Document
import ContractCalls.Files.Imports
import ContractCalls.Options.Basic
import ContractCalls.Solidity.Parse

/-!
Contract: runs that build one call graph together.

Owns:
- loading the inputs of a run: literal sources, files, or files with all that
  they import;
- the state between runs: declarations, graph, and the files already parsed;
- the failures of a run and what each leaves behind.

A failure to load leaves declarations and graph as they were; a failure to
order ancestors leaves what was collected.
-/

set_option autoImplicit false

namespace ContractCalls

open ContractCalls.Analysis ContractCalls.Files ContractCalls.Solidity

/-- What runs leave for later runs, and the messages of all of them. -/
structure Session where
  collection : Collection := {}
  /-- The files that were parsed, under the paths by which they were given. -/
  units : Table String SourceUnit := {}
  log : Array Log.Entry := #[]
  deriving Inhabited

namespace Session

/-- Why a run fails. -/
inductive Failure where
  | noInput
  | malformed (error : SyntaxError)
  /-- The source parses, but its tree lacks a part. -/
  | incomplete (defect : FromTree.Defect)
  | linearization (failure : LinearizationFailure)
  | file (error : FileError)
  | notText (path : String)
  deriving Repr, DecidableEq

def Failure.message : Failure → String
  | noInput => "No files were specified for analysis in the arguments. Bailing..."
  | malformed error => error.message
  | incomplete _ => "The syntax tree of a source lacks a part"
  | linearization failure => failure.message
  | file error => error.message
  | notText path => path ++ " is not encoded as text"

/-- A step of a run.  What was changed before a failure stays changed. -/
abbrev Action := ExceptT Failure (StateM Session)

def report (entries : List Log.Entry) : Action Unit :=
  modify fun session => { session with log := session.log ++ entries.toArray }

def say (level : Log.Level) (text : String) : Action Unit :=
  report [{ level, origin := .session, text }]

/-- The message for a source that does not parse. -/
def malformedMessage : Option String → String
  | some path => "Error found while parsing the following file: " ++ path
  | none => "Error found while parsing one of the provided files"

/-- Parse a source, which may be that of a file. -/
def parseSource (path : Option String) (content : String) : Action SourceUnit :=
  match parse path content with
  | .ok unit => pure unit
  | .error (.malformed error) => do
    say .error (malformedMessage path)
    throw (.malformed error)
  | .error (.unreadable defect) => throw (.incomplete defect)

/-- Parse a file that has not been parsed before, and remember it.  A directory
is skipped. -/
def parseFile (disk : Disk) (path : String) : Action (Option SourceUnit) :=
  match disk.read (Path.ofString path) with
  | .ok (some content) => do
    let unit ← parseSource (some path) content
    modify fun session => { session with units := session.units.insert path unit }
    return some unit
  | .ok none => throw (.notText path)
  | .error error =>
    match error.cause with
    | .isDirectory => do
      say .warning ("Skipping directory " ++ path)
      return none
    | _ => throw (.file error)

/-- The source unit of a file; none for a directory. -/
def unitOf (disk : Disk) (path : String) : Action (Option SourceUnit) := do
  match (← get).units.find? path with
  | some unit => return some unit
  | none => parseFile disk path

/-- The imports of a file; none for a directory. -/
def importsOf (disk : Disk) (path : String) : Action (Option (List String)) := do
  return (← unitOf disk path).map SourceUnit.imports

/-- Inputs without repetitions, in the order in which they first come. -/
def distinct (inputs : List String) : List String := inputs.eraseDups

/-- The paths of the files to analyse. -/
def pathsToAnalyse (options : Options) (disk : Disk) (inputs : List String) :
    Action (List String) :=
  if options.followImports then crawl disk (importsOf disk) report inputs
  else (distinct inputs).filterM fun path => do return (← unitOf disk path).isSome

/-- Load the inputs of a run. -/
def loadUnits (options : Options) (disk : Disk) (inputs : List String) :
    Action (List SourceUnit) := do
  if options.literalSources then (distinct inputs).mapM (parseSource none)
  else
    let paths ← pathsToAnalyse options disk inputs
    let units := (← get).units
    return paths.filterMap fun path => units.find? path

def collectedMessage (unitCount contractCount : Nat) : String :=
  "Pass 1 complete: " ++ toString unitCount ++ " files, " ++ toString contractCount ++ " contracts"

def drawnMessage (edgeCount : Nat) : String :=
  "Pass 2 complete: " ++ toString edgeCount ++ " edges in call graph"

/-- The number of edges that drawings added. -/
def addedInAll (drawings : List Drawing) : Nat :=
  drawings.foldl (fun total drawing => total + drawing.added) 0

/-- Analyse loaded units on top of what was collected before. -/
def analyseUnits (options : Options) (units : List SourceUnit) : Action Unit := do
  let before := (← get).collection
  let collected := before.addUnits units
  modify fun session => { session with collection := collected }
  report (before.log units)
  say .info (collectedMessage units.length collected.declarations.size)
  match analyze before options.omitLibraries units with
  | .error failure => throw (.linearization failure)
  | .ok analysis =>
    modify fun session => { session with collection := { collected with graph := analysis.graph } }
    report (drawingLog analysis.drawings)
    say .info (drawnMessage (addedInAll analysis.drawings))

/-- Add the calls of inputs to the graph, and draw it. -/
def run (options : Options) (disk : Disk) (inputs : List String) : Action String := do
  if inputs.isEmpty then throw .noInput
  let units ← loadUnits options disk inputs
  analyseUnits options units
  return Dot.document options.scheme (← get).collection.graph

end Session

end ContractCalls
