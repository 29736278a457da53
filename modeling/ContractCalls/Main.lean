import ContractCalls.CommandLine.Run

/-!
Contract: the program.

Owns:
- a picture of the part of the real file system that a command line asks about;
- the environment variables that are looked at;
- the two output streams, the output file and the exit code.

Does not own: what a command line brings about, which is decided on the picture.
-/

set_option autoImplicit false

namespace ContractCalls.Program

open ContractCalls.Files

/-- The code of the failure to read a directory as a file. -/
def directoryCode : UInt32 := 21

/-- Look at one place, and add what stands there to the picture. -/
def observe (disk : Disk) (place : Location) : IO Disk := do
  match ← (IO.FS.readBinFile place.path.text).toBaseIO with
  | .ok content => return disk.makeFile place (String.fromUTF8? content)
  | .error (.inappropriateType _ code _) =>
    return if code = directoryCode then disk.makeDirectory place else disk
  | .error _ => return disk

/-- Look at the places that paths lead through. -/
def survey (disk : Disk) (paths : List Path) : IO Disk :=
  (paths.flatMap disk.waypoints).foldlM observe disk

/-- The imports of a file in the picture. -/
def importsOf (disk : Disk) (file : String) : List String :=
  match ((Session.importsOf disk file).run {}).1 with
  | .ok (some imports) => imports
  | _ => []

/-- Look at files, and at all places where their imports may be found. -/
partial def surveyImports (disk : Disk) (seen : List String) : List String → IO Disk
  | [] => pure disk
  | file :: later => do
    if seen.contains file then surveyImports disk seen later
    else
      let withFile ← survey disk [Path.ofString file]
      let imports := importsOf withFile file
      let withImports ← survey withFile
        (imports.flatMap fun imported => importPaths withFile imported file)
      surveyImports withImports (file :: seen) (later ++ resolvedImports withImports imports file)

/-- The names that a value of a file of variables refers to. -/
def referredNames : List Char → List String
  | [] => []
  | char :: rest =>
    match Options.readReference? (char :: rest) with
    | some (name, _, _) => name :: referredNames rest
    | none => referredNames rest

/-- The variables that a file of variables sets or refers to. -/
def variablesIn (disk : Disk) (path : Path) : List String :=
  match disk.read path with
  | .ok (some text) =>
    (Options.readBindings text).flatMap fun (name, value) =>
      name :: referredNames (value.getD "").toList
  | _ => []

/-- The environment variables that are set, of those that options or files of
variables look at. -/
def environment (disk : Disk) (program : Location) : IO Options.Environment := do
  let names := ["SOLGRAPH_COLOR_SCHEME", "SOLGRAPH_IMPORTER", "SOLGRAPH_LIBRARIES"] ++
    (Options.variablePaths program).flatMap (variablesIn disk)
  let values ← names.filterMapM fun name => do
    return (← IO.getEnv name).map fun value => (name, value)
  return Table.ofPairs values

/-- A picture of nothing but the working directory. -/
def emptyPicture : IO Disk := do
  let working := (Path.ofString (← IO.currentDir).toString).parts
  return ({ working } : Disk).makeDirectory working

/-- What a command line finds around it. -/
def surroundings (texts : List String) : IO CommandLine.Surroundings := do
  let program := (Path.ofString (← IO.appPath).toString).parts.dropLast
  let start ← survey (← emptyPicture) (Options.variablePaths program)
  let environment ← environment start program
  match CommandLine.parse texts with
  | .ok (.run arguments) =>
    let disk ← survey start (arguments.config.toList ++ arguments.output.toList)
    match arguments.options { environment, disk, program } with
    | .error _ => return { environment, disk, program }
    | .ok options =>
      if options.literalSources then return { environment, disk, program }
      else if options.followImports then
        return { environment, program, disk := ← surveyImports disk [] arguments.files }
      else
        return { environment, program, disk := ← survey disk (arguments.files.map Path.ofString) }
  | _ => return { environment, disk := start, program }

/-- Bring about in the real world what was decided on the picture. -/
def enact (outcome : CommandLine.Outcome) : IO UInt32 := do
  for entry in outcome.log do IO.eprintln entry.line
  IO.eprint outcome.errorOutput
  IO.print outcome.output
  match outcome.written with
  | some (path, text) => IO.FS.writeFile path.text text
  | none => pure ()
  return outcome.exitCode.toUInt32

end ContractCalls.Program

def main (texts : List String) : IO UInt32 := do
  match ContractCalls.CommandLine.run texts (← ContractCalls.Program.surroundings texts) with
  | .ok outcome => ContractCalls.Program.enact outcome
  | .error escape =>
    IO.eprintln escape.message
    return 1
