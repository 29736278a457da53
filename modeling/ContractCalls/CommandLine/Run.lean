import ContractCalls.CommandLine.Arguments
import ContractCalls.Files.Refusals
import ContractCalls.Options.Environment
import ContractCalls.Session

/-!
Contract: what a command line brings about.

Owns:
- the options of a run: those of the option file or of the variables, and then
  those of the arguments;
- the exit code, the texts for the two output streams, the messages, and the
  file that is written;
- which failures end with an exit code, and which escape.

Failures are reported from the reading of the options to the finished graph.  Those
of asking for the option file and of delivering the graph escape.

Does not own: the real file system, environment and streams.
-/

set_option autoImplicit false

namespace ContractCalls.CommandLine

open ContractCalls.Files ContractCalls.Solidity

/-- What a command line finds around it. -/
structure Surroundings where
  environment : Options.Environment := {}
  disk : Disk := {}
  /-- The directory of the program. -/
  program : Location := []
  refusals : Refusals := disk.refusals
  deriving Inhabited

/-- What a command line leaves behind. -/
structure Outcome where
  exitCode : Nat := 0
  output : String := ""
  errorOutput : String := ""
  log : List Log.Entry := []
  disk : Disk := {}
  /-- The output file with its text, if one was written. -/
  written : Option (Path × String) := none
  deriving Inhabited

/-- A failure that no exit code stands for. -/
inductive Escape where
  /-- It cannot be asked whether the option file is there. -/
  | unaskable (error : SystemError)
  /-- The output file cannot be written. -/
  | unwritable (error : SystemError)
  /-- Nothing can be written to the output. -/
  | unprintable (error : SystemError)
  | unencodable
  | notText (path : String)
  | unmakeableValue (cause : Yaml.Failure)
  | unsettable (name : String)
  | incomplete (defect : FromTree.Defect)
  deriving Repr, DecidableEq

def Escape.message : Escape → String
  | unaskable error => error.message
  | unwritable error => error.message
  | unprintable error => error.message
  | unencodable => "The output has no encoding for the graph"
  | notText path => (Session.Failure.notText path).message
  | unmakeableValue _ => "The option file has a value that cannot be made"
  | unsettable name => (Options.LoadFailure.unsettable name).message
  | incomplete defect => (Session.Failure.incomplete defect).message

/-- Why options or graph could not be made: with an exit code and a message, or
in a way that escapes. -/
inductive Failure where
  | reported (message : String)
  | escaped (escape : Escape)
  deriving Repr, DecidableEq

def Failure.ofLoad (failure : Options.LoadFailure) : Failure :=
  match failure with
  | .notText path => .escaped (.notText path)
  | .unmakeableValue cause => .escaped (.unmakeableValue cause)
  | .unsettable name => .escaped (.unsettable name)
  | _ => .reported failure.message

def Failure.ofSession (failure : Session.Failure) : Failure :=
  match failure with
  | .notText path => .escaped (.notText path)
  | .incomplete defect => .escaped (.incomplete defect)
  | _ => .reported failure.message

/-- The options before the arguments are looked at.  An option file replaces the
environment. -/
def givenOptions (surroundings : Surroundings) (config : Option Path) :
    Except Options.LoadFailure Options :=
  match config with
  | some path => Options.load surroundings.disk path
  | none =>
    Options.ofVariables surroundings.disk surroundings.program surroundings.environment

/-- Options with those of the arguments, which can switch on but not off. -/
def Arguments.override (arguments : Arguments) (options : Options) : Options :=
  { options with
    scheme := (arguments.scheme.bind Dot.ColorScheme.named?).getD options.scheme
    followImports := options.followImports || arguments.followImports
    omitLibraries := options.omitLibraries || arguments.omitLibraries }

/-- The options of a run. -/
def Arguments.options (arguments : Arguments) (surroundings : Surroundings) :
    Except Options.LoadFailure Options :=
  (givenOptions surroundings arguments.config).map arguments.override

def message (level : Log.Level) (text : String) : Log.Entry :=
  { level, origin := .commandLine, text }

/-- The graph of a run that nothing interrupts, with the messages of its session. -/
def Arguments.undisturbed (arguments : Arguments) (surroundings : Surroundings) :
    Except Failure String × List Log.Entry :=
  match arguments.options surroundings with
  | .error failure => (.error (.ofLoad failure), [])
  | .ok options =>
    let (outcome, session) := (Session.run options surroundings.disk arguments.files).run {}
    (outcome.mapError Failure.ofSession, session.log.toList)

/-- The graph of a run, with the messages up to its end. -/
def Arguments.graphText (arguments : Arguments) (surroundings : Surroundings) :
    Except Failure String × List Log.Entry :=
  match surroundings.refusals.making with
  | none => arguments.undisturbed surroundings
  | some interruption =>
    (.error (.reported interruption.error.message),
      (arguments.undisturbed surroundings).2.take interruption.messages)

/-- The option file that is asked for, if it is not there. -/
def Arguments.missingConfig? (arguments : Arguments) (surroundings : Surroundings) :
    Except SystemError (Option Path) :=
  match arguments.config with
  | none => .ok none
  | some path =>
    match surroundings.refusals.asking path with
    | some error => .error error
    | none => .ok (if surroundings.disk.exists? path then none else some path)

/-- Write a text to the output. -/
def Surroundings.print (surroundings : Surroundings) (text : String) : Except Escape Unit :=
  match surroundings.refusals.printing text with
  | none => .ok ()
  | some (.system error) => .error (.unprintable error)
  | some .unencodable => .error .unencodable

/-- Write a text to a file. -/
def Surroundings.write (surroundings : Surroundings) (path : Path) (text : String) :
    Except SystemError Disk :=
  match surroundings.refusals.writing path with
  | some error => .error error
  | none => (surroundings.disk.write path text).mapError FileError.system

/-- Write a finished graph to the output file, or else to the output. -/
def Arguments.deliver (arguments : Arguments) (surroundings : Surroundings)
    (log : List Log.Entry) (graph : String) : Except Escape Outcome :=
  match arguments.output with
  | none =>
    (surroundings.print (graph ++ "\n")).map fun _ =>
      { output := graph ++ "\n", log, disk := surroundings.disk }
  | some path =>
    match surroundings.write path graph with
    | .error error => .error (.unwritable error)
    | .ok changed =>
      .ok { log := log ++ [message .info ("Graph written to " ++ path.text)]
            disk := changed
            written := some (path, graph) }

/-- Carry out what arguments ask for, with all messages. -/
def Arguments.carryOut (arguments : Arguments) (surroundings : Surroundings) :
    Except Escape Outcome :=
  let disk := surroundings.disk
  match arguments.missingConfig? surroundings with
  | .error error => .error (.unaskable error)
  | .ok (some path) =>
    .ok { exitCode := 1, disk
          log := [message .error ("Config file not found: " ++ path.text)] }
  | .ok none =>
    match arguments.graphText surroundings with
    | (.ok graph, log) => arguments.deliver surroundings log graph
    | (.error (.reported text), log) =>
      .ok { exitCode := 1, disk
            log := log ++ [message .error ("Graph generation failed: " ++ text)] }
    | (.error (.escaped escape), _) => .error escape

/-- The messages that are shown. -/
def Arguments.shown (arguments : Arguments) (log : List Log.Entry) : List Log.Entry :=
  Log.visible (if arguments.verbose then .debug else .info) log

/-- Carry out a command line. -/
def run (texts : List String) (surroundings : Surroundings) : Except Escape Outcome :=
  match parse texts with
  | .error rejection =>
    .ok { exitCode := 2, errorOutput := rejectionText rejection, disk := surroundings.disk }
  | .ok .help => .ok { output := helpText, disk := surroundings.disk }
  | .ok (.run arguments) =>
    (arguments.carryOut surroundings).map fun outcome =>
      { outcome with log := arguments.shown outcome.log }

end ContractCalls.CommandLine
