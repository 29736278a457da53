/-!
Contract: messages that the program's parts leave for their user.

Owns the levels, the parts that speak, which messages are shown at which level,
and the line that shows a message.

Does not own: writing messages to a stream.
-/

set_option autoImplicit false

namespace ContractCalls.Log

/-- How serious a message is, in ascending order. -/
inductive Level where
  | debug
  | info
  | warning
  | error
  deriving Repr, DecidableEq

/-- The part of the program that a message comes from. -/
inductive Origin where
  | declarations
  | resolution
  | imports
  | session
  | commandLine
  deriving Repr, DecidableEq

structure Entry where
  level : Level
  origin : Origin
  text : String
  deriving Repr, DecidableEq

/-- The word for a level. -/
def Level.label : Level → String
  | .debug => "DEBUG"
  | .info => "INFO"
  | .warning => "WARNING"
  | .error => "ERROR"

/-- The name under which a part speaks. -/
def Origin.label : Origin → String
  | .declarations => "solgraph.graph.declarations"
  | .resolution => "solgraph.graph.resolver"
  | .imports => "solgraph.importer"
  | .session => "solgraph.builder"
  | .commandLine => "solgraph.main"

/-- The line that shows a message. -/
def Entry.line (entry : Entry) : String :=
  entry.origin.label ++ " - " ++ entry.level.label ++ " - " ++ entry.text

def Level.rank : Level → Nat
  | .debug => 0
  | .info => 1
  | .warning => 2
  | .error => 3

/-- The messages at or above a level, in order. -/
def visible (lowest : Level) (entries : List Entry) : List Entry :=
  entries.filter fun entry => lowest.rank ≤ entry.level.rank

end ContractCalls.Log
