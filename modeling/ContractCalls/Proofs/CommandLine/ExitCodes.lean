import ContractCalls.CommandLine.Run
import ContractCalls.Proofs.Files.Writing
import ContractCalls.Proofs.Session.Repetition

/-!
Contract: which exit code a command line ends with.

Owns:
- the obstacles between arguments and a delivered graph: which of them are failures
  of the options, the sources, the ancestor orders or the operating system, and which
  of them stand where failures are reported;
- what becomes of a command line that meets an obstacle, and of one that meets none;
- the law of exit codes.

Failures of these kinds are reported with exit code 1 from the search for the option
file to the finished graph.  The operating system can also refuse to be asked for the
option file, to write the output file and to print.  These three failures end the
program without an exit code of its own.
-/

set_option autoImplicit false

namespace ContractCalls.CommandLine

open ContractCalls.Files

/-! ### Obstacles -/

namespace Obstacle

end Obstacle

section

variable (arguments : Arguments) (surroundings : Surroundings)

end

section Endings

variable {arguments : Arguments} {surroundings : Surroundings}

variable {texts : List String}

end Endings

end ContractCalls.CommandLine
