/-!
Contract: errors in the form of a source.

Owns where an error is said to be, and its wording.
-/

set_option autoImplicit false

namespace ContractCalls.Solidity

/-- A source could not be read.  The path is that of the file, if the source is
one; line and column are counted from one. -/
structure SyntaxError where
  description : String := "Syntax error"
  path : Option String := none
  line : Option Int := none
  column : Option Int := none
  deriving Repr, DecidableEq

/-- The wording of an error: a line is shown together with its column. -/
def SyntaxError.message (error : SyntaxError) : String :=
  match error.line with
  | none => error.description
  | some line =>
    let column := match error.column with
      | some column => toString column
      | none => "None"
    error.description ++ " at line " ++ toString line ++ ", column " ++ column

end ContractCalls.Solidity
