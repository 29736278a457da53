import ContractCalls.Solidity.Grammar.Assembly

/-!
Contract: the grammar of statements.

Owns local declarations, control flow, blocks, emitted events and reverts.

Does not own: what stands between the braces of inline assembly.

A word that starts a statement, or that can only go on with the one before it,
is never read as a name.  Where a declaration and an expression could both
start, a declaration is tried first.
-/

set_option autoImplicit false

namespace ContractCalls.Solidity.Grammar

open ContractCalls.Syntax ContractCalls.Solidity.Grammar.Parser

/-! ## Declarations and expressions -/

/-- A local variable: type, place and name. -/
def variableDeclaration (place : TypePlace) : Parser Piece := do
  let type ← typeAt place
  let location ← maybe location
  let name ← identifier
  return branch "variable_declaration"
    ([inRole "type" type] ++ location ++ [inRole "name" name])

/-- Variables in parentheses, any of which may be left out.  Behind the first of
them no expression can stand. -/
def declarationTuple : Parser Piece := do
  let pieces ← between "(" ")" do
    let leading ← many (token ",")
    let first ← maybe (variableDeclaration .besideExpressions)
    let later ← many do return (← token ",") :: (← maybe (variableDeclaration .alone))
    return leading ++ first ++ later.flatten
  return branch "variable_declaration_tuple" pieces

/-- Names in parentheses behind the word that leaves their types open. -/
def untypedTuple : Parser Piece := do
  let word ← token "var"
  let pieces ← between "(" ")" do
    let first ← maybe identifier
    let later ← many do return (← token ",") :: (← maybe identifier)
    return first ++ later.flatten
  return branch "variable_declaration_tuple" (word :: pieces)

/-- A value behind an equals sign. -/
def initialValue : Parser (List Piece) := do
  return [← token "=", inRole "value" (← expression)]

def variableDeclarationStatement : Parser Piece := do
  let single : Parser (List Piece) := do
    return (← variableDeclaration .besideExpressions) :: (← behind "=" initialValue)
  let several : Parser (List Piece) := do
    return (← untypedTuple <|> declarationTuple) :: (← initialValue)
  let pieces ← several <|> single
  return branch "variable_declaration_statement" (pieces ++ [← token ";"])

def expressionStatement : Parser Piece := do
  return branch "expression_statement" [← expression, ← token ";"]

/-- Whether a word that starts a type comes next, on its own or as the first
part of a tuple. -/
def startsType : List Lexeme → Bool
  | [] => false
  | first :: rest =>
    let start := if isToken "(" first then rest.dropWhile (isToken ",") else first :: rest
    start.head?.any fun lexeme => typeWords.any fun word => isToken word lexeme

/-- Whether names without types come next. -/
def startsUntypedTuple : List Lexeme → Bool
  | word :: opening :: _ => isToken "var" word && isToken "(" opening
  | _ => false

/-- A declaration or an expression. -/
def simpleStatement : Parser Piece := do
  let input ← get
  if startsType input || startsUntypedTuple input then variableDeclarationStatement
  else variableDeclarationStatement <|> expressionStatement

/-! ## Events and errors -/

/-- A call taken apart into what is called and the rest of its pieces. -/
def splitCall (piece : Piece) : Option (Piece × List Piece) :=
  match piece.children with
  | [core] =>
    match core.children with
    | called :: rest =>
      if core.kind == "call_expression" then some ({ called with field := none }, rest)
      else none
    | [] => none
  | _ => none

/-- A conversion taken apart into its type and the rest of its pieces. -/
def splitCast (piece : Piece) : Option (Piece × List Piece) :=
  match piece.children with
  | [core] =>
    match core.children with
    | type :: rest =>
      if core.kind == "type_cast_expression" then some (wrapped type, rest) else none
    | [] => none
  | _ => none

/-- An emitted event with its arguments. -/
def emitStatement : Parser Piece := do
  let word ← token "emit"
  let whole ← expression
  match splitCall whole <|> splitCast whole with
  | none => failure
  | some (event, arguments) =>
    return branch "emit_statement"
      ([word, inRole "name" event] ++ arguments ++ [← token ";"])

/-- A revert with nothing but arguments. -/
def bareRevertStatement : Parser Piece := do
  let word ← token "revert"
  let arguments ← behind "(" do return [branch "revert_arguments" (← argumentList)]
  return branch "revert_statement" (word :: arguments ++ [← token ";"])

/-- A revert with an error, and perhaps arguments. -/
def errorRevertStatement : Parser Piece := do
  let word ← token "revert"
  let whole ← expression
  let reason := match splitCall whole with
    | none => [inRole "error" whole]
    | some (error, arguments) => [inRole "error" error, branch "revert_arguments" arguments]
  return branch "revert_statement" (word :: reason ++ [← token ";"])

def revertStatement : Parser Piece := bareRevertStatement <|> errorRevertStatement

/-! ## Control flow -/

def returnStatement : Parser Piece := do
  let word ← token "return"
  let value ← maybe expression
  return branch "return_statement" (word :: value ++ [← token ";"])

/-- A word that is a statement of its own. -/
def wordStatement (word kind : String) : Parser Piece := do
  return branch kind [← token word, ← token ";"]

/-- A condition in parentheses. -/
def condition : Parser (List Piece) := between "(" ")" do
  return [inRole "condition" (← expression)]

mutual

/-- A statement. -/
def statement : Nat → Parser Piece
  | 0 => failure
  | budget + 1 => do
    let form ← (fun word =>
      match word with
      | "\x7b" => blockStatement budget
      | "unchecked" => blockStatement budget
      | "if" => ifStatement budget
      | "for" => forStatement budget
      | "while" => whileStatement budget
      | "do" => doStatement budget
      | "try" => tryStatement budget
      | "return" => returnStatement
      | "emit" => emitStatement
      | "revert" => revertStatement
      | "assembly" => Assembly.assemblyStatement
      | "break" => wordStatement "break" "break_statement"
      | "continue" => wordStatement "continue" "continue_statement"
      | _ => simpleStatement)
      ((← peek).elim "" fun lexeme => lexeme.text)
    return branch "statement" [form]

def blockStatement : Nat → Parser Piece
  | 0 => failure
  | budget + 1 => do
    let word ← maybe (token "unchecked")
    let body ← between "\x7b" "\x7d" (many (statement budget))
    return branch "block_statement" (word ++ body)

def ifStatement : Nat → Parser Piece
  | 0 => failure
  | budget + 1 => do
    let word ← token "if"
    let condition ← condition
    let positive ← statement budget
    let negative ← behind "else" do
      return [inRole "else" (← token "else"), inRole "body" (← statement budget)]
    return branch "if_statement" (word :: condition ++ inRole "body" positive :: negative)

def forStatement : Nat → Parser Piece
  | 0 => failure
  | budget + 1 => do
    let word ← token "for"
    let header ← between "(" ")" do
      let initial ← token ";" <|> simpleStatement
      let condition ← token ";" <|> expressionStatement
      let update ← maybe (inRole "update" <$> expression)
      return inRole "initial" initial :: inRole "condition" condition :: update
    let body ← statement budget
    return branch "for_statement" (word :: header ++ [inRole "body" body])

def whileStatement : Nat → Parser Piece
  | 0 => failure
  | budget + 1 => do
    let word ← token "while"
    let condition ← condition
    let body ← statement budget
    return branch "while_statement" (word :: condition ++ [inRole "body" body])

def doStatement : Nat → Parser Piece
  | 0 => failure
  | budget + 1 => do
    let word ← token "do"
    let body ← statement budget
    let again ← token "while"
    let condition ← condition
    return branch "do_while_statement"
      ([word, inRole "body" body, again] ++ condition ++ [← token ";"])

def tryStatement : Nat → Parser Piece
  | 0 => failure
  | budget + 1 => do
    let word ← token "try"
    let attempted ← expressionBeforeBlock
    let results ← behind "returns" do return (← token "returns") :: (← parameters)
    let body ← blockStatement budget
    let clauses ← whenever "catch" (catchClause budget)
    if clauses.isEmpty then failure
    else
      return branch "try_statement"
        ([word, inRole "attempt" attempted] ++ results ++ inRole "body" body :: clauses)

def catchClause : Nat → Parser Piece
  | 0 => failure
  | budget + 1 => do
    let word ← token "catch"
    let caught ←
      if ← nextAmong ["\x7b", "unchecked"] then pure []
      else do pure ((← maybe identifier) ++ (← parameters))
    let body ← blockStatement budget
    return branch "catch_clause" (word :: caught ++ [inRole "body" body])

end

/-- The body of a function. -/
def functionBody : Parser Piece := do
  let budget := budgetFor (← get)
  return branch "function_body" (← between "\x7b" "\x7d" (many (statement budget)))

end ContractCalls.Solidity.Grammar
