import ContractCalls.Solidity.Grammar.Expressions

/-!
Contract: the grammar of inline assembly.

Owns the statements, expressions and literals between the braces of an assembly
block.

Does not own: the names of instructions, which are names like others.

A number is decimal without a leading zero, or hexadecimal; neither has
underscores, a fraction or a unit, so a longer number outside of assembly is
several lexemes in it.
-/

set_option autoImplicit false

namespace ContractCalls.Solidity.Grammar.Assembly

open ContractCalls.Syntax ContractCalls.Solidity.Grammar.Parser

/-! ## Names and literals -/

/-- The words that start a statement of their own kind. -/
def reservedWords : List String :=
  ["let", "if", "for", "switch", "leave", "break", "continue", "function", "true", "false"]

def anyName : Parser Piece :=
  leaf "yul_identifier" <$> take fun lexeme => lexeme.kind == .word

/-- A name that is not a word with a meaning of its own. -/
def name (reserved : List String) : Parser Piece :=
  leaf "yul_identifier" <$> take fun lexeme =>
    lexeme.kind == .word && !reserved.contains lexeme.text

/-- A name with any number of names of its parts. -/
def path (reserved : List String) : Parser Piece := do
  let first ← name reserved
  let later ← many do return [← token ".", ← anyName]
  return branch "yul_path" (first :: later.flatten)

/-- The number of characters of the number that a text starts with. -/
def numberLength : List Char → Nat
  | '0' :: 'x' :: rest => 2 + (rest.takeWhile Text.isHexDigit).length
  | '0' :: _ => 1
  | chars => (chars.takeWhile Text.isAsciiDigit).length

/-- Lexemes with a zero and a word directly behind it in one lexeme, as they are in
a hexadecimal number without digits. -/
def joinedZero : List Lexeme → List Lexeme
  | zero :: word :: rest =>
    if zero.text == "0" && word.kind == .word && word.span.start == zero.span.stop then
      { zero with text := zero.text ++ word.text, span := ⟨zero.span.start, word.span.stop⟩ } ::
        rest
    else zero :: word :: rest
  | lexemes => lexemes

/-- A number, which may be the first part of a lexeme. -/
def number : Parser Piece := fun input =>
  match joinedZero input with
  | [] => none
  | lexeme :: rest =>
    let chars := lexeme.text.toList
    let length := numberLength chars
    if lexeme.kind != .number || length == 0 then none
    else
      let middle := lexeme.span.start + length
      let first : Lexeme :=
        { lexeme with text := String.ofList (chars.take length)
                      span := ⟨lexeme.span.start, middle⟩ }
      some (leaf "yul_number" first,
        lexemesFrom (some first) middle (chars.drop length) ++ rest)

/-- The words that are literals. -/
def truthWords : List String := ["true", "false"]

def literal : Parser Piece := do
  match (← peek).map Lexeme.kind with
  | some .number => number
  | some .string => leaf "yul_string_literal" <$> take fun _ => true
  | some .hexString => leaf "yul_string_literal" <$> take fun _ => true
  | some .word => leaf "yul_boolean" <$> take fun lexeme => truthWords.contains lexeme.text
  | _ => failure

/-! ## Expressions -/

/-- Whether a call comes next. -/
def startsCall : List Lexeme → Bool
  | called :: opening :: _ => called.kind == .word && isToken "(" opening
  | _ => false

mutual

/-- A call, a path or a literal. -/
def expression : Nat → Parser Piece
  | 0 => failure
  | budget + 1 => do
    if startsCall (← get) then call budget
    else literal <|> path truthWords

def call : Nat → Parser Piece
  | 0 => failure
  | budget + 1 => do
    let called ← name truthWords
    let arguments ← between "(" ")" (maybeAll (commaSeparated (expression budget)))
    return branch "yul_function_call" (called :: arguments)

end

/-! ## Statements -/

/-- The sign of an assignment, in one piece or in two. -/
def assignmentSign : Parser (List Piece) := do
  match ← attempt (token ":=") with
  | some sign => return [sign]
  | none => return [← token ":", ← token "="]

/-- The value that a target gets, if there is one.  A target with a comma behind
it gets the value of a call. -/
def targetValue (budget : Nat) : Parser (List Piece) := do
  let comma ← maybe (token ",")
  if ← nextAmong [":=", ":"] then
    let sign ← assignmentSign
    let value ← if comma.isEmpty then expression budget else call budget
    return comma ++ sign ++ [value]
  else return comma

/-- The declaration of a variable.  What follows a comma behind it is a statement
of its own, so a list of variables is a declaration and then assignments. -/
def declaration (budget : Nat) : Parser Piece := do
  let word ← token "let"
  let target ← anyName
  return branch "yul_variable_declaration" (word :: target :: (← targetValue budget))

/-- A path, which may get a value. -/
def assignment (budget : Nat) : Parser Piece := do
  let target ← path reservedWords
  return branch "yul_assignment" (target :: (← targetValue budget))

/-- Whether a label comes next, and not an assignment. -/
def startsLabel : List Lexeme → Bool
  | label :: colon :: rest =>
    label.kind == .word && isToken ":" colon && !rest.head?.any (isToken "=")
  | _ => false

def label : Parser Piece := do
  return branch "yul_label" [← name reservedWords, ← token ":"]

mutual

def statement : Nat → Parser Piece
  | 0 => failure
  | budget + 1 => do
    let input ← get
    match input.head? with
    | none => failure
    | some lexeme =>
      if isToken "\x7b" lexeme then block budget
      else if lexeme.kind != .word then literal
      else if lexeme.text == "let" then declaration budget
      else if lexeme.text == "if" then ifStatement budget
      else if lexeme.text == "for" then forStatement budget
      else if lexeme.text == "switch" then switchStatement budget
      else if lexeme.text == "function" then functionDefinition budget
      else if lexeme.text == "leave" then return leaf "yul_leave" (← take fun _ => true)
      else if lexeme.text == "break" then return leaf "yul_break" (← take fun _ => true)
      else if lexeme.text == "continue" then return leaf "yul_continue" (← take fun _ => true)
      else if truthWords.contains lexeme.text then literal
      else if startsCall input then call budget
      else if startsLabel input then label
      else assignment budget

def block : Nat → Parser Piece
  | 0 => failure
  | budget + 1 => do
    return branch "yul_block" (← between "\x7b" "\x7d" (many (statement budget)))

def ifStatement : Nat → Parser Piece
  | 0 => failure
  | budget + 1 => do
    return branch "yul_if_statement"
      [← token "if", ← expression budget, ← block budget]

/-- A loop: what comes before it, its condition, what follows each round, and
its body. -/
def forStatement : Nat → Parser Piece
  | 0 => failure
  | budget + 1 => do
    return branch "yul_for_statement"
      [← token "for", ← block budget, ← expression budget, ← block budget, ← block budget]

/-- A choice by a value.  There is at least one case or the default. -/
def switchStatement : Nat → Parser Piece
  | 0 => failure
  | budget + 1 => do
    let word ← token "switch"
    let value ← expression budget
    let cases ← whenever "case" do return [← token "case", ← literal, ← block budget]
    let default' ← behind "default" do return [← token "default", ← block budget]
    let arms := cases.flatten ++ default'
    if arms.isEmpty then failure
    else return branch "yul_switch_statement" (word :: value :: arms)

def functionDefinition : Nat → Parser Piece
  | 0 => failure
  | budget + 1 => do
    let word ← token "function"
    let defined ← anyName
    let inputs ← between "(" ")" (maybeAll (commaSeparated anyName))
    let results ← behind "->" do return (← token "->") :: (← commaSeparated anyName)
    let body ← block budget
    return branch "yul_function_definition" (word :: defined :: inputs ++ results ++ [body])

end

/-! ## Assembly blocks -/

/-- The one dialect that can be named before a block. -/
def dialect : String := "\"evmasm\""

/-- Inline assembly, with its dialect and flags. -/
def assemblyStatement : Parser Piece := do
  let word ← token "assembly"
  let named ← maybe (stringPiece <$> take fun lexeme => lexeme.text == dialect)
  let flags ← behind "(" (between "(" ")" (commaSeparated (stringPiece <$> stringLexeme)))
  let statements ←
    between "\x7b" "\x7d" do many (statement (budgetFor (← get)))
  return branch "assembly_statement" (word :: named ++ flags ++ statements)

end ContractCalls.Solidity.Grammar.Assembly
