import ContractCalls.Solidity.Grammar.Lexeme

/-!
Contract: parsers from lexemes to pieces of a syntax tree.

Owns the primitive parsers for words, keywords and symbols, repetition, lists
with separators, and the assembly of pieces into nodes.

Does not own: any rule of the grammar.

A failed parser takes nothing, so alternatives are tried at the same place.
-/

set_option autoImplicit false

namespace ContractCalls.Solidity.Grammar

open ContractCalls.Syntax

/-- A node whose extent is the range of bytes it covers. -/
abbrev Piece := Syntax.Tree Span

/-- A parser takes lexemes from the front of a list. -/
abbrev Parser := StateT (List Lexeme) Option

/-- The range from the first to the last of some pieces. -/
def cover (pieces : List Piece) : Span :=
  { start := (pieces.head?.map fun piece => piece.extent.start).getD 0
    stop := (pieces.getLast?.map fun piece => piece.extent.stop).getD 0 }

/-- A node made of pieces. -/
def branch (kind : String) (pieces : List Piece) : Piece :=
  { kind, extent := cover pieces, children := pieces }

/-- A named node without children. -/
def leaf (kind : String) (lexeme : Lexeme) : Piece := { kind, extent := lexeme.span }

/-- A bare token. -/
def bare (lexeme : Lexeme) : Piece :=
  { kind := lexeme.text, extent := lexeme.span, named := false }

/-- A piece in a role. -/
def inRole (role : String) (piece : Piece) : Piece := { piece with field := some role }

namespace Parser

variable {α : Type}

/-- The next lexeme, which stays. -/
def peek : Parser (Option Lexeme) := fun input => some (input.head?, input)

/-- The next lexeme if it is a word, and the empty text otherwise. -/
def nextWord : Parser String := do
  return ((← peek).filter fun lexeme => lexeme.kind == .word).elim "" Lexeme.text

/-- Take the next lexeme if it passes a test. -/
def take (accepts : Lexeme → Bool) : Parser Lexeme
  | lexeme :: rest => if accepts lexeme then some (lexeme, rest) else none
  | [] => none

/-- Apply a parser if it succeeds. -/
def attempt (parser : Parser α) : Parser (Option α) := fun input =>
  match parser input with
  | some (value, rest) => some (some value, rest)
  | none => some (none, input)

/-- Whether the given word or symbol comes next. -/
def nextIs (text : String) : Parser Bool := do
  return (← peek).any (isToken text)

/-- Whether one of several words or symbols comes next. -/
def nextAmong (texts : List String) : Parser Bool := do
  return (← peek).any fun lexeme => texts.any fun text => isToken text lexeme

/-- A keyword or symbol as a bare token. -/
def token (text : String) : Parser Piece := bare <$> take (isToken text)

/-- One of several keywords or symbols as a bare token. -/
def tokenAmong (texts : List String) : Parser Piece :=
  bare <$> take fun lexeme => texts.any fun text => isToken text lexeme

/-- Any word, as an identifier. -/
def identifier : Parser Piece :=
  leaf "identifier" <$> take fun lexeme => lexeme.kind == .word

/-- A word that passes a test, as an identifier. -/
def identifierThat (accepts : String → Bool) : Parser Piece :=
  leaf "identifier" <$> take fun lexeme => lexeme.kind == .word && accepts lexeme.text

/-- Apply a parser as often as it succeeds, at most a number of times. -/
def manyUpTo (parser : Parser α) : Nat → Parser (List α)
  | 0 => pure []
  | limit + 1 => do
    match ← attempt parser with
    | none => return []
    | some value => return value :: (← manyUpTo parser limit)

/-- Apply a parser as often as it succeeds. -/
def many (parser : Parser α) : Parser (List α) := do
  manyUpTo parser (← get).length

/-- Apply a parser once, and then as often as it succeeds. -/
def atLeastOnce (parser : Parser α) : Parser (List α) := do
  return (← parser) :: (← many parser)

/-- Apply a parser wherever the given word comes next, at most a number of
times. -/
def wheneverUpTo (word : String) (parser : Parser α) : Nat → Parser (List α)
  | 0 => pure []
  | limit + 1 => do
    if ← nextIs word then return (← parser) :: (← wheneverUpTo word parser limit)
    else return []

/-- Apply a parser as long as the given word comes next.  The word belongs to
the parser alone, so the parser has to succeed. -/
def whenever (word : String) (parser : Parser α) : Parser (List α) := do
  wheneverUpTo word parser (← get).length

/-- The pieces behind a word that belongs to the parser alone, if the word comes
next. -/
def behind (word : String) (parser : Parser (List Piece)) : Parser (List Piece) := do
  if ← nextIs word then parser else return []

/-- The pieces of an optional parser. -/
def maybe (parser : Parser Piece) : Parser (List Piece) := do
  return (← attempt parser).toList

/-- The pieces of an optional parser of several. -/
def maybeAll (parser : Parser (List Piece)) : Parser (List Piece) := do
  return (← attempt parser).getD []

/-- One or more groups of pieces with commas between them, and perhaps one comma
behind the last, commas included. -/
def commaSeparatedGroups (parser : Parser (List Piece)) : Parser (List Piece) := do
  let first ← parser
  let later ← many do return (← token ",") :: (← parser)
  return first ++ later.flatten ++ (← maybe (token ","))

/-- One or more pieces with commas between them, and perhaps one comma behind
the last, commas included. -/
def commaSeparated (parser : Parser Piece) : Parser (List Piece) :=
  commaSeparatedGroups do return [← parser]

/-- Pieces between an opening and a closing token, tokens included. -/
def between (opening closing : String) (inside : Parser (List Piece)) :
    Parser (List Piece) := do
  let first ← token opening
  let pieces ← inside
  return first :: pieces ++ [← token closing]

end Parser

end ContractCalls.Solidity.Grammar
