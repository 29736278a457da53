import ContractCalls.Solidity.Grammar.Parser

/-!
Contract: the grammar of pragmas.

Owns the two forms of a pragma: constraints on the version of the language, and
a name with any text as its value.
-/

set_option autoImplicit false

namespace ContractCalls.Solidity.Grammar

open ContractCalls.Syntax ContractCalls.Solidity.Grammar.Parser

/-! ## Constraints on a version -/

/-- What remains of a text behind a character, if it starts with it. -/
def afterChar (char : Char) : List Char → List Char
  | first :: rest => if first == char then rest else first :: rest
  | [] => []

/-- A digit, or the star that stands for any. -/
def isVersionDigit (char : Char) : Bool := Text.isAsciiDigit char || char == '*'

/-- What remains behind the digits that a text starts with, if there are any. -/
def afterVersionDigits? (chars : List Char) : Option (List Char) :=
  if chars.head?.any isVersionDigit then some (chars.dropWhile isVersionDigit) else none

/-- What remains behind the minor number and the patch number, as far as a text
starts with them. -/
def afterMinorNumber : List Char → List Char
  | '.' :: rest =>
    match afterVersionDigits? (afterChar ' ' rest) with
    | none => '.' :: rest
    | some after =>
      match afterChar ' ' after with
      | '.' :: patch => (afterVersionDigits? patch).getD ('.' :: patch)
      | final => final
  | chars => chars

/-- What remains behind the version that a text starts with.  A version has one
to three numbers; it may stand between quotes, and single blanks may stand in
it. -/
def afterVersion? (chars : List Char) : Option (List Char) := do
  let after ← afterVersionDigits? (afterChar ' ' (afterChar '.' (afterChar '"' chars)))
  return afterChar '"' (afterMinorNumber after)

/-- The comparisons with a version, longer ones first. -/
def versionComparisons : List String := ["<=", ">=", "<", ">", "^", "~", "="]

/-- What may stand between two constraints. -/
def constraintDividers : List String := ["||", "-"]

/-- What remains of a text behind the first of some texts that it starts
with. -/
def afterOneOf (texts : List String) (chars : List Char) : List Char :=
  match texts.find? fun text => text.toList.isPrefixOf chars with
  | some text => chars.drop text.length
  | none => chars

def dropBlanks (chars : List Char) : List Char := chars.dropWhile (· == ' ')

/-- Whether a text consists of constraints on a version, at most a number of
them. -/
def areVersionConstraints : Nat → List Char → Bool
  | 0, chars => chars.isEmpty
  | limit + 1, chars =>
    chars.isEmpty ||
      match afterVersion? (dropBlanks (afterOneOf versionComparisons chars)) with
      | none => false
      | some after =>
        areVersionConstraints limit
          (dropBlanks (afterOneOf constraintDividers (dropBlanks after)))

/-- The text of lexemes behind an offset, with a blank for every byte between
them. -/
def spacedText (offset : Nat) : List Lexeme → List Char
  | [] => []
  | lexeme :: rest =>
    List.replicate (lexeme.span.start - offset) ' ' ++ lexeme.text.toList ++
      spacedText lexeme.span.stop rest

/-! ## Directives -/

/-- A pragma, up to the next semicolon.  A value other than constraints may be
any text that is not empty, be it a blank. -/
def pragmaDirective : Parser Piece := do
  let word ← token "pragma"
  let name ← take fun lexeme => lexeme.kind == .word
  let value ← many (take fun lexeme => !isToken ";" lexeme && !lexeme.text.any isNull)
  let final ← token ";"
  if name.text == "solidity" then
    let constraints := dropBlanks (spacedText name.span.stop value)
    if areVersionConstraints constraints.length constraints then
      return branch "pragma_directive" [word, branch "solidity_pragma_token" [bare name], final]
    else failure
  else if name.span.stop < final.extent.start then
    return branch "pragma_directive"
      [word, branch "any_pragma_token" (leaf "identifier" name :: value.map bare), final]
  else failure

end ContractCalls.Solidity.Grammar
