import ContractCalls.Solidity.Lexical
import ContractCalls.Syntax.Tree

/-!
Contract: sources as lexemes.

Owns the division of a source into words, numbers, strings, symbols and
comments, with the range of bytes each covers.

Does not own: which words are keywords.  That depends on where they stand, so
the grammar decides it.

The division never fails: a character that starts no lexeme, or an opening
without its end, is a stray, which the grammar accepts almost nowhere.  The null
character belongs to no lexeme, not even to a comment.
-/

set_option autoImplicit false

namespace ContractCalls.Solidity.Grammar

open ContractCalls.Syntax

inductive LexemeKind where
  | word
  | number
  | string
  | hexString
  | symbol
  | comment
  | blank
  | stray
  deriving Repr, DecidableEq, Inhabited

structure Lexeme where
  kind : LexemeKind
  text : String
  span : Span
  deriving Repr, DecidableEq, Inhabited

/-! ## What stands between lexemes -/

/-- What may stand between lexemes besides comments: the blanks of ASCII, the
no-break space, and three characters without width. -/
def isGap (char : Char) : Bool :=
  char == ' ' || (9 ≤ char.toNat && char.toNat ≤ 13) || char.toNat == 0xA0 ||
    char.toNat == 0xFEFF || char.toNat == 0x2060 || char.toNat == 0x200B

def isNull (char : Char) : Bool := char.toNat == 0

def endsLine (char : Char) : Bool := char == '\n' || char == '\r'

/-- The number of characters up to and including the end of a block comment. -/
def blockCommentLength? : List Char → Option Nat
  | '*' :: '/' :: _ => some 2
  | char :: rest => if isNull char then none else (blockCommentLength? rest).map (· + 1)
  | [] => none

/-- The number of characters after the first of a comment, if one starts. -/
def commentTail? : Char → List Char → Option Nat
  | '/', '/' :: line =>
    some (1 + (line.takeWhile fun char => !endsLine char && !isNull char).length)
  | '/', '*' :: inside => (blockCommentLength? inside).map (· + 1)
  | _, _ => none

/-- The number of characters of the gaps and comments that a text starts
with. -/
def gapLength (chars : List Char) : Nat :=
  match chars with
  | [] => 0
  | first :: rest =>
    if isGap first then 1 + gapLength rest
    else
      match commentTail? first rest with
      | some further => 1 + further + gapLength (rest.drop further)
      | none => 0
termination_by chars.length
decreasing_by
  all_goals simp only [List.length_cons, List.length_drop]
  all_goals omega

/-! ## Strings -/

/-- Whether a text starts with the given number of hexadecimal digits. -/
def startsWithHexDigits (count : Nat) (chars : List Char) : Bool :=
  (chars.take count).length == count && (chars.take count).all Text.isHexDigit

/-- Whether a text starts with a code point: four digits, or digits between
braces. -/
def startsWithCodePoint : List Char → Bool
  | '\x7b' :: rest =>
    !(rest.takeWhile Text.isHexDigit).isEmpty &&
      (rest.dropWhile Text.isHexDigit).head? == some '\x7d'
  | chars => startsWithHexDigits 4 chars

/-- The number of characters up to and including a quote that nothing but gaps
and comments stands before. -/
def closingLength? (quote : Char) (chars : List Char) : Option Nat :=
  let gap := gapLength chars
  if (chars.drop gap).head? == some quote then some (gap + 1) else none

/-- The number of characters up to and including the closing quote of a string.
The text of a string ends with its line, unless the line's end is escaped; only
the closing quote may stand on a later line. -/
def stringLength? (quote : Char) : List Char → Option Nat
  | [] => none
  | '\\' :: '\r' :: '\n' :: rest => (stringLength? quote rest).map (· + 3)
  | '\\' :: 'x' :: rest =>
    if startsWithHexDigits 2 rest then (stringLength? quote rest).map (· + 2) else none
  | '\\' :: 'u' :: rest =>
    if startsWithCodePoint rest then (stringLength? quote rest).map (· + 2) else none
  | '\\' :: char :: rest =>
    if isNull char then none else (stringLength? quote rest).map (· + 2)
  | char :: rest =>
    if char == quote then some 1
    else if isNull char then none
    else if endsLine char then closingLength? quote (char :: rest)
    else (stringLength? quote rest).map (· + 1)

/-- The number of characters up to and including the closing quote of a string
of hexadecimal digits, after the first pair of digits.  Digits come in pairs,
with one underscore between two pairs, or gaps and comments. -/
def hexPairsLength? (quote : Char) (chars : List Char) : Option Nat :=
  match chars with
  | [] => none
  | first :: rest =>
    match closingLength? quote (first :: rest) with
    | some length => some length
    | none =>
      let gap := gapLength (first :: rest)
      let after := (first :: rest).drop gap
      let parted := if after.head? == some '_' then 1 + gapLength after.tail else 0
      if startsWithHexDigits 2 (after.drop parted) then
        (hexPairsLength? quote (rest.drop (gap + parted + 1))).map (· + (gap + parted + 2))
      else none
termination_by chars.length
decreasing_by
  simp only [List.length_cons, List.length_drop]
  omega

/-- The number of characters up to and including the closing quote of a string
of hexadecimal digits. -/
def hexStringLength? (quote : Char) (chars : List Char) : Option Nat :=
  match closingLength? quote chars with
  | some length => some length
  | none =>
    let gap := gapLength chars
    if startsWithHexDigits 2 (chars.drop gap) then
      (hexPairsLength? quote (chars.drop (gap + 2))).map (· + (gap + 2))
    else none

/-! ## Numbers -/

/-- The number of characters of a run of digits and underscores. -/
def digitRun (chars : List Char) : Nat := (chars.takeWhile Lexical.isDigitOrUnderscore).length

/-- The number of characters of an exponent, if one follows. -/
def exponentLength : List Char → Nat
  | mark :: rest =>
    let sign := if rest.head? == some '-' then 1 else 0
    let digits := digitRun (rest.drop sign)
    if (mark == 'e' || mark == 'E') && digits != 0 then 1 + sign + digits else 0
  | [] => 0

/-- The number of characters of a fraction, if one follows. -/
def fractionLength : List Char → Nat
  | '.' :: rest => if digitRun rest == 0 then 0 else 1 + digitRun rest
  | _ => 0

/-- The number of characters of the decimal number that a text starts with. -/
def decimalLength (chars : List Char) : Nat :=
  let whole := digitRun chars
  let mantissa := whole + fractionLength (chars.drop whole)
  if mantissa == 0 then 0 else mantissa + exponentLength (chars.drop mantissa)

/-- The number of characters of a run of hexadecimal digits, with single
underscores behind digits. -/
def hexRun (behindDigit : Bool) : List Char → Nat
  | char :: rest =>
    if Text.isHexDigit char then 1 + hexRun true rest
    else if char == '_' && behindDigit then 1 + hexRun false rest
    else 0
  | [] => 0

/-- The number of characters of the number that a text starts with. -/
def numberLength : List Char → Nat
  | '0' :: mark :: digits =>
    if (mark == 'x' || mark == 'X') && hexRun false digits != 0 then 2 + hexRun false digits
    else decimalLength ('0' :: mark :: digits)
  | chars => decimalLength chars

/-! ## Symbols -/

/-- The symbols of more than one character, longer ones first. -/
def longSymbols : List String :=
  [">>=", "<<=", "**", "++", "--", "&&", "||", "==", "!=", "<=", ">=", "=>", "+=", "-=", "*=",
   "/=", "%=", "^=", "&=", "|=", ">>", "<<", ":=", "->"]

def singleSymbols : List Char :=
  "()[]\x7b\x7d;,.:?=<>!~+-*/%^&|".toList

/-- The symbol that a text starts with. -/
def symbolLength? (chars : List Char) : Option Nat :=
  match longSymbols.find? fun symbol => symbol.toList.isPrefixOf chars with
  | some symbol => some symbol.length
  | none =>
    match chars with
    | char :: _ => if singleSymbols.contains char then some 1 else none
    | [] => none

/-! ## Lexemes -/

/-- Whether a lexeme is the given word or symbol. -/
def isToken (text : String) (lexeme : Lexeme) : Bool :=
  (lexeme.kind == .word || lexeme.kind == .symbol) && lexeme.text == text

/-- The symbols behind which a point goes on with what they close. -/
def closingSymbols : List String := [")", "]", "\x7d"]

/-- Whether an operand starts behind a lexeme, rather than a part of one goes
on. -/
def opensOperand (lexeme : Lexeme) : Bool :=
  lexeme.kind == .symbol && !closingSymbols.contains lexeme.text

/-- The kind of the lexeme that starts with a character, and the number of
characters it has after that one.  The lexeme before it tells strings of
hexadecimal digits from others, and numbers from names. -/
def lexemeAt (previous : Option Lexeme) (first : Char) (rest : List Char) :
    LexemeKind × Nat :=
  if isGap first then (.blank, 0)
  else if Lexical.isIdentifierStart first then
    let word := (rest.takeWhile Lexical.isIdentifierPart).length
    let number := decimalLength (first :: rest) - 1
    if word < number && !previous.any (isToken ".") then (.number, number) else (.word, word)
  else if Text.isAsciiDigit first then (.number, numberLength (first :: rest) - 1)
  else if Lexical.isQuote first then
    if previous.any (isToken "hex") then
      match hexStringLength? first rest with
      | some length => (.hexString, length)
      | none => (.stray, 0)
    else
      match stringLength? first rest with
      | some length => (.string, length)
      | none => (.stray, 0)
  else
    match commentTail? first rest with
    | some further => (.comment, further)
    | none =>
      let fraction := fractionLength (first :: rest)
      if fraction != 0 && (rest.head?.any Text.isAsciiDigit || previous.any opensOperand) then
        (.number, decimalLength (first :: rest) - 1)
      else
        match symbolLength? (first :: rest) with
        | some length =>
          if first == '/' && rest.head? == some '*' then (.stray, 0) else (.symbol, length - 1)
        | none => (.stray, 0)

/-- The number of bytes of characters in UTF-8. -/
def byteLength (chars : List Char) : Nat :=
  chars.foldl (fun total char => total + char.utf8Size) 0

/-- The lexemes of a text that starts at an offset behind a lexeme, comments
included. -/
def lexemesFrom (previous : Option Lexeme) (offset : Nat) (chars : List Char) :
    List Lexeme :=
  match chars with
  | [] => []
  | first :: rest =>
    let (kind, further) := lexemeAt previous first rest
    let taken := first :: rest.take further
    let stop := offset + byteLength taken
    let lexeme : Lexeme := { kind, text := String.ofList taken, span := ⟨offset, stop⟩ }
    let last := if kind = .blank ∨ kind = .comment then previous else some lexeme
    let later := lexemesFrom last stop (rest.drop further)
    if kind = .blank then later else lexeme :: later
termination_by chars.length
decreasing_by
  simp only [List.length_cons, List.length_drop]
  omega

/-- The lexemes of a source, comments included. -/
def lexemes (source : String) : List Lexeme := lexemesFrom none 0 source.toList

end ContractCalls.Solidity.Grammar
