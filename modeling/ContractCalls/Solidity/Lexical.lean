import ContractCalls.Text.Blank
import ContractCalls.Text.Decimal

/-!
Contract: classes of short texts.

Owns the texts that name an elementary type, the texts of identifiers and of
number literals, and the path inside an import directive.

Does not own: the lexemes of a whole source.

A text of the last two classes may end in one line feed, which is not part of
the class.
-/

set_option autoImplicit false

namespace ContractCalls.Solidity.Lexical

/-- A text without one line feed at its end. -/
def dropFinalFeed (text : List Char) : List Char :=
  if text.getLast? == some '\n' then text.dropLast else text

def isIdentifierStart (char : Char) : Bool :=
  ('a' ≤ char && char ≤ 'z') || ('A' ≤ char && char ≤ 'Z') || char == '_' || char == '$'

def isIdentifierPart (char : Char) : Bool :=
  isIdentifierStart char || Text.isAsciiDigit char

def isIdentifierWord : List Char → Bool
  | [] => false
  | first :: rest => isIdentifierStart first && rest.all isIdentifierPart

/-- Texts of identifiers. -/
def isIdentifier (text : String) : Bool := isIdentifierWord (dropFinalFeed text.toList)

def isDigitOrUnderscore (char : Char) : Bool := Text.isAsciiDigit char || char == '_'

/-- An exponent, or nothing. -/
def isExponent : List Char → Bool
  | [] => true
  | mark :: rest =>
    (mark == 'e' || mark == 'E') &&
      (let digits := if rest.head? == some '-' then rest.tail else rest
       !digits.isEmpty && digits.all Text.isAsciiDigit)

/-- A fraction, or nothing, and then an exponent, or nothing. -/
def isFraction : List Char → Bool
  | '.' :: rest => isExponent (rest.dropWhile isDigitOrUnderscore)
  | rest => isExponent rest

def isDecimalNumber : List Char → Bool
  | [] => false
  | first :: rest =>
    Text.isAsciiDigit first && isFraction (rest.dropWhile isDigitOrUnderscore)

def isHexNumber : List Char → Bool
  | '0' :: mark :: digits =>
    (mark == 'x' || mark == 'X') && !digits.isEmpty &&
      digits.all fun char => Text.isHexDigit char || char == '_'
  | _ => false

/-- Texts of number literals. -/
def isNumber (text : String) : Bool :=
  let chars := dropFinalFeed text.toList
  isHexNumber chars || isDecimalNumber chars

/-- The words that are elementary types on their own. -/
def elementaryWords : List String :=
  ["address", "address payable", "bool", "string", "byte", "var"]

/-- What remains of a text after a word it starts with. -/
def afterWord? (word : String) (text : List Char) : Option (List Char) :=
  if word.toList.isPrefixOf text then some (text.drop word.length) else none

/-- The two sizes of a fixed-point type, or none. -/
def isFixedSizes (text : List Char) : Bool :=
  text.isEmpty ||
    (let whole := text.takeWhile Text.isDecimal
     match text.dropWhile Text.isDecimal with
     | 'x' :: places => !whole.isEmpty && !places.isEmpty && places.all Text.isDecimal
     | _ => false)

/-- Whether a text is one of the words, followed by a size of the given form. -/
def isSized (sized : List String) (isSize : List Char → Bool) (text : List Char) : Bool :=
  sized.any fun word =>
    match afterWord? word text with
    | some size => isSize size
    | none => false

/-- Names of elementary types, for a text without superfluous blanks.  Sizes are
not checked against those that exist. -/
def isElementaryType (text : String) : Bool :=
  elementaryWords.contains text ||
    isSized ["bytes", "int", "uint"] (·.all Text.isDecimal) text.toList ||
    isSized ["fixed", "ufixed"] isFixedSizes text.toList

def isQuote (char : Char) : Bool := char == '"' || char == '\''

/-- The first non-empty text between two quotes. -/
def firstQuoted? : List Char → Option (List Char)
  | [] => none
  | char :: rest =>
    let inner := rest.takeWhile fun next => !isQuote next
    let closed := (rest.dropWhile fun next => !isQuote next).head?.isSome
    if isQuote char && !inner.isEmpty && closed then some inner else firstQuoted? rest

/-- The path that an import directive names. -/
def importPath? (directive : String) : Option String :=
  (firstQuoted? directive.toList).map String.ofList

end ContractCalls.Solidity.Lexical
