import ContractCalls.Text.Decimal

/-!
Contract: identifiers of the DOT language.

Owns:
- which texts are identifiers without quotes: markup between angle brackets,
  words that are not reserved, and numerals;
- the quoting of all others, in which a quote that is not escaped yet gets a
  backslash;
- the ends of edges, where a colon divides a node from a cell of it.

One line break at the end of a text does not count when its form is decided.
-/

set_option autoImplicit false

namespace ContractCalls.Dot

open ContractCalls.Text

/-- A text without one line break at its end. -/
def dropFinalBreak (text : List Char) : List Char :=
  if text.getLast? = some '\n' then text.dropLast else text

/-- Markup: a text from an angle bracket to its partner. -/
def isMarkup (text : List Char) : Bool :=
  match dropFinalBreak text with
  | '<' :: rest => rest.getLast? == some '>'
  | _ => false

def isWordStart (char : Char) : Bool :=
  ('a' ≤ char && char ≤ 'z') || ('A' ≤ char && char ≤ 'Z') || char == '_'

def isWordChar (char : Char) : Bool := isWordStart char || isAsciiDigit char

/-- A word of letters, digits and underscores that starts with no digit. -/
def isWord : List Char → Bool
  | [] => false
  | first :: rest => isWordStart first && rest.all isWordChar

/-- A numeral without sign: digits with an optional fraction, or a fraction with
at least one digit. -/
def isUnsignedNumeral (text : List Char) : Bool :=
  let whole := text.takeWhile isAsciiDigit
  match text.dropWhile isAsciiDigit with
  | [] => !whole.isEmpty
  | '.' :: fraction => fraction.all isAsciiDigit && !(whole.isEmpty && fraction.isEmpty)
  | _ => false

def isNumeral : List Char → Bool
  | '-' :: rest => isUnsignedNumeral rest
  | text => isUnsignedNumeral text

/-- The reserved words, in any case. -/
def isReserved (text : List Char) : Bool :=
  ["node", "edge", "graph", "digraph", "subgraph", "strict"].contains
    (String.ofList (text.map Char.toLower))

/-- A text that can stand without quotes. -/
def isPlain (text : List Char) : Bool :=
  isMarkup text ||
    ((isWord (dropFinalBreak text) || isNumeral (dropFinalBreak text)) && !isReserved text)

/-- Escape the quotes of a text.  `escaped` says whether an odd number of
backslashes stands before it. -/
def escapeQuotes (escaped : Bool) : List Char → List Char
  | [] => []
  | '"' :: rest =>
    if escaped then '"' :: escapeQuotes false rest else '\\' :: '"' :: escapeQuotes false rest
  | '\\' :: rest => '\\' :: escapeQuotes (!escaped) rest
  | char :: rest => char :: escapeQuotes false rest

/-- A text as an identifier. -/
def identifier (text : String) : String :=
  if isPlain text.toList then text
  else "\"" ++ String.ofList (escapeQuotes false text.toList) ++ "\""

/-- A text before and after its first colon; the second part is empty without
one. -/
def splitAtColon (text : String) : String × String :=
  (String.ofList (text.toList.takeWhile (· != ':')),
    String.ofList ((text.toList.dropWhile (· != ':')).drop 1))

/-- A text as an end of an edge: a node, perhaps with a cell of it and a side of that. -/
def edgeEnd (text : String) : String :=
  let (node, rest) := splitAtColon text
  if rest.isEmpty then identifier node
  else
    let (cell, side) := splitAtColon rest
    if side.isEmpty then identifier node ++ ":" ++ identifier cell
    else identifier node ++ ":" ++ identifier cell ++ ":" ++ side

end ContractCalls.Dot
