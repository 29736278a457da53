/-!
Contract: blank characters and the texts that remain when runs of blanks are
read as separators.

Owns:
- the class of blank characters: the control characters and spaces that
  Unicode calls white space, the four information separators included;
- the words of a text, and its two blank-normal forms.

Does not own: the narrower blanks of one language's lexer.
-/

set_option autoImplicit false

namespace ContractCalls.Text

/-- Blank characters.  The zero-width space and the byte-order mark are not
among them. -/
def isBlank (char : Char) : Bool :=
  let code := char.toNat
  (0x9 ≤ code && code ≤ 0xD) || (0x1C ≤ code && code ≤ 0x20) ||
    code == 0x85 || code == 0xA0 || code == 0x1680 ||
    (0x2000 ≤ code && code ≤ 0x200A) || code == 0x2028 || code == 0x2029 ||
    code == 0x202F || code == 0x205F || code == 0x3000

/-- Put a run of characters before later words; an empty run is no word. -/
def consWord (run : List Char) (later : List (List Char)) : List (List Char) :=
  if run.isEmpty then later else run :: later

/-- The blank-free run a text starts with, and the words after that run. -/
def splitRun : List Char → List Char × List (List Char)
  | [] => ([], [])
  | char :: rest =>
    let (run, later) := splitRun rest
    if isBlank char then ([], consWord run later) else (char :: run, later)

/-- The maximal blank-free runs of a text, from left to right. -/
def words (text : List Char) : List (List Char) :=
  let (run, later) := splitRun text
  consWord run later

/-- A text on one line: its words, one space apart. -/
def squeeze (text : String) : String :=
  " ".intercalate ((words text.toList).map String.ofList)

/-- A text without its blanks. -/
def compact (text : String) : String :=
  String.ofList (text.toList.filter fun char => !isBlank char)

/-- A text without the blanks around it. -/
def trim (text : List Char) : List Char :=
  ((text.dropWhile isBlank).reverse.dropWhile isBlank).reverse

/-- A text without the blanks at its end. -/
def trimRight (text : List Char) : List Char :=
  (text.reverse.dropWhile isBlank).reverse

end ContractCalls.Text
