import ContractCalls.Text.Decimal

/-!
Contract: the tokens of a YAML text, and the state of the scan that finds them.

Owns:
- tokens, among them those that only indentation shows;
- the place of the scan in the text;
- the stack of indentations, and the tokens that may turn out to be keys.

Texts have line feeds as their ordinary line ends; the next-line character and
the two separators of Unicode end lines too.

Does not own: the scan of single tokens.
-/

set_option autoImplicit false

namespace ContractCalls.Yaml

/-- Why a text has no value. -/
inductive Failure where
  /-- The text breaks a rule of its language. -/
  | malformed
  /-- A numeral, date or character number that stands for nothing. -/
  | badNumeral
  /-- A numeral without any character. -/
  | emptyNumeral
  /-- A text that is tagged as a truth value and is none. -/
  | badFlag
  /-- A text that is tagged as a point in time and is none. -/
  | badMoment
  deriving Repr, DecidableEq

inductive Directive where
  | version (major : Nat)
  | handle (name expansion : String)
  | unknown
  deriving Repr, DecidableEq

inductive Token where
  | directive (directive : Directive)
  | documentStart
  | documentEnd
  | blockSequenceStart
  | blockMappingStart
  | blockEnd
  | flowSequenceStart
  | flowSequenceEnd
  | flowMappingStart
  | flowMappingEnd
  | flowEntry
  | blockEntry
  | key
  | value
  | alias (name : String)
  | anchor (name : String)
  | tag (handle : Option String) (suffix : String)
  | scalar (text : String) (plain : Bool)
  deriving Repr, DecidableEq

def isBreak (char : Char) : Bool :=
  char == '\n' || char == '\x85' || char == '\u2028' || char == '\u2029'

def isSpaceOrTab (char : Char) : Bool := char == ' ' || char == '\t'

/-- The next character ends a line, or there is none. -/
def endsLine : Option Char → Bool
  | none => true
  | some char => isBreak char

/-- The next character is a space or ends a line. -/
def endsWord : Option Char → Bool
  | none => true
  | some char => char == ' ' || isBreak char

/-- The next character is a space or a tab or ends a line. -/
def endsIndicator : Option Char → Bool
  | none => true
  | some char => isSpaceOrTab char || isBreak char

/-- Whether a line starts with a mark between documents. -/
def atDocumentMark : List Char → Bool
  | '-' :: '-' :: '-' :: rest => endsIndicator rest.head?
  | '.' :: '.' :: '.' :: rest => endsIndicator rest.head?
  | _ => false

/-- The characters that a YAML text may hold. -/
def isAllowed (char : Char) : Bool :=
  let code := char.toNat
  char == '\t' || char == '\n' || char == '\r' || (0x20 ≤ code && code ≤ 0x7E) || code == 0x85 ||
    (0xA0 ≤ code && code ≤ 0xFFFD) || 0x10000 ≤ code

/-- A place in a text, with the text from there on. -/
structure Cursor where
  rest : List Char
  index : Nat := 0
  line : Nat := 0
  column : Nat := 0
  deriving Repr

namespace Cursor

/-- One character further.  A byte-order mark takes no column. -/
def next (cursor : Cursor) : Cursor :=
  match cursor.rest with
  | [] => cursor
  | char :: rest =>
    if isBreak char then
      { rest, index := cursor.index + 1, line := cursor.line + 1, column := 0 }
    else if char == '\ufeff' then { cursor with rest, index := cursor.index + 1 }
    else { cursor with rest, index := cursor.index + 1, column := cursor.column + 1 }

/-- Several characters further. -/
def forward : Nat → Cursor → Cursor
  | 0, cursor => cursor
  | count + 1, cursor => forward count cursor.next

end Cursor

/-- A token that is a key if a colon follows in time. -/
structure PossibleKey where
  /-- The number of tokens before it. -/
  place : Nat
  /-- Whether it has to be a key, because it stands where one is due. -/
  required : Bool
  index : Nat
  line : Nat
  column : Nat
  deriving Repr

/-- The state of a scan. -/
structure Scan where
  cursor : Cursor
  tokens : Array Token := #[]
  /-- The column of the innermost block collection, and those around it. -/
  indent : Int := -1
  outerIndents : List Int := []
  /-- The number of open flow collections. -/
  depth : Nat := 0
  /-- Whether the next token may be a key. -/
  keyAllowed : Bool := true
  /-- At most one possible key for each depth. -/
  possibleKeys : List (Nat × PossibleKey) := []
  deriving Repr

abbrev Scanner := StateT Scan (Except Failure)

namespace Scanner

def malformed {α : Type} : Scanner α := throw .malformed

/-- A character from here on. -/
def peek (ahead : Nat) : Scanner (Option Char) := do
  return (← get).cursor.rest[ahead]?

def rest : Scanner (List Char) := do
  return (← get).cursor.rest

def forward (count : Nat) : Scanner Unit :=
  modify fun scan => { scan with cursor := scan.cursor.forward count }

/-- Take characters as long as they pass a test. -/
def takeWhile (accepts : Char → Bool) : Scanner (List Char) := do
  let taken := (← rest).takeWhile accepts
  forward taken.length
  return taken

def skipWhile (accepts : Char → Bool) : Scanner Unit := do
  let _ ← takeWhile accepts

def skipSpaces : Scanner Unit := skipWhile (· == ' ')

/-- Take a line end, if there is one; all but the separators become line feeds. -/
def lineBreak : Scanner (List Char) := do
  match ← peek 0 with
  | some char =>
    if isBreak char then
      forward 1
      return if char == '\u2028' || char == '\u2029' then [char] else ['\n']
    else return []
  | none => return []

/-- Skip a comment, if there is one. -/
def skipComment : Scanner Unit := do
  if (← peek 0) == some '#' then skipWhile fun char => !isBreak char

/-- Skip the rest of a line that holds at most a comment. -/
def skipIgnoredLine : Scanner Unit := do
  skipSpaces
  skipComment
  if !endsLine (← peek 0) then malformed
  let _ ← lineBreak

def add (token : Token) : Scanner Unit :=
  modify fun scan => { scan with tokens := scan.tokens.push token }

def allowKey (allowed : Bool) : Scanner Unit :=
  modify fun scan => { scan with keyAllowed := allowed }

/-- Close the block collections that are indented beyond a column. -/
def closeBlocks (column : Int) : Scanner Unit :=
  modify fun scan =>
    if scan.depth ≠ 0 then scan
    else
      let levels := scan.indent :: scan.outerIndents
      let closed := (levels.takeWhile fun level => level > column).length
      let open' := levels.drop closed
      { scan with
        tokens := scan.tokens ++ Array.replicate closed Token.blockEnd
        indent := open'.head?.getD (-1)
        outerIndents := open'.tail }

/-- Open a block collection at a column, unless one is already open there. -/
def openBlock (column : Nat) : Scanner Bool := do
  let scan ← get
  if scan.indent < column then
    set { scan with indent := (column : Int), outerIndents := scan.indent :: scan.outerIndents }
    return true
  else return false

/-- The possible key at the current depth. -/
def possibleKey? : Scanner (Option PossibleKey) := do
  let scan ← get
  return scan.possibleKeys.lookup scan.depth

/-- Forget the possible key at the current depth. -/
def forgetKey : Scanner Unit :=
  modify fun scan =>
    { scan with possibleKeys := scan.possibleKeys.filter fun entry => entry.1 != scan.depth }

/-- Give up the possible key at the current depth. -/
def dropKey : Scanner Unit := do
  match ← possibleKey? with
  | some key => if key.required then malformed else forgetKey
  | none => return

/-- The longest distance between a key and its colon. -/
def keyReach : Nat := 1024

/-- Give up the possible keys that are on an earlier line or too far back. -/
def dropStaleKeys : Scanner Unit := do
  let scan ← get
  let isStale (entry : Nat × PossibleKey) : Bool :=
    entry.2.line != scan.cursor.line || scan.cursor.index - entry.2.index > keyReach
  if scan.possibleKeys.any fun entry => isStale entry && entry.2.required then malformed
  set { scan with possibleKeys := scan.possibleKeys.filter fun entry => !isStale entry }

/-- Remember that the next token may be a key. -/
def saveKey : Scanner Unit := do
  let scan ← get
  if scan.keyAllowed then
    dropKey
    let key : PossibleKey :=
      { place := scan.tokens.size
        required := scan.depth == 0 && scan.indent == (scan.cursor.column : Int)
        index := scan.cursor.index, line := scan.cursor.line, column := scan.cursor.column }
    modify fun scan => { scan with possibleKeys := (scan.depth, key) :: scan.possibleKeys }

/-- Put a token before one that was found earlier. -/
def insertAt (place : Nat) (token : Token) : Scanner Unit :=
  modify fun scan => { scan with tokens := scan.tokens.insertIdxIfInBounds place token }

end Scanner

end ContractCalls.Yaml
