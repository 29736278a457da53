import ContractCalls.Yaml.Token

/-!
Contract: the scan of single YAML tokens that have a text.

Owns:
- block scalars, with their indentation, folding and chomping;
- quoted scalars, with their escapes and folded line ends;
- plain scalars;
- anchors, tags and directives.

Does not own: where a token may stand.
-/

set_option autoImplicit false

namespace ContractCalls.Yaml.Scanner

open ContractCalls.Text

/-! ## Block scalars -/

/-- What happens to the line ends at the end of a block scalar. -/
inductive Chomping where
  | strip
  | clip
  | keep
  deriving Repr, DecidableEq

def chomping? : Option Char → Option Chomping
  | some '+' => some .keep
  | some '-' => some .strip
  | _ => none

/-- An explicit indentation; nought is none. -/
def indentation? : Scanner (Option Nat) := do
  match ← peek 0 with
  | some char =>
    if isAsciiDigit char then
      if char == '0' then malformed
      forward 1
      return some (hexValue char)
    else return none
  | none => return none

/-- The chomping and the indentation of a header, in either order. -/
def blockHeader : Scanner (Chomping × Option Nat) := do
  let first := chomping? (← peek 0)
  if first.isSome then forward 1
  let indentation ← indentation?
  let next ← peek 0
  let second := if first.isSome || indentation.isNone then none else chomping? next
  if second.isSome then forward 1
  if !endsWord (← peek 0) then malformed
  return ((first <|> second).getD .clip, indentation)

/-- The line ends before the first line that is not empty, and the largest column
on the way. -/
def leadingBreaks (breaks : List Char) (widest : Nat) : Nat → Scanner (List Char × Nat)
  | 0 => return (breaks, widest)
  | fuel + 1 => do
    match ← peek 0 with
    | some ' ' =>
      forward 1
      leadingBreaks breaks (max widest (← get).cursor.column) fuel
    | some char =>
      if isBreak char then leadingBreaks (breaks ++ (← lineBreak)) widest fuel
      else return (breaks, widest)
    | none => return (breaks, widest)

/-- Skip spaces up to a column. -/
def skipToColumn (column : Nat) : Scanner Unit := do
  let spaces := (← rest).takeWhile (· == ' ')
  forward (min spaces.length (column - (← get).cursor.column))

/-- The line ends of the empty lines before the next line of a block scalar. -/
def emptyLines (column : Nat) (breaks : List Char) : Nat → Scanner (List Char)
  | 0 => return breaks
  | fuel + 1 => do
    skipToColumn column
    let taken ← lineBreak
    if taken.isEmpty then return breaks else emptyLines column (breaks ++ taken) fuel

/-- Whether a line of a block scalar starts here. -/
def atBlockLine (column : Nat) : Scanner Bool := do
  return (← get).cursor.column == column && (← peek 0).isSome

/-- The lines of a block scalar.  The result is the text so far, the last line
end, and the line ends of the empty lines after it. -/
def blockLines (folded : Bool) (column : Nat) (text breaks : List Char) :
    Nat → Scanner (List Char × List Char × List Char)
  | 0 => return (text, [], breaks)
  | fuel + 1 => do
    if !(← atBlockLine column) then return (text, [], breaks)
    let startsBlank := (← peek 0).any isSpaceOrTab
    let line ← takeWhile fun char => !isBreak char
    let lineEnd ← lineBreak
    let later ← emptyLines column [] fuel
    let text := text ++ breaks ++ line
    if ← atBlockLine column then
      let nextBlank := (← peek 0).any isSpaceOrTab
      let joined :=
        if folded && lineEnd == ['\n'] && !startsBlank && !nextBlank then
          if later.isEmpty then [' '] else []
        else lineEnd
      blockLines folded column (text ++ joined) later fuel
    else return (text, lineEnd, later)

/-- A block scalar. -/
def blockScalar (folded : Bool) : Scanner Token := do
  forward 1
  let (chomping, indentation) ← blockHeader
  skipIgnoredLine
  let fuel := (← rest).length + 1
  let least := ((← get).indent + 1).toNat |> max 1
  let (column, breaks) ← match indentation with
    | none => do
      let (breaks, widest) ← leadingBreaks [] 0 fuel
      pure (max least widest, breaks)
    | some given => do
      let column := least + given - 1
      pure (column, ← emptyLines column [] fuel)
  let (text, lineEnd, later) ← blockLines folded column [] breaks fuel
  let tail := match chomping with
    | .strip => []
    | .clip => lineEnd
    | .keep => lineEnd ++ later
  return .scalar (String.ofList (text ++ tail)) false

/-! ## Quoted scalars -/

/-- The characters that simple escapes stand for. -/
def escapes : List (Char × Char) :=
  [('0', '\x00'), ('a', '\x07'), ('b', '\x08'), ('t', '\t'), ('\t', '\t'), ('n', '\n'),
    ('v', '\x0b'), ('f', '\x0c'), ('r', '\r'), ('e', '\x1b'), (' ', ' '), ('"', '"'),
    ('\\', '\\'), ('/', '/'), ('N', '\x85'), ('_', '\xa0'), ('L', '\u2028'), ('P', '\u2029')]

/-- The number of digits after an escape for a character number. -/
def escapeLength? : Char → Option Nat
  | 'x' => some 2
  | 'u' => some 4
  | 'U' => some 8
  | _ => none

/-- The character of a number.  A number of half a character stands for the
replacement character. -/
def charOfNumber (number : Nat) : Scanner Char := do
  if number > 0x10FFFF then throw .badNumeral
  else if 0xD800 ≤ number && number ≤ 0xDFFF then return '\ufffd'
  else return Char.ofNat number

/-- The line ends of the empty lines inside a quoted scalar. -/
def quotedBreaks (breaks : List Char) : Nat → Scanner (List Char)
  | 0 => return breaks
  | fuel + 1 => do
    if atDocumentMark (← rest) then malformed
    skipWhile isSpaceOrTab
    let taken ← lineBreak
    if taken.isEmpty then return breaks else quotedBreaks (breaks ++ taken) fuel

/-- An escape, after its backslash. -/
def quotedEscape (fuel : Nat) : Scanner (List Char) := do
  match ← peek 0 with
  | none => malformed
  | some char =>
    match escapes.lookup char, escapeLength? char with
    | some meaning, _ =>
      forward 1
      return [meaning]
    | none, some length =>
      forward 1
      let digits := (← rest).take length
      if digits.length < length || !digits.all isHexDigit then malformed
      forward length
      return [← charOfNumber (digitsValue 16 digits)]
    | none, none =>
      if isBreak char then
        let _ ← lineBreak
        quotedBreaks [] fuel
      else malformed

/-- The characters of a quoted scalar up to the next blank or its end. -/
def quotedRun (double : Bool) (text : List Char) : Nat → Scanner (List Char)
  | 0 => return text
  | fuel + 1 => do
    let run ← takeWhile fun char =>
      char != '\'' && char != '"' && char != '\\' && !isSpaceOrTab char && !isBreak char
    let text := text ++ run
    match double, ← peek 0, ← peek 1 with
    | false, some '\'', some '\'' =>
      forward 2
      quotedRun double (text ++ ['\'']) fuel
    | true, some '\'', _ =>
      forward 1
      quotedRun double (text ++ ['\'']) fuel
    | false, some '"', _ =>
      forward 1
      quotedRun double (text ++ ['"']) fuel
    | false, some '\\', _ =>
      forward 1
      quotedRun double (text ++ ['\\']) fuel
    | true, some '\\', _ =>
      forward 1
      quotedRun double (text ++ (← quotedEscape fuel)) fuel
    | _, _, _ => return text

/-- The text that folding makes of a line end and the empty lines after it. -/
def foldBreaks (lineEnd breaks : List Char) : List Char :=
  if lineEnd != ['\n'] then lineEnd ++ breaks
  else if breaks.isEmpty then [' ']
  else breaks

/-- Blanks and line ends inside a quoted scalar. -/
def quotedBlanks (fuel : Nat) : Scanner (List Char) := do
  let blanks ← takeWhile isSpaceOrTab
  match ← peek 0 with
  | none => malformed
  | some char =>
    if isBreak char then
      let lineEnd ← lineBreak
      return foldBreaks lineEnd (← quotedBreaks [] fuel)
    else return blanks

/-- The rest of a quoted scalar, up to its closing quote. -/
def quotedRest (quote : Char) (text : List Char) : Nat → Scanner (List Char)
  | 0 => malformed
  | fuel + 1 => do
    if (← peek 0) == some quote then
      forward 1
      return text
    let blanks ← quotedBlanks fuel
    quotedRest quote (← quotedRun (quote == '"') (text ++ blanks) fuel) fuel

/-- A quoted scalar. -/
def quotedScalar (quote : Char) : Scanner Token := do
  let fuel := (← rest).length + 1
  forward 1
  let first ← quotedRun (quote == '"') [] fuel
  return .scalar (String.ofList (← quotedRest quote first fuel)) false

/-! ## Plain scalars -/

/-- The characters that end a plain scalar inside a flow collection. -/
def isFlowIndicator (char : Char) : Bool :=
  [',', '?', '[', ']', '\x7b', '\x7d'].contains char

/-- The characters that make a colon inside a flow collection an indicator. -/
def isFlowEnd (char : Char) : Bool := [',', '[', ']', '\x7b', '\x7d'].contains char

/-- The characters of a plain scalar up to the next blank or its end. -/
def plainRun (inFlow : Bool) : List Char → List Char
  | [] => []
  | char :: rest =>
    if isSpaceOrTab char || isBreak char then []
    else if char == ':' &&
      (endsIndicator rest.head? || (inFlow && rest.head?.any isFlowEnd)) then []
    else if inFlow && isFlowIndicator char then []
    else char :: plainRun inFlow rest

/-- The line ends and spaces before the next line of a plain scalar; none at a
mark between documents. -/
def plainBreaks (breaks : List Char) : Nat → Scanner (Option (List Char))
  | 0 => return some breaks
  | fuel + 1 => do
    skipSpaces
    let taken ← lineBreak
    if taken.isEmpty then return some breaks
    else if atDocumentMark (← rest) then return none
    else plainBreaks (breaks ++ taken) fuel

/-- Blanks and line ends inside a plain scalar; nothing where it ends. -/
def plainBlanks (fuel : Nat) : Scanner (List Char) := do
  let blanks ← takeWhile (· == ' ')
  let lineEnd ← lineBreak
  if lineEnd.isEmpty then return blanks
  allowKey true
  if atDocumentMark (← rest) then return []
  match ← plainBreaks [] fuel with
  | none => return []
  | some breaks => return foldBreaks lineEnd breaks

/-- The rest of a plain scalar.  `blanks` stand before it and count only if the
scalar goes on. -/
def plainRest (column : Int) (text blanks : List Char) : Nat → Scanner (List Char)
  | 0 => return text
  | fuel + 1 => do
    if (← peek 0) == some '#' then return text
    let inFlow := (← get).depth != 0
    let run := plainRun inFlow (← rest)
    if run.isEmpty then return text
    allowKey false
    forward run.length
    let text := text ++ blanks ++ run
    let later ← plainBlanks fuel
    if later.isEmpty || (← peek 0) == some '#' ||
        (!inFlow && ((← get).cursor.column : Int) < column) then return text
    else plainRest column text later fuel

/-- A plain scalar. -/
def plainScalar : Scanner Token := do
  let fuel := (← rest).length + 1
  return .scalar (String.ofList (← plainRest ((← get).indent + 1) [] [] fuel)) true

/-! ## Anchors, tags and directives -/

def isNameChar (char : Char) : Bool :=
  isAsciiDigit char || ('a' ≤ char && char ≤ 'z') || ('A' ≤ char && char ≤ 'Z') ||
    char == '-' || char == '_'

/-- The name of an anchor or alias, after its indicator. -/
def anchorName : Scanner String := do
  forward 1
  let name ← takeWhile isNameChar
  if name.isEmpty then malformed
  let next ← peek 0
  if endsIndicator next || next.any (['?', ':', ',', ']', '\x7d', '%', '@', '\x60'].contains ·) then
    return String.ofList name
  else malformed

def isUriChar (char : Char) : Bool :=
  isNameChar char ||
    [';', '/', '?', ':', '@', '&', '=', '+', '$', ',', '.', '!', '~', '*', '\'', '(', ')', '[',
      ']', '%'].contains char

/-- The bytes of a run of escapes at the start of a text, with the text after it. -/
def uriBytes? : List Char → Option (List UInt8 × List Char)
  | '%' :: high :: low :: rest =>
    if isHexDigit high && isHexDigit low then
      (uriBytes? rest).map fun (bytes, after) =>
        ((digitsValue 16 [high, low]).toUInt8 :: bytes, after)
    else none
  | '%' :: _ => none
  | text => some ([], text)

/-- A tag text with its escapes replaced by the characters whose bytes they
give. -/
def unescapeUri? (fuel : Nat) (text : List Char) : Option (List Char) :=
  match fuel, text with
  | _, [] => some []
  | 0, _ => none
  | fuel + 1, '%' :: rest =>
    match uriBytes? ('%' :: rest) with
    | none => none
    | some (bytes, after) =>
      match String.fromUTF8? ⟨bytes.toArray⟩ with
      | none => none
      | some decoded => (unescapeUri? fuel after).map (decoded.toList ++ ·)
  | fuel + 1, char :: rest => (unescapeUri? fuel rest).map (char :: ·)

/-- The text of a tag. -/
def tagUri : Scanner String := do
  let text ← takeWhile isUriChar
  if text.isEmpty then malformed
  match unescapeUri? text.length text with
  | some plain => return String.ofList plain
  | none => malformed

/-- A handle of tags, from its first to its last exclamation mark. -/
def tagHandle : Scanner String := do
  if (← peek 0) != some '!' then malformed
  if (← peek 1) == some ' ' then
    forward 1
    return "!"
  let name := ((← rest).drop 1).takeWhile isNameChar
  forward (name.length + 1)
  if (← peek 0) != some '!' then malformed
  forward 1
  return String.ofList ('!' :: name ++ ['!'])

/-- A tag. -/
def tagToken : Scanner Token := do
  let next ← peek 1
  let token ←
    if next == some '<' then do
      forward 2
      let uri ← tagUri
      if (← peek 0) != some '>' then malformed
      forward 1
      pure (Token.tag none uri)
    else if endsIndicator next then do
      forward 1
      pure (Token.tag none "!")
    else do
      let word := ((← rest).drop 1).takeWhile fun char => char != ' ' && !isBreak char
      if word.contains '!' then do
        let handle ← tagHandle
        pure (Token.tag (some handle) (← tagUri))
      else do
        forward 1
        pure (Token.tag (some "!") (← tagUri))
  if !endsWord (← peek 0) then malformed
  return token

/-- A number in a directive. -/
def versionNumber : Scanner Nat := do
  let digits ← takeWhile isAsciiDigit
  if digits.isEmpty then malformed
  return digitsValue 10 digits

def versionDirective : Scanner Directive := do
  skipSpaces
  let major ← versionNumber
  if (← peek 0) != some '.' then malformed
  forward 1
  let _ ← versionNumber
  if !endsWord (← peek 0) then malformed
  return .version major

def handleDirective : Scanner Directive := do
  skipSpaces
  let handle ← tagHandle
  if (← peek 0) != some ' ' then malformed
  skipSpaces
  let expansion ← tagUri
  if !endsWord (← peek 0) then malformed
  return .handle handle expansion

/-- A directive, on a line of its own. -/
def directiveToken : Scanner Token := do
  forward 1
  let name ← takeWhile isNameChar
  if name.isEmpty || !endsWord (← peek 0) then malformed
  let directive ← match String.ofList name with
    | "YAML" => versionDirective
    | "TAG" => handleDirective
    | _ => do
      skipWhile fun char => !isBreak char
      pure .unknown
  skipIgnoredLine
  return .directive directive

end ContractCalls.Yaml.Scanner
