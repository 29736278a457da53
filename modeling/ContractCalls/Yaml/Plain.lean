import ContractCalls.Yaml.Node

/-!
Contract: what plain YAML scalars stand for.

Owns the spellings of truth values, numbers, points in time, nothing, and the
two marks for merged and default entries.

A text of none of these spellings stands for itself.
-/

set_option autoImplicit false

namespace ContractCalls.Yaml

open ContractCalls.Text

/-- A text without a sign before it, and whether the sign was a minus. -/
def splitSign : List Char → Bool × List Char
  | '-' :: rest => (true, rest)
  | '+' :: rest => (false, rest)
  | text => (false, text)

def isDigitOrGap (char : Char) : Bool := isAsciiDigit char || char == '_'

/-- A run of digits that starts with a digit and may have gaps. -/
def isGappedDigits : List Char → Bool
  | [] => false
  | first :: rest => isAsciiDigit first && rest.all isDigitOrGap

/-- A run of digits with gaps that does not start with a nought. -/
def isGappedNumeral (text : List Char) : Bool := isGappedDigits text && text.head? != some '0'

/-- The pieces of a text between colons. -/
def colonPieces : List Char → List (List Char)
  | [] => [[]]
  | ':' :: rest => [] :: colonPieces rest
  | char :: rest =>
    match colonPieces rest with
    | [] => [[char]]
    | piece :: pieces => (char :: piece) :: pieces

/-- A number of minutes or seconds. -/
def isSixtieth : List Char → Bool
  | [only] => isAsciiDigit only
  | [high, low] => '0' ≤ high && high ≤ '5' && isAsciiDigit low
  | _ => false

/-- A first piece and at least one number of minutes or seconds after it. -/
def isSexagesimal (isFirst : List Char → Bool) (text : List Char) : Bool :=
  match colonPieces text with
  | first :: second :: rest => isFirst first && (second :: rest).all isSixtieth
  | _ => false

/-- A whole number: binary, octal, decimal, hexadecimal or by sixties. -/
def isWhole (text : List Char) : Bool :=
  match (splitSign text).2 with
  | '0' :: 'b' :: digits =>
    !digits.isEmpty && digits.all fun char => char == '0' || char == '1' || char == '_'
  | '0' :: 'x' :: digits => !digits.isEmpty && digits.all fun char => isHexDigit char || char == '_'
  | ['0'] => true
  | '0' :: digits => digits.all fun char => ('0' ≤ char && char ≤ '7') || char == '_'
  | digits => isGappedNumeral digits || isSexagesimal isGappedNumeral digits

/-- An exponent with its sign, or nothing. -/
def isExponent : List Char → Bool
  | [] => true
  | mark :: sign :: digits =>
    (mark == 'e' || mark == 'E') && (sign == '-' || sign == '+') && !digits.isEmpty &&
      digits.all isAsciiDigit
  | _ => false

/-- A real number: with a point and perhaps an exponent, or by sixties with a
point, or one of the values that are no numbers. -/
def isReal (text : List Char) : Bool :=
  let (_, unsigned) := splitSign text
  let whole := unsigned.takeWhile (· != '.')
  let fraction := (unsigned.dropWhile (· != '.')).drop 1
  let afterDigits := fraction.dropWhile isDigitOrGap
  unsigned.contains '.' &&
    ((isGappedDigits whole && isExponent afterDigits) ||
      (text.head? == some '.' && isGappedDigits (fraction.takeWhile isDigitOrGap) &&
        isExponent afterDigits) ||
      (isSexagesimal isGappedDigits whole && afterDigits.isEmpty) ||
      (whole.isEmpty && ["inf", "Inf", "INF"].contains (String.ofList fraction)) ||
      (text.head? == some '.' && ["nan", "NaN", "NAN"].contains (String.ofList fraction)))

/-- The parts of a point in time, as they are written. -/
structure Moment where
  year : List Char
  month : List Char
  day : List Char
  /-- Hour, minute, second, digits of the fraction, and zone. -/
  time : Option (List Char × List Char × List Char × List Char × List Char) := none
  deriving Repr

/-- A run of at least and at most so many digits, with the text after it. -/
def digitRun? (least most : Nat) (text : List Char) : Option (List Char × List Char) :=
  let digits := (text.takeWhile isAsciiDigit).take most
  if digits.length < least then none else some (digits, text.drop digits.length)

/-- The text after a character. -/
def after? (char : Char) : List Char → Option (List Char)
  | first :: rest => if first == char then some rest else none
  | [] => none

/-- Whether a text is the name of a zone, or empty. -/
def isZone (text : List Char) : Bool :=
  let offset (text : List Char) : Bool :=
    match digitRun? 1 2 text with
    | some (_, []) => true
    | some (_, ':' :: minutes) => minutes.length == 2 && minutes.all isAsciiDigit
    | _ => false
  match text with
  | [] => true
  | ['Z'] => true
  | '-' :: rest => offset rest
  | '+' :: rest => offset rest
  | _ => false

/-- The time after a date. -/
def time? (text : List Char) : Option (List Char × List Char × List Char × List Char × List Char) :=
  do
    let start ← match text with
      | 'T' :: rest => some rest
      | 't' :: rest => some rest
      | char :: rest => if isSpaceOrTab char then some (rest.dropWhile isSpaceOrTab) else none
      | [] => none
    let (hour, rest) ← digitRun? 1 2 start
    let (minute, rest) ← digitRun? 2 2 (← after? ':' rest)
    let (second, rest) ← digitRun? 2 2 (← after? ':' rest)
    let (fraction, rest) := match rest with
      | '.' :: rest => (rest.takeWhile isAsciiDigit, rest.dropWhile isAsciiDigit)
      | _ => ([], rest)
    let zone := rest.dropWhile isSpaceOrTab
    if isZone zone && (zone.length == rest.length || !zone.isEmpty) then
      some (hour, minute, second, fraction, zone)
    else none

/-- A text as a point in time. -/
def moment? (text : List Char) : Option Moment := do
  let (year, rest) ← digitRun? 4 4 text
  let (month, rest) ← digitRun? 1 2 (← after? '-' rest)
  let (day, rest) ← digitRun? 1 2 (← after? '-' rest)
  if rest.isEmpty then some { year, month, day }
  else
    let time ← time? rest
    some { year, month, day, time := some time }

/-- Whether a plain text is a point in time: a date alone has two digits for its
month and its day. -/
def isMoment (text : List Char) : Bool :=
  match moment? text with
  | some found => found.time.isSome || (found.month.length == 2 && found.day.length == 2)
  | none => false

def flagTexts : List String :=
  ["yes", "Yes", "YES", "no", "No", "NO", "true", "True", "TRUE", "false", "False", "FALSE", "on",
    "On", "ON", "off", "Off", "OFF"]

def nothingTexts : List String := ["~", "null", "Null", "NULL", ""]

/-- The tag of a plain scalar. -/
def plainTag (text : String) : String :=
  let chars := text.toList
  if flagTexts.contains text then coreTag "bool"
  else if nothingTexts.contains text then coreTag "null"
  else if text == "<<" then coreTag "merge"
  else if text == "=" then coreTag "value"
  else if isReal chars then coreTag "float"
  else if isWhole chars then coreTag "int"
  else if isMoment chars then coreTag "timestamp"
  else coreTag "str"

end ContractCalls.Yaml
