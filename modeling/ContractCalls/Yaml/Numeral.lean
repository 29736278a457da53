import ContractCalls.Text.Blank
import ContractCalls.Yaml.Plain

/-!
Contract: the values of YAML numerals, dates and encoded bytes.

Owns whole and real numbers with gaps and sixties, calendar dates and times, and
bytes in base sixty-four.
-/

set_option autoImplicit false

namespace ContractCalls.Yaml

open ContractCalls.Text

/-- A text without the gaps between its digits. -/
def withoutGaps (text : String) : List Char := text.toList.filter (· != '_')

/-! ## Whole numbers -/

/-- A whole number in a base, perhaps with a sign and blanks around it. -/
def wholeIn (base : Nat) (text : List Char) : Except Failure Int :=
  let (negative, digits) := splitSign (trim text)
  if digits.isEmpty || !digits.all fun digit => isHexDigit digit && hexValue digit < base then
    .error .badNumeral
  else
    let size : Int := digitsValue base digits
    .ok (if negative then -size else size)

/-- A number by sixties: the first piece is the most significant. -/
def bySixties (pieces : List Int) : Int := pieces.foldl (fun value piece => 60 * value + piece) 0

/-- A whole number without its sign. -/
def wholeSize (text : List Char) : Except Failure Int :=
  match text with
  | [] => .error .emptyNumeral
  | '0' :: 'b' :: digits => wholeIn 2 digits
  | '0' :: 'x' :: digits => wholeIn 16 digits
  | '0' :: _ => wholeIn 8 text
  | _ =>
    if text.contains ':' then bySixties <$> (colonPieces text).mapM (wholeIn 10)
    else wholeIn 10 text

/-- The whole number of a text. -/
def wholeOf (text : String) : Except Failure Int := do
  let chars := withoutGaps text
  if chars.isEmpty then throw .emptyNumeral
  let (negative, digits) := splitSign chars
  let size ← wholeSize digits
  return if negative then -size else size

/-! ## Real numbers -/

/-- The number of some digits times a power of ten. -/
def scaledDigits (digits : List Char) (exponent : Int) : Float :=
  let size := digitsValue 10 digits
  let reach : Int := digits.length + exponent
  if size = 0 then 0.0
  else if reach > 400 + digits.length then 1.0 / 0.0
  else if reach < -400 then 0.0
  else Float.ofScientific size (exponent < 0) exponent.natAbs

/-- An exponent after its mark; nothing is nought. -/
def exponent? : List Char → Option Int
  | [] => some 0
  | mark :: rest =>
    let (negative, digits) := splitSign rest
    if mark == 'e' && !digits.isEmpty && digits.all isAsciiDigit then
      let size : Int := digitsValue 10 digits
      some (if negative then -size else size)
    else none

/-- A real number, perhaps with a sign and blanks around it, in lower case. -/
def realIn (text : List Char) : Except Failure Float :=
  let (negative, unsigned) := splitSign (trim text)
  let signed (size : Float) : Float := if negative then -size else size
  let whole := unsigned.takeWhile isAsciiDigit
  let afterWhole := unsigned.dropWhile isAsciiDigit
  let (fraction, afterFraction) := match afterWhole with
    | '.' :: rest => (rest.takeWhile isAsciiDigit, rest.dropWhile isAsciiDigit)
    | _ => ([], afterWhole)
  if ["inf", "infinity"].contains (String.ofList unsigned) then .ok (signed (1.0 / 0.0))
  else if unsigned == ['n', 'a', 'n'] then .ok (0.0 / 0.0)
  else if whole.isEmpty && fraction.isEmpty then .error .badNumeral
  else
    match exponent? afterFraction with
    | some exponent => .ok (signed (scaledDigits (whole ++ fraction) (exponent - fraction.length)))
    | none => .error .badNumeral

/-- The real number of a text. -/
def realOf (text : String) : Except Failure Float := do
  let chars := (withoutGaps text).map Char.toLower
  if chars.isEmpty then throw .emptyNumeral
  let (negative, unsigned) := splitSign chars
  let size ←
    if unsigned == ['.', 'i', 'n', 'f'] then pure (1.0 / 0.0)
    else if unsigned == ['.', 'n', 'a', 'n'] then pure (0.0 / 0.0)
    else if unsigned.contains ':' then do
      let pieces ← (colonPieces unsigned).mapM realIn
      pure (pieces.foldl (fun value piece => 60.0 * value + piece) 0.0)
    else realIn unsigned
  return if negative then -size else size

/-! ## Points in time -/

def isLeapYear (year : Nat) : Bool := year % 4 == 0 && (year % 100 != 0 || year % 400 == 0)

def daysOfMonth (year month : Nat) : Nat :=
  if month == 2 then if isLeapYear year then 29 else 28
  else if [4, 6, 9, 11].contains month then 30
  else 31

def isDate (year month day : Nat) : Bool :=
  1 ≤ year && 1 ≤ month && month ≤ 12 && 1 ≤ day && day ≤ daysOfMonth year month

/-- Numbers with commas between them. -/
def listed (numbers : List Nat) : String := ", ".intercalate (numbers.map toString)

/-- A zone as it is written in messages; none if it is a day or more away.  An
empty text is no zone. -/
def zoneText? (zone : List Char) : Option String :=
  match zone with
  | [] => some ""
  | ['Z'] => some ", tzinfo=datetime.timezone.utc"
  | sign :: offset =>
    let hours := digitsValue 10 (offset.takeWhile isAsciiDigit)
    let minutes := digitsValue 10 ((offset.dropWhile isAsciiDigit).drop 1)
    let seconds := 3600 * hours + 60 * minutes
    if seconds ≥ 86400 then none
    else if seconds = 0 then some ", tzinfo=datetime.timezone.utc"
    else
      let span :=
        if sign == '-' then "days=-1, seconds=" ++ toString (86400 - seconds)
        else "seconds=" ++ toString seconds
      some (", tzinfo=datetime.timezone(datetime.timedelta(" ++ span ++ "))")

/-- A point in time as it is written in messages. -/
def momentText (text : String) : Except Failure String :=
  match moment? text.toList with
  | none => .error .badMoment
  | some moment =>
    let year := digitsValue 10 moment.year
    let month := digitsValue 10 moment.month
    let day := digitsValue 10 moment.day
    if !isDate year month day then .error .badNumeral
    else
      match moment.time with
      | none => .ok ("datetime.date(" ++ listed [year, month, day] ++ ")")
      | some (hourText, minuteText, secondText, fractionText, zone) =>
        let hour := digitsValue 10 hourText
        let minute := digitsValue 10 minuteText
        let second := digitsValue 10 secondText
        let fraction :=
          digitsValue 10 ((fractionText ++ List.replicate 6 '0').take 6)
        let tail := if fraction ≠ 0 then [second, fraction] else if second ≠ 0 then [second] else []
        match zoneText? zone with
        | none => .error .badNumeral
        | some zone =>
          if hour < 24 && minute < 60 && second < 60 then
            .ok ("datetime.datetime(" ++ listed ([year, month, day, hour, minute] ++ tail) ++
              zone ++ ")")
          else .error .badNumeral

/-! ## Bytes -/

/-- The value of a digit in base sixty-four. -/
def sixBits? (char : Char) : Option Nat :=
  let code := char.toNat
  if 'A' ≤ char && char ≤ 'Z' then some (code - 65)
  else if 'a' ≤ char && char ≤ 'z' then some (code - 71)
  else if isAsciiDigit char then some (code + 4)
  else if char == '+' then some 62
  else if char == '/' then some 63
  else none

/-- The bytes of digits in base sixty-four, four at a time. -/
def bytesOfDigits : List Nat → Option (List UInt8)
  | [] => some []
  | first :: second :: third :: fourth :: rest =>
    let word := ((first * 64 + second) * 64 + third) * 64 + fourth
    (bytesOfDigits rest).map fun bytes =>
      (word / 65536).toUInt8 :: (word / 256).toUInt8 :: word.toUInt8 :: bytes
  | [first, second, third] =>
    let word := (first * 64 + second) * 64 + third
    some [(word / 1024).toUInt8, (word / 4).toUInt8]
  | [first, second] => some [((first * 64 + second) / 16).toUInt8]
  | [_] => none

/-- The bytes of a text in base sixty-four.  Characters that are no digits are
skipped; the last group is filled up with equals signs. -/
def bytesOf? (text : String) : Option (List UInt8) :=
  let digits := (text.toList.takeWhile (· != '=')).filterMap sixBits?
  let filling := (text.toList.filter (· == '=')).length
  if digits.length % 4 ≠ 0 && digits.length % 4 + filling < 4 then none
  else bytesOfDigits digits

end ContractCalls.Yaml
