/-!
Contract: the shortest decimal text of a binary floating-point number.

Owns:
- the exact value of a number, and the interval of reals that round to it;
- the decimal with the fewest digits in that interval, and of two such the
  nearer one;
- how its digits are laid out: positionally for moderate exponents, and with a
  power of ten otherwise.
-/

set_option autoImplicit false

namespace ContractCalls.Text

/-- A positive number: a mantissa times a power of two. -/
structure Binary where
  mantissa : Nat
  exponent : Int
  deriving Repr, DecidableEq

/-- A quotient of natural numbers. -/
structure Ratio where
  numerator : Nat
  denominator : Nat
  deriving Repr, DecidableEq

namespace Ratio

/-- A number times a power of a base. -/
def scaled (value base : Nat) (exponent : Int) : Ratio :=
  if exponent ≥ 0 then ⟨value * base.pow exponent.toNat, 1⟩
  else ⟨value, base.pow exponent.natAbs⟩

def lt (left right : Ratio) : Bool :=
  left.numerator * right.denominator < right.numerator * left.denominator

def divide (left right : Ratio) : Ratio :=
  ⟨left.numerator * right.denominator, left.denominator * right.numerator⟩

def floor (ratio : Ratio) : Nat := ratio.numerator / ratio.denominator

end Ratio

/-- The least exponent of a number with eleven bits of exponent. -/
def leastExponent : Int := -1074

/-- Decode the bits of a number without its sign. -/
def Binary.ofBits (bits : Nat) : Binary :=
  let fraction : Nat := bits % Nat.pow 2 52
  let biased : Nat := bits / Nat.pow 2 52 % Nat.pow 2 11
  if biased = 0 then ⟨fraction, leastExponent⟩
  else ⟨fraction + Nat.pow 2 52, (biased : Int) + leastExponent - 1⟩

/-- The exponent of the leading decimal digit. -/
def leadingExponent (value : Ratio) : Int :=
  if value.numerator ≥ value.denominator then
    ((Nat.toDigits 10 value.floor).length : Int) - 1
  else
    match (List.range 330).find? fun shift =>
        value.denominator ≤ value.numerator * Nat.pow 10 shift with
    | some shift => -(shift : Int)
    | none => 0

/-- The integers whose multiples of a power of ten round to a number, among the
two that are next to it. -/
def roundingNeighbour? (number : Binary) (unit : Int) : Option Nat :=
  let value := Ratio.scaled (4 * number.mantissa) 2 (number.exponent - 2)
  let narrow := number.mantissa = Nat.pow 2 52 ∧ number.exponent > leastExponent
  let least := Ratio.scaled (4 * number.mantissa - if narrow then 1 else 2) 2 (number.exponent - 2)
  let most := Ratio.scaled (4 * number.mantissa + 2) 2 (number.exponent - 2)
  let inside (multiple : Nat) : Bool :=
    let candidate := Ratio.scaled multiple 10 unit
    if number.mantissa % 2 = 0 then !candidate.lt least && !most.lt candidate
    else least.lt candidate && candidate.lt most
  let below := (value.divide (Ratio.scaled 1 10 unit)).floor
  let middle := Ratio.scaled (2 * below + 1) 10 unit
  let twice := Ratio.scaled (8 * number.mantissa) 2 (number.exponent - 2)
  match inside below, inside (below + 1) with
  | true, true =>
    if twice.lt middle then some below
    else if middle.lt twice then some (below + 1)
    else some (if below % 2 = 0 then below else below + 1)
  | true, false => some below
  | false, true => some (below + 1)
  | false, false => none

/-- The fewest digits that round to a number, with the exponent of the last of
them. -/
def shortestDigits (number : Binary) : Nat × Int :=
  let leading := leadingExponent (Ratio.scaled number.mantissa 2 number.exponent)
  let attempt (count : Nat) : Option (Nat × Int) :=
    let unit := leading - count
    (roundingNeighbour? number unit).map fun multiple => (multiple, unit)
  ((List.range 18).findSome? attempt).getD (number.mantissa, 0)

/-- Digits without zeros at the end, with the exponent of the last of them. -/
def stripZeros (digits : List Char) (unit : Int) : List Char × Int :=
  let zeros := (digits.reverse.takeWhile (· == '0')).length
  (digits.take (digits.length - zeros), unit + zeros)

/-- An exponent with a sign and at least two digits. -/
def exponentText (exponent : Int) : List Char :=
  let digits := Nat.toDigits 10 exponent.natAbs
  (if exponent < 0 then '-' else '+') :: (List.replicate (2 - digits.length) '0' ++ digits)

/-- Lay out digits whose point stands at a place counted from their start: it is
written as such from four zeros after the point up to sixteen digits before
it. -/
def layOutDigits (digits : List Char) (point : Int) : List Char :=
  if -4 < point ∧ point ≤ 16 then
    if point ≤ 0 then '0' :: '.' :: (List.replicate point.natAbs '0' ++ digits)
    else if point.toNat ≥ digits.length then
      digits ++ List.replicate (point.toNat - digits.length) '0' ++ ['.', '0']
    else digits.take point.toNat ++ '.' :: digits.drop point.toNat
  else
    let tail := digits.drop 1
    digits.take 1 ++ (if tail.isEmpty then [] else '.' :: tail) ++ 'e' :: exponentText (point - 1)

/-- The shortest text that reads back as a number. -/
def shortest (number : Float) : String :=
  let bits := number.toBits.toNat
  let sign := if bits / Nat.pow 2 63 = 1 then ['-'] else []
  if number.isNaN then "nan"
  else if number.isInf then String.ofList (sign ++ ['i', 'n', 'f'])
  else
    let binary := Binary.ofBits (bits % Nat.pow 2 63)
    if binary.mantissa = 0 then String.ofList (sign ++ ['0', '.', '0'])
    else
      let (multiple, unit) := shortestDigits binary
      let (digits, last) := stripZeros (Nat.toDigits 10 multiple) unit
      String.ofList (sign ++ layOutDigits digits (digits.length + last))

end ContractCalls.Text
