import ContractCalls.Text.Printable

/-!
Contract: texts written between quotes for a message.

Owns the choice of the quote, the short escapes and the numeric escapes of
characters without a visible form.

Does not own: the quoting of identifiers in DOT.
-/

set_option autoImplicit false

namespace ContractCalls.Text

/-- The lower-case digits of a number in base sixteen, padded with zeros to at
least the given width. -/
def hexPadded (width value : Nat) : List Char :=
  let digits := Nat.toDigits 16 value
  List.replicate (width - digits.length) '0' ++ digits

/-- One character of a text that stands between the given quotes. -/
def quotedChar (quote char : Char) : List Char :=
  if char == quote || char == '\\' then ['\\', char]
  else if char == '\n' then ['\\', 'n']
  else if char == '\r' then ['\\', 'r']
  else if char == '\t' then ['\\', 't']
  else if isPrintable char then [char]
  else if char.toNat ≤ 0xFF then '\\' :: 'x' :: hexPadded 2 char.toNat
  else if char.toNat ≤ 0xFFFF then '\\' :: 'u' :: hexPadded 4 char.toNat
  else '\\' :: 'U' :: hexPadded 8 char.toNat

/-- Single quotes, unless the text holds one and no double quote. -/
def preferredQuote (text : List Char) : Char :=
  if text.contains '\'' && !text.contains '"' then '"' else '\''

/-- A text between quotes, with escapes for all that would be unclear. -/
def quoted (text : String) : String :=
  let chars := text.toList
  let quote := preferredQuote chars
  String.ofList (quote :: chars.flatMap (quotedChar quote) ++ [quote])

end ContractCalls.Text
