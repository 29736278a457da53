import ContractCalls.Syntax.Tree

/-!
Contract: source texts, addressed by byte.

Owns the text and the position of a range of bytes, and the reading of a tree
of ranges into a tree of excerpts.
-/

set_option autoImplicit false

namespace ContractCalls.Syntax

/-- A source with its bytes and the offsets at which its lines start. -/
structure Source where
  bytes : ByteArray
  lineStarts : List Nat

namespace Source

/-- The offsets after each line feed, for bytes that start at an offset. -/
def startsAfterFeeds (offset : Nat) : List UInt8 → List Nat
  | [] => []
  | byte :: rest =>
    if byte == 10 then (offset + 1) :: startsAfterFeeds (offset + 1) rest
    else startsAfterFeeds (offset + 1) rest

def ofString (text : String) : Source :=
  let bytes := text.toUTF8
  { bytes, lineStarts := startsAfterFeeds 0 bytes.toList }

/-- The text of a range.  A range that cuts through a character has none. -/
def slice (source : Source) (span : Span) : String :=
  (String.fromUTF8? (source.bytes.extract span.start span.stop)).getD ""

/-- The line an offset is on, and its distance from the start of that line. -/
def position (source : Source) (offset : Nat) : Position :=
  let before := source.lineStarts.filter fun start => start ≤ offset
  { row := before.length, column := offset - before.getLastD 0 }

def excerpt (source : Source) (span : Span) : Excerpt :=
  { text := source.slice span, start := source.position span.start }

/-- A tree of ranges as a tree of the texts they hold. -/
def read (source : Source) (tree : Tree Span) : Tree Excerpt :=
  tree.mapExtent source.excerpt

end Source

end ContractCalls.Syntax
