import ContractCalls.Dot.Document
import ContractCalls.Text.Blank

/-!
Contract: the nodes and edges that the legend of a DOT text mentions.

Owns:
- mentions of nodes and edges, by the identifiers that are written for them;
- a reader that finds them in a text, and passes over attributes;
- schemes whose colours end where their attributes end;
- the law that the legend of such a scheme mentions two nodes and two edges.

Colours stand in the legend as they are, without quoting.  One with a quote or an
angle bracket can end its attribute early, and what comes after it is then read as
statements.
-/

set_option autoImplicit false

namespace ContractCalls.Dot

/-! ### A reader of statements -/

/-- A node statement or an edge statement, by the identifiers that it is written with. -/
inductive Mention where
  | node (name : String)
  | edge (tail head : String)
  deriving Repr, DecidableEq

/-- What encloses a place of a text. -/
inductive Enclosure where
  | none
  | quotes (escaped : Bool)
  /-- Angle brackets, with the number of further ones that are open. -/
  | brackets (inner : Nat)
  deriving Repr, DecidableEq

/-- What encloses the place after an angle bracket that closes. -/
def Enclosure.outside : Nat → Enclosure
  | 0 => none
  | inner + 1 => brackets inner

def Enclosure.step : Enclosure → Char → Enclosure
  | none, char =>
    if char = '"' then quotes false else if char = '<' then brackets 0 else none
  | quotes escaped, char =>
    if escaped then quotes false else if char = '"' then none else quotes (char = '\\')
  | brackets inner, char =>
    if char = '<' then brackets (inner + 1)
    else if char = '>' then outside inner else brackets inner

/-- What the words of a statement mention.  The cell of a node is not part of its
identifier. -/
def mentionOf? : List String → Option Mention
  | [name] =>
    if name.toList.contains '=' || isReserved name.toList then none
    else some (.node (splitAtColon name).1)
  | [tail, "->", head] => some (.edge (splitAtColon tail).1 (splitAtColon head).1)
  | _ => none

/-- A reader of a DOT text. -/
structure Reader where
  /-- The mentions of the statements that are read. -/
  mentions : List Mention := []
  /-- The words of the present statement. -/
  words : List String := []
  /-- The characters of the present word, last first. -/
  word : List Char := []
  inAttributes : Bool := false
  enclosure : Enclosure := .none
  deriving Repr, DecidableEq

namespace Reader

def push (reader : Reader) (char : Char) : Reader := { reader with word := char :: reader.word }

def endWord (reader : Reader) : Reader :=
  if reader.word.isEmpty then reader
  else { reader with words := reader.words ++ [String.ofList reader.word.reverse], word := [] }

def endStatement (reader : Reader) : Reader :=
  let ended := reader.endWord
  { ended with mentions := ended.mentions ++ (mentionOf? ended.words).toList, words := [] }

/-- Read a character.  A statement ends before its attributes, or else at a semicolon,
a brace or the end of the line. -/
def step (reader : Reader) (char : Char) : Reader :=
  let next := { reader with enclosure := reader.enclosure.step char }
  if reader.inAttributes then
    if reader.enclosure = .none ∧ char = ']' then { next with inAttributes := false } else next
  else if reader.enclosure ≠ .none then next.push char
  else if char = '[' then { next.endStatement with inAttributes := true }
  else if [';', '\x7b', '\x7d', '\n'].contains char then next.endStatement
  else if Text.isBlank char then next.endWord
  else next.push char

def feed (reader : Reader) (text : String) : Reader := text.toList.foldl step reader

end Reader

/-- The mentions of a text, in its order. -/
def mentionsIn (text : String) : List Mention := (Reader.feed {} text).endStatement.mentions

/-! ### Colours that stay in their attributes -/

/-- A text that keeps a place between quotes. -/
def KeepsQuotes (text : String) : Prop := '"' ∉ text.toList ∧ '\\' ∉ text.toList

/-- A text that keeps a place between angle brackets. -/
def KeepsBrackets (text : String) : Prop := '<' ∉ text.toList ∧ '>' ∉ text.toList

instance (text : String) : Decidable (KeepsQuotes text) :=
  inferInstanceAs (Decidable (_ ∧ _))

instance (text : String) : Decidable (KeepsBrackets text) :=
  inferInstanceAs (Decidable (_ ∧ _))

/-- The colours of the legend stay in their attributes. -/
structure ColorScheme.HasPlainLegend (scheme : ColorScheme) : Prop where
  defined : ∀ color ∈ present? scheme.contracts.defined.background, KeepsBrackets color
  mentioned : KeepsBrackets scheme.contracts.mentioned.color
  direct : KeepsQuotes scheme.calls.direct
  others : KeepsQuotes scheme.calls.others

instance (scheme : ColorScheme) : Decidable scheme.HasPlainLegend :=
  decidable_of_iff
    ((∀ color ∈ present? scheme.contracts.defined.background, KeepsBrackets color) ∧
      KeepsBrackets scheme.contracts.mentioned.color ∧ KeepsQuotes scheme.calls.direct ∧
      KeepsQuotes scheme.calls.others)
    ⟨fun ⟨defined, mentioned, direct, others⟩ => ⟨defined, mentioned, direct, others⟩,
      fun plain => ⟨plain.defined, plain.mentioned, plain.direct, plain.others⟩⟩

namespace Reader

theorem feed_append (reader : Reader) (left right : String) :
    reader.feed (left ++ right) = (reader.feed left).feed right := by
  unfold feed
  rw [String.toList_append, List.foldl_append]

theorem feed_eq_self {reader : Reader} {text : String}
    (kept : ∀ char ∈ text.toList, reader.step char = reader) : reader.feed text = reader := by
  unfold feed
  generalize text.toList = chars at kept
  induction chars with
  | nil => rfl
  | cons char rest inductionHypothesis =>
      rw [List.foldl_cons, kept char List.mem_cons_self]
      exact inductionHypothesis fun other member => kept other (List.mem_cons_of_mem char member)

/-- The reader inside of an attribute that is written between quotes. -/
def betweenQuotes (mentions : List Mention) : Reader :=
  { mentions, inAttributes := true, enclosure := .quotes false }

/-- The reader inside of an attribute of a tag. -/
def insideTag (mentions : List Mention) : Reader :=
  { mentions, inAttributes := true, enclosure := .brackets 1 }

theorem feed_betweenQuotes {text : String} (kept : KeepsQuotes text) (mentions : List Mention) :
    (betweenQuotes mentions).feed text = betweenQuotes mentions := by
  apply feed_eq_self
  intro char member
  have noQuote : char ≠ '"' := fun same => kept.1 (same ▸ member)
  have noBackslash : char ≠ '\\' := fun same => kept.2 (same ▸ member)
  simp [betweenQuotes, step, Enclosure.step, noQuote, noBackslash]

theorem feed_insideTag {text : String} (kept : KeepsBrackets text) (mentions : List Mention) :
    (insideTag mentions).feed text = insideTag mentions := by
  apply feed_eq_self
  intro char member
  have notOpening : char ≠ '<' := fun same => kept.1 (same ▸ member)
  have notClosing : char ≠ '>' := fun same => kept.2 (same ▸ member)
  simp [insideTag, step, Enclosure.step, notOpening, notClosing]

end Reader

/-! ### The mentions of the legend -/

/-- The nodes of the legend. -/
def legendNames : List String := ["key", "key2"]

def legendNodes : List Mention := legendNames.map .node

def legendEdges : List Mention := [.edge "key" "key2", .edge "key" "key2"]

namespace Reader

theorem feed_of_chars {text : String} {chars : List Char} (spelled : text = String.ofList chars)
    (reader : Reader) : reader.feed text = chars.foldl step reader := by
  rw [feed, spelled, String.toList_ofList]

theorem feed_legendStart : feed {} legendStart = insideTag legendNodes := by
  unfold legendStart
  repeat rw [feed_append]
  repeat rw [feed_of_chars rfl]
  decide +kernel

theorem feed_legendMiddle : (insideTag legendNodes).feed legendMiddle = insideTag legendNodes := by
  unfold legendMiddle
  repeat rw [feed_append]
  repeat rw [feed_of_chars rfl]
  decide +kernel

theorem feed_legendRest :
    (insideTag legendNodes).feed legendRest = { mentions := legendNodes } := by
  rw [legendRest, feed_of_chars rfl]
  decide +kernel

theorem feed_legendGround {scheme : ColorScheme}
    (defined : ∀ color ∈ present? scheme.contracts.defined.background, KeepsBrackets color)
    (mentions : List Mention) :
    (insideTag mentions).feed (legendGround scheme) = insideTag mentions := by
  unfold legendGround
  split
  next color isColor =>
    have around : KeepsBrackets " bgcolor=\"" ∧ KeepsBrackets "\"" := by decide +kernel
    rw [feed_append, feed_append, feed_insideTag around.1,
      feed_insideTag (defined color isColor), feed_insideTag around.2]
  next => rfl

/-- A sample of an edge adds the edge that its ends are read as. -/
theorem feed_legendArrow {mentions : List Mention} {ends tail head : String}
    (reads : feed { mentions } (ends ++ " [color=\"") =
      betweenQuotes (mentions ++ [.edge tail head]))
    {color : String} (kept : KeepsQuotes color) :
    feed { mentions } (legendArrow ends color) = { mentions := mentions ++ [.edge tail head] } := by
  rw [legendArrow, feed_append, feed_append, reads, feed_betweenQuotes kept, feed_of_chars rfl]
  simp [betweenQuotes, step, Enclosure.step, endStatement, endWord, mentionOf?]

end Reader

/-- The mentions of the legend up to its edges depend on the grounds of contracts only. -/
theorem feed_legendTables {scheme : ColorScheme}
    (defined : ∀ color ∈ present? scheme.contracts.defined.background, KeepsBrackets color)
    (mentioned : KeepsBrackets scheme.contracts.mentioned.color) :
    Reader.feed {} (legendStart ++ legendGround scheme ++ legendMiddle ++
      scheme.contracts.mentioned.color ++ legendRest) = { mentions := legendNodes } := by
  simp only [Reader.feed_append]
  rw [Reader.feed_legendStart, Reader.feed_legendGround defined, Reader.feed_legendMiddle,
    Reader.feed_insideTag mentioned, Reader.feed_legendRest]

theorem mentionsIn_legend {scheme : ColorScheme} (plain : scheme.HasPlainLegend) :
    mentionsIn (legend scheme) = legendNodes ++ legendEdges := by
  have first : Reader.feed { mentions := legendNodes } ("key:i1:e -> key2:i1:w" ++ " [color=\"") =
      .betweenQuotes (legendNodes ++ [.edge "key" "key2"]) := by
    decide +kernel
  have second : Reader.feed { mentions := legendNodes ++ [.edge "key" "key2"] }
      ("key:i2:e -> key2:i2:w" ++ " [color=\"") =
        .betweenQuotes (legendNodes ++ [.edge "key" "key2"] ++ [.edge "key" "key2"]) := by
    decide +kernel
  unfold mentionsIn legend
  rw [Reader.feed_append, Reader.feed_append, Reader.feed_append,
    feed_legendTables plain.defined plain.mentioned, Reader.feed_legendArrow first plain.direct,
    Reader.feed_legendArrow second plain.others]
  decide +kernel

/-- A scheme with a colour that ends its attribute and starts a node statement. -/
def breakingScheme : ColorScheme := { calls.direct := "green\"]\nToken [color=\"red" }

theorem mentionsIn_legend_breakingScheme :
    mentionsIn (legend breakingScheme) =
      legendNodes ++ [.edge "key" "key2", .node "Token", .edge "key" "key2"] := by
  have arrows : (Reader.feed { mentions := legendNodes }
      (legendArrow "key:i1:e -> key2:i1:w" breakingScheme.calls.direct)).feed
        (legendArrow "key:i2:e -> key2:i2:w" breakingScheme.calls.others) =
      { mentions := legendNodes ++ [.edge "key" "key2", .node "Token", .edge "key" "key2"] } := by
    decide +kernel
  unfold mentionsIn legend
  rw [Reader.feed_append, Reader.feed_append, Reader.feed_append,
    feed_legendTables (by decide +kernel) (by decide +kernel), arrows]
  decide +kernel

end ContractCalls.Dot
