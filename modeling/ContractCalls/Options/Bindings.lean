import ContractCalls.Table
import ContractCalls.Text.Blank

/-!
Contract: files that bind names to texts, one binding a line.

Owns:
- the form of a binding: an optional `export`, a name, and after an equals sign
  a value that is quoted or runs to the end of the line;
- escapes in quoted values;
- references to other names inside values, with defaults.

A line of another form is skipped.  A name without an equals sign is bound to
nothing.
-/

set_option autoImplicit false

namespace ContractCalls.Options

open ContractCalls.Text

/-- A name and what it is bound to. -/
abbrev Binding := String × Option String

/-- Blanks that do not end a line. -/
def isInlineBlank (char : Char) : Bool := isBlank char && char != '\n' && char != '\r'

def skipInlineBlanks (text : List Char) : List Char := text.dropWhile isInlineBlank

/-- The text after the end of the current line. -/
def skipLine (text : List Char) : List Char := (text.dropWhile (· != '\n')).drop 1

/-- A text without `export` and the blanks after it. -/
def skipExport : List Char → List Char
  | 'e' :: 'x' :: 'p' :: 'o' :: 'r' :: 't' :: blank :: rest =>
    if isInlineBlank blank then skipInlineBlanks rest
    else 'e' :: 'x' :: 'p' :: 'o' :: 'r' :: 't' :: blank :: rest
  | text => text

def isNameChar (char : Char) : Bool := char != '=' && char != '#' && !isBlank char

/-- A name with the text after it, or nothing before a comment.  None if there is
no name. -/
def readName? : List Char → Option (Option String × List Char)
  | '#' :: rest => some (none, '#' :: rest)
  | '\'' :: rest =>
    let name := rest.takeWhile (· != '\'')
    match name, rest.dropWhile (· != '\'') with
    | _ :: _, _ :: after => some (some (String.ofList name), after)
    | _, _ => none
  | text =>
    match text.takeWhile isNameChar with
    | [] => none
    | name => some (some (String.ofList name), text.dropWhile isNameChar)

/-- The text up to the first quote that has no backslash before it, with the text
after that quote. -/
def closeQuote? (quote : Char) (escaped : Bool) : List Char → Option (List Char × List Char)
  | [] => none
  | char :: rest =>
    if char == quote && !escaped then some ([], rest)
    else (closeQuote? quote (char == '\\') rest).map fun (inside, after) => (char :: inside, after)

/-- The text up to the last quote, with the text after that quote. -/
def closeLastQuote? (quote : Char) : List Char → Option (List Char × List Char)
  | [] => none
  | char :: rest =>
    match closeLastQuote? quote rest with
    | some (inside, after) => some (char :: inside, after)
    | none => if char == quote then some ([], rest) else none

/-- The inside of a quoted text, with the text after it.  If every quote has a
backslash before it, the last one ends the text. -/
def readQuoted? (quote : Char) (text : List Char) : Option (List Char × List Char) :=
  match closeQuote? quote false text with
  | some found => some found
  | none => closeLastQuote? quote text

/-- The characters that escapes of a text between double quotes stand for. -/
def doubleQuoteEscapes : List (Char × Char) :=
  [('\\', '\\'), ('\'', '\''), ('"', '"'), ('a', '\x07'), ('b', '\x08'), ('f', '\x0c'),
    ('n', '\n'), ('r', '\r'), ('t', '\t'), ('v', '\x0b')]

/-- The characters that escapes of a text between single quotes stand for. -/
def singleQuoteEscapes : List (Char × Char) := [('\\', '\\'), ('\'', '\'')]

/-- A text with its escapes replaced; a backslash before any other character
stays. -/
def unescape (escapes : List (Char × Char)) : List Char → List Char
  | '\\' :: char :: rest =>
    match escapes.lookup char with
    | some meaning => meaning :: unescape escapes rest
    | none => '\\' :: unescape escapes (char :: rest)
  | char :: rest => char :: unescape escapes rest
  | [] => []

/-- A line up to a number sign that has a blank before it. -/
def dropComment (afterBlank : Bool) : List Char → List Char
  | [] => []
  | char :: rest =>
    if char == '#' && afterBlank then [] else char :: dropComment (isBlank char) rest

/-- A value without quotes: a line without its comment and without the blanks at
its end. -/
def readUnquoted (afterBlank : Bool) (text : List Char) : List Char × List Char :=
  let line := text.takeWhile (· != '\n')
  (trimRight (dropComment afterBlank line), text.dropWhile (· != '\n'))

/-- A value with the text after it, read from what follows an equals sign. -/
def readValue? (text : List Char) : Option (List Char × List Char) :=
  let start := skipInlineBlanks text
  match start with
  | '\'' :: rest =>
    (readQuoted? '\'' rest).map fun (inside, after) => (unescape singleQuoteEscapes inside, after)
  | '"' :: rest =>
    (readQuoted? '"' rest).map fun (inside, after) => (unescape doubleQuoteEscapes inside, after)
  | _ => some (readUnquoted (start.length < text.length) start)

/-- The text after the rest of a line that holds at most a comment. -/
def finishLine? (text : List Char) : Option (List Char) :=
  let start := skipInlineBlanks text
  let afterComment := match start with
    | '#' :: _ => start.dropWhile (· != '\n')
    | _ => start
  match afterComment with
  | [] => some []
  | '\n' :: rest => some rest
  | _ => none

/-- The value after a name, if an equals sign follows, with the text after it.
The other case is the text that could not be read. -/
def readAssigned (text : List Char) : Except (List Char) (Option String × List Char) :=
  match text with
  | '=' :: afterSign =>
    match readValue? afterSign with
    | some (value, after) => .ok (some (String.ofList value), after)
    | none => .error (skipInlineBlanks afterSign)
  | _ => .ok (none, text)

/-- What is on a line: a binding or nothing, and the text after the line.  The
other case is the text that could not be read. -/
def readLine (text : List Char) : Except (List Char) (Option Binding × List Char) := do
  let start := skipExport text
  match readName? start with
  | none => .error start
  | some (name, afterName) =>
    let (value, after) ← readAssigned (skipInlineBlanks afterName)
    match finishLine? after with
    | some next => return (name.map fun name => (name, value), next)
    | none => .error after

/-- The bindings of a text, in order. -/
def bindingsOf (text : List Char) : List Binding :=
  match text.dropWhile isBlank with
  | [] => []
  | start =>
    let (binding, next) := match readLine start with
      | .ok (binding, next) => (binding, next)
      | .error unread => (none, skipLine unread)
    if next.length < text.length then binding.toList ++ bindingsOf next else binding.toList
termination_by text.length

/-- The bindings of a file, whose byte-order mark does not count. -/
def readBindings (text : String) : List Binding :=
  match text.toList with
  | '\ufeff' :: rest => bindingsOf rest
  | chars => bindingsOf chars

/-- A reference at the start of a text: the name, its default, and the text after
it. -/
def readReference? : List Char → Option (String × String × List Char)
  | '$' :: '\x7b' :: rest =>
    let name := String.ofList (rest.takeWhile fun char => char != '\x7d' && char != ':')
    match rest.dropWhile fun char => char != '\x7d' && char != ':' with
    | '\x7d' :: after => some (name, "", after)
    | ':' :: '-' :: standIn =>
      match standIn.dropWhile (· != '\x7d') with
      | _ :: after => some (name, String.ofList (standIn.takeWhile (· != '\x7d')), after)
      | [] => none
    | _ => none
  | _ => none

/-- A text with its references replaced by what names stand for. -/
def expand (meaning : String → Option String) : List Char → List Char
  | [] => []
  | char :: rest =>
    match readReference? (char :: rest) with
    | some (name, standIn, after) =>
      if after.length ≤ rest.length then
        ((meaning name).getD standIn).toList ++ expand meaning after
      else char :: expand meaning rest
    | none => char :: expand meaning rest
termination_by text => text.length

/-- What names are bound to.  A reference stands for a name of the environment
or else for the latest binding before it; a name without value stands for the
empty text. -/
def expandBindings (environment : Table String String) (bindings : List Binding) :
    Table String (Option String) :=
  bindings.foldl (fun known (name, value) =>
    let meaning (name : String) : Option String :=
      match environment.find? name with
      | some value => some value
      | none => (known.find? name).map fun value => value.getD ""
    known.insert name (value.map fun value => String.ofList (expand meaning value.toList))) {}

/-- The variables that bindings add to an environment.  Names that are already
there keep their values. -/
def newVariables (environment : Table String String) (bindings : List Binding) :
    List (String × String) :=
  (expandBindings environment bindings).entries.filterMap fun (name, value) =>
    if environment.contains name then none else value.map fun text => (name, text)

/-- Whether a variable can be set: its name has no equals sign, and neither name nor
value has a null character. -/
def isSettable (name value : String) : Bool :=
  !name.toList.contains '=' && !(name ++ value).toList.contains '\x00'

/-- The environment with the bindings of a file.  The other case is the name of a
variable that cannot be set. -/
def bindEnvironment (environment : Table String String) (bindings : List Binding) :
    Except String (Table String String) :=
  let added := newVariables environment bindings
  match added.find? fun (name, value) => !isSettable name value with
  | some (name, _) => .error name
  | none => .ok (added.foldl (fun known (name, value) => known.insert name value) environment)

end ContractCalls.Options
