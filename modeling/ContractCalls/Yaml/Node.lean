import ContractCalls.Table
import ContractCalls.Yaml.Scan

/-!
Contract: the node that the tokens of a YAML text describe.

Owns:
- block and flow collections, and the places where a node may be left out;
- tags with their handles, and the tags of nodes without one;
- anchors, which stand for the node they are at wherever an alias names them.

A text has at most one document.  An alias inside the collection that it stands
for names an empty collection.

Main definition: `node?`.
-/

set_option autoImplicit false

namespace ContractCalls.Yaml

/-- A node with its tag. -/
inductive Node where
  | scalar (tag text : String)
  | sequence (tag : String) (items : List Node)
  | mapping (tag : String) (entries : List (Node × Node))
  deriving Repr, Inhabited

/-- The tag of a kind of value that the language itself defines. -/
def coreTag (kind : String) : String := "tag:yaml.org,2002:" ++ kind

def Node.tag : Node → String
  | scalar tag _ => tag
  | sequence tag _ => tag
  | mapping tag _ => tag

/-- The state of reading nodes. -/
structure Composition where
  tokens : List Token
  handles : Table String String := {}
  anchors : Table String Node := {}

abbrev Composer := StateT Composition (Except Failure)

namespace Composer

def malformed {α : Type} : Composer α := throw .malformed

def peek : Composer (Option Token) := do
  return (← get).tokens.head?

def skip : Composer Unit :=
  modify fun state => { state with tokens := state.tokens.tail }

/-- Whether the next token is one of several. -/
def nextIn (choices : List Token) : Composer Bool := do
  return (← peek).any choices.contains

/-- Take a token if it comes next. -/
def take? (token : Token) : Composer Bool := do
  if ← nextIn [token] then
    skip
    return true
  else return false

/-- The node of a place where none is written. -/
def emptyNode : Node := .scalar (coreTag "null") ""

/-- The properties before a node: at most one anchor and one tag, in any order. -/
structure Properties where
  anchor : Option String := none
  tag : Option String := none

/-- A tag with its handle replaced. -/
def expandTag (handle : Option String) (suffix : String) : Composer String := do
  match handle with
  | none => return suffix
  | some name =>
    match (← get).handles.find? name with
    | some expansion => return expansion ++ suffix
    | none => malformed

def anchor? : Composer (Option String) := do
  match ← peek with
  | some (.anchor name) =>
    skip
    return some name
  | _ => return none

def tag? : Composer (Option String) := do
  match ← peek with
  | some (.tag handle suffix) =>
    skip
    return some (← expandTag handle suffix)
  | _ => return none

def properties : Composer Properties := do
  match ← anchor? with
  | some anchor => return { anchor := some anchor, tag := ← tag? }
  | none =>
    match ← tag? with
    | some tag => return { anchor := ← anchor?, tag := some tag }
    | none => return {}

/-- Whether a tag leaves the kind of a node open. -/
def isOpen (tag : Option String) : Bool := tag.isNone || tag == some "!"

/-- The tag of a collection. -/
def collectionTag (kind : String) (tag : Option String) : String :=
  if isOpen tag then coreTag kind else tag.getD ""

/-- Remember what an anchor stands for. -/
def anchorAt (name : Option String) (node : Node) : Composer Unit :=
  match name with
  | none => return
  | some name => modify fun state => { state with anchors := state.anchors.insert name node }

/-- An anchor may be set once. -/
def checkAnchor (name : Option String) : Composer Unit := do
  match name with
  | none => return
  | some name => if (← get).anchors.contains name then malformed

/-- The tag of a scalar, by a rule for those without one. -/
def scalarTag (tagOf : String → String) (tag : Option String) (plain : Bool) (text : String) :
    String :=
  match tag with
  | none => if plain then tagOf text else coreTag "str"
  | some "!" => tagOf text
  | some given => given

section Nodes

/- The rule for the tags of plain scalars. -/
variable (tagOf : String → String)

mutual

/-- A node.  Block collections may start only where `block` says so, and entries
without a collection of their own only where `indentless` says so. -/
def node (block indentless : Bool) : Nat → Composer Node
  | 0 => malformed
  | fuel + 1 => do
    match ← peek with
    | some (.alias name) =>
      skip
      match (← get).anchors.find? name with
      | some found => return found
      | none => malformed
    | _ =>
      let { anchor, tag } ← properties
      checkAnchor anchor
      let sequenceTag := collectionTag "seq" tag
      let mappingTag := collectionTag "map" tag
      let found ← match ← peek with
        | some (.scalar text plain) => do
          skip
          pure (.scalar (scalarTag tagOf tag plain text) text)
        | some .flowSequenceStart => do
          skip
          anchorAt anchor (.sequence sequenceTag [])
          pure (.sequence sequenceTag (← flowItems true fuel))
        | some .flowMappingStart => do
          skip
          anchorAt anchor (.mapping mappingTag [])
          pure (.mapping mappingTag (← flowEntries true fuel))
        | next =>
          if indentless && next == some .blockEntry then do
            anchorAt anchor (.sequence sequenceTag [])
            pure (.sequence sequenceTag (← indentlessItems fuel))
          else if block && next == some .blockSequenceStart then do
            skip
            anchorAt anchor (.sequence sequenceTag [])
            pure (.sequence sequenceTag (← blockItems fuel))
          else if block && next == some .blockMappingStart then do
            skip
            anchorAt anchor (.mapping mappingTag [])
            pure (.mapping mappingTag (← blockEntries fuel))
          else if anchor.isSome || tag.isSome then
            pure (.scalar (scalarTag tagOf tag true "") "")
          else malformed
      anchorAt anchor found
      return found

/-- A node, or none where one of some tokens shows that it is left out. -/
def nodeUnless (ends : List Token) (block indentless : Bool) : Nat → Composer Node
  | 0 => malformed
  | fuel + 1 => do
    if ← nextIn ends then return emptyNode else node block indentless fuel

/-- The items of a block sequence, up to its end. -/
def blockItems : Nat → Composer (List Node)
  | 0 => malformed
  | fuel + 1 => do
    if ← take? .blockEntry then
      let item ← nodeUnless [.blockEntry, .blockEnd] true false fuel
      return item :: (← blockItems fuel)
    else if ← take? .blockEnd then return []
    else malformed

/-- The items of a sequence that is not indented beyond the key before it. -/
def indentlessItems : Nat → Composer (List Node)
  | 0 => malformed
  | fuel + 1 => do
    if ← take? .blockEntry then
      let item ← nodeUnless [.blockEntry, .key, .value, .blockEnd] true false fuel
      return item :: (← indentlessItems fuel)
    else return []

/-- The entries of a block mapping, up to its end. -/
def blockEntries : Nat → Composer (List (Node × Node))
  | 0 => malformed
  | fuel + 1 => do
    if ← nextIn [.key, .value] then
      let ends : List Token := [.key, .value, .blockEnd]
      let key ← if ← take? .key then nodeUnless ends true true fuel else malformed
      let value ← if ← take? .value then nodeUnless ends true true fuel else pure emptyNode
      return (key, value) :: (← blockEntries fuel)
    else if ← take? .blockEnd then return []
    else malformed

/-- The items of a flow sequence, up to its end. -/
def flowItems (first : Bool) : Nat → Composer (List Node)
  | 0 => malformed
  | fuel + 1 => do
    if ← take? .flowSequenceEnd then return []
    if !first then
      if !(← take? .flowEntry) then malformed
    if ← take? .flowSequenceEnd then return []
    let item ←
      if ← take? .key then do
        let key ← nodeUnless [.value, .flowEntry, .flowSequenceEnd] false false fuel
        let value ←
          if ← take? .value then nodeUnless [.flowEntry, .flowSequenceEnd] false false fuel
          else pure emptyNode
        pure (.mapping (coreTag "map") [(key, value)])
      else node false false fuel
    return item :: (← flowItems false fuel)

/-- The entries of a flow mapping, up to its end. -/
def flowEntries (first : Bool) : Nat → Composer (List (Node × Node))
  | 0 => malformed
  | fuel + 1 => do
    if ← take? .flowMappingEnd then return []
    if !first then
      if !(← take? .flowEntry) then malformed
    if ← take? .flowMappingEnd then return []
    let entry ←
      if ← take? .key then do
        let key ← nodeUnless [.value, .flowEntry, .flowMappingEnd] false false fuel
        let value ←
          if ← take? .value then nodeUnless [.flowEntry, .flowMappingEnd] false false fuel
          else pure emptyNode
        pure (key, value)
      else do
        let key ← node false false fuel
        pure (key, emptyNode)
    return entry :: (← flowEntries false fuel)

end

end Nodes

/-- The handles that are always known. -/
def standardHandles : Table String String := ⟨[("!", "!"), ("!!", coreTag "")]⟩

/-- Read the directives of a document.  Each may be given once. -/
def directives (versioned : Bool) (handles : Table String String) :
    List Directive → Composer (Table String String)
  | [] => return handles
  | .version major :: rest =>
    if versioned || major != 1 then malformed else directives true handles rest
  | .handle name expansion :: rest =>
    if handles.contains name then malformed
    else directives versioned (handles.insert name expansion) rest
  | .unknown :: rest => directives versioned handles rest

/-- The directives at the start of tokens. -/
def leadingDirectives : List Token → List Directive
  | .directive directive :: rest => directive :: leadingDirectives rest
  | _ => []

/-- The node of a document that starts with a mark. -/
def explicitDocument (tagOf : String → String) (fuel : Nat) : Composer Node := do
  let given := leadingDirectives (← get).tokens
  let own ← directives false {} given
  modify fun state =>
    { state with
      tokens := state.tokens.drop given.length
      handles := standardHandles.merge own }
  if !(← take? .documentStart) then malformed
  match ← peek with
  | none => return emptyNode
  | some (.directive _) => return emptyNode
  | _ => nodeUnless tagOf [.documentStart, .documentEnd] true false fuel

/-- The node of the only document, if there is one. -/
def singleDocument (tagOf : String → String) (fuel : Nat) : Composer (Option Node) := do
  let found ← match ← peek with
    | none => pure none
    | some (.directive _) => some <$> explicitDocument tagOf fuel
    | some .documentStart => some <$> explicitDocument tagOf fuel
    | some _ => some <$> node tagOf true false fuel
  let rest := (← get).tokens.dropWhile (· == .documentEnd)
  if rest.isEmpty then return found else malformed

end Composer

/-- The node of the only document of a text, if it has one. -/
def node? (tagOf : String → String) (text : String) : Except Failure (Option Node) := do
  let found ← tokens text
  let start : Composition := { tokens := found, handles := Composer.standardHandles }
  (Composer.singleDocument tagOf (3 * found.length + 3)).run' start

end ContractCalls.Yaml
