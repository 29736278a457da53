import ContractCalls.Yaml.Scalar

/-!
Contract: a YAML text as a list of tokens.

Owns:
- what may stand where, and which token a character starts;
- the tokens that indentation and colons add: the start and end of block
  collections, and the mark before a key.

Main definition: `tokens`.
-/

set_option autoImplicit false

namespace ContractCalls.Yaml

namespace Scanner

/-- Skip blanks, comments and line ends.  A new line may start with a key, except
inside flow collections. -/
def toNextToken : Nat → Scanner Unit
  | 0 => return
  | fuel + 1 => do
    skipSpaces
    skipComment
    let taken ← lineBreak
    if taken.isEmpty then return
    if (← get).depth == 0 then allowKey true
    toNextToken fuel

/-- End all block collections, and the possible key with them. -/
def endBlocks : Scanner Unit := do
  closeBlocks (-1)
  dropKey
  allowKey false

/-- A token that may be a key. -/
def addPossibleKey (scan : Scanner Token) : Scanner Unit := do
  saveKey
  allowKey false
  add (← scan)

/-- The start of a flow collection, which may be a key. -/
def startFlow (token : Token) : Scanner Unit := do
  saveKey
  modify fun scan => { scan with depth := scan.depth + 1 }
  allowKey true
  forward 1
  add token

def endFlow (token : Token) : Scanner Unit := do
  dropKey
  modify fun scan => { scan with depth := scan.depth - 1 }
  allowKey false
  forward 1
  add token

def addFlowEntry : Scanner Unit := do
  allowKey true
  dropKey
  forward 1
  add .flowEntry

/-- An indicator outside flow collections starts a block collection at its
column, where a key has to be allowed. -/
def startBlock (token : Token) : Scanner Unit := do
  let scan ← get
  if scan.depth == 0 then
    if !scan.keyAllowed then malformed
    if ← openBlock scan.cursor.column then add token

def addBlockEntry : Scanner Unit := do
  startBlock .blockSequenceStart
  allowKey true
  dropKey
  forward 1
  add .blockEntry

def addKey : Scanner Unit := do
  startBlock .blockMappingStart
  allowKey ((← get).depth == 0)
  dropKey
  forward 1
  add .key

/-- A colon.  A possible key before it is one; the start of its mapping goes
before it too. -/
def addValue : Scanner Unit := do
  match ← possibleKey? with
  | some key =>
    forgetKey
    insertAt key.place .key
    if (← get).depth == 0 then
      if ← openBlock key.column then insertAt key.place .blockMappingStart
    allowKey false
  | none =>
    startBlock .blockMappingStart
    allowKey ((← get).depth == 0)
    dropKey
  forward 1
  add .value

def addBlockScalar (folded : Bool) : Scanner Unit := do
  allowKey true
  dropKey
  add (← blockScalar folded)

/-- Whether a plain scalar starts with a character, given the one after it. -/
def startsPlain (inFlow : Bool) (char : Char) (after : Option Char) : Bool :=
  let indicators : List Char :=
    ['-', '?', ':', ',', '[', ']', '\x7b', '\x7d', '#', '&', '*', '!', '|', '>', '\'', '"', '%',
      '@', '\x60']
  !(isSpaceOrTab char || isBreak char || indicators.contains char) ||
    (!endsIndicator after && (char == '-' || (!inFlow && (char == '?' || char == ':'))))

/-- Add the next token.  The result says whether there was one. -/
def addNext : Scanner Bool := do
  toNextToken ((← rest).length + 1)
  dropStaleKeys
  let cursor := (← get).cursor
  closeBlocks cursor.column
  let inFlow := (← get).depth != 0
  let after ← peek 1
  let atMark := cursor.column == 0 && atDocumentMark cursor.rest
  match ← peek 0 with
  | none =>
    endBlocks
    return false
  | some char =>
    if char == '%' && cursor.column == 0 then do
      endBlocks
      add (← directiveToken)
    else if atMark then do
      endBlocks
      forward 3
      add (if char == '-' then .documentStart else .documentEnd)
    else if char == '[' then startFlow .flowSequenceStart
    else if char == '\x7b' then startFlow .flowMappingStart
    else if char == ']' then endFlow .flowSequenceEnd
    else if char == '\x7d' then endFlow .flowMappingEnd
    else if char == ',' then addFlowEntry
    else if char == '-' && endsIndicator after then addBlockEntry
    else if char == '?' && (inFlow || endsIndicator after) then addKey
    else if char == ':' && (inFlow || endsIndicator after) then addValue
    else if char == '*' then addPossibleKey (Token.alias <$> anchorName)
    else if char == '&' then addPossibleKey (Token.anchor <$> anchorName)
    else if char == '!' then addPossibleKey tagToken
    else if char == '|' && !inFlow then addBlockScalar false
    else if char == '>' && !inFlow then addBlockScalar true
    else if char == '\'' || char == '"' then addPossibleKey (quotedScalar char)
    else if startsPlain inFlow char after then addPossibleKey plainScalar
    else malformed
    return true

/-- Add tokens until there are no more. -/
def addAll : Nat → Scanner Unit
  | 0 => return
  | fuel + 1 => do
    if ← addNext then addAll fuel

end Scanner

/-- A text without the byte-order mark at its start. -/
def dropMark : List Char → List Char
  | '\ufeff' :: rest => rest
  | text => text

/-- The tokens of a text. -/
def tokens (text : String) : Except Failure (List Token) := do
  let chars := text.toList
  if !chars.all isAllowed then throw .malformed
  let start : Scan := { cursor := { rest := dropMark chars } }
  let (_, finished) ← (Scanner.addAll (chars.length + 1)).run start
  return finished.tokens.toList

end ContractCalls.Yaml
