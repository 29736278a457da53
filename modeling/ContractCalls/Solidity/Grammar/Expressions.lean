import ContractCalls.Solidity.Grammar.Parser

/-!
Contract: the grammar of types and expressions.

Owns:
- the elementary types and the collections built from types;
- primary expressions;
- the order in which operators and suffixes bind.

Does not own: statements and declarations.

Operators bind by level.  The suffixes that select a member, an element or call
options bind as loosely as a conditional, below every binary operator, so they
apply to a whole operator expression before them.  A bare identifier that is an
operand is the exception: it takes one member for itself if what follows that
member does not bind to it.

The depth of the recursion is bounded by a budget that grows with the number of
lexemes; no expression needs more.
-/

set_option autoImplicit false

namespace ContractCalls.Solidity.Grammar

open ContractCalls.Syntax ContractCalls.Solidity.Grammar.Parser

/-! ## Words with a fixed meaning -/

/-- Whether a word is a stem followed by one of the given sizes. -/
def isSizedWord (stem : String) (sizes : List Nat) (word : String) : Bool :=
  match Lexical.afterWord? stem word.toList with
  | some size => sizes.any fun allowed => toString allowed == String.ofList size
  | none => false

def integerSizes : List Nat := (List.range 32).map fun index => 8 * (index + 1)

def byteSizes : List Nat := (List.range 32).map fun index => index + 1

/-- Whether a word is a fixed-point type that gives its sizes. -/
def isSizedFixed (word : String) : Bool :=
  ["fixed", "ufixed"].any fun stem =>
    match Lexical.afterWord? stem word.toList with
    | some sizes => !sizes.isEmpty && Lexical.isFixedSizes sizes
    | none => false

/-- The words that are elementary types. -/
def isPrimitive (word : String) : Bool :=
  ["address", "bool", "string", "var", "byte", "bytes", "int", "uint", "fixed",
   "ufixed"].contains word ||
    isSizedWord "int" integerSizes word || isSizedWord "uint" integerSizes word ||
    isSizedWord "bytes" byteSizes word || isSizedFixed word

/-- The words that start an expression of their own kind. -/
def expressionWords : List String :=
  ["new", "delete", "true", "false", "payable", "type", "hex", "unicode"]

/-- The words that start a type of their own kind. -/
def typeWords : List String := ["mapping", "function"]

/-- The words that start a statement of their own kind. -/
def statementWords : List String :=
  ["unchecked", "if", "for", "while", "do", "try", "return", "emit", "revert", "assembly",
   "break", "continue"]

/-- The words that are no names where an expression can start. -/
def startsExpression (word : String) : Bool := isPrimitive word || expressionWords.contains word

/-- The words that are no names where a statement can start. -/
def startsStatement (word : String) : Bool :=
  startsExpression word || typeWords.contains word || statementWords.contains word

def numberUnits : List String :=
  ["wei", "szabo", "finney", "gwei", "ether", "seconds", "minutes", "hours", "days", "weeks",
   "years"]

def visibilityWords : List String := ["public", "internal", "private", "external"]

def mutabilityWords : List String := ["pure", "view", "payable"]

def locationWords : List String := ["memory", "storage", "calldata"]

def visibility : Parser Piece := do
  return branch "visibility" [← tokenAmong visibilityWords]

def stateMutability : Parser Piece := do
  return branch "state_mutability" [← tokenAmong mutabilityWords]

def location : Parser Piece := inRole "location" <$> tokenAmong locationWords

/-- An elementary type. -/
def primitiveType : Parser Piece := do
  let word ← take fun lexeme => lexeme.kind == .word && isPrimitive lexeme.text
  let payable ← if word.text == "address" then maybe (token "payable") else pure []
  return branch "primitive_type" (bare word :: payable)

/-- A name with names of its parts, at most the given number of them. -/
def identifierPath (accepts : String → Bool) (parts : Nat) : Parser (List Piece) := do
  let first ← identifierThat accepts
  let later ← manyUpTo (do return [← token ".", ← identifier]) parts
  return first :: later.flatten

/-- Any name with any number of names of its parts. -/
def wholePath : Parser (List Piece) := do identifierPath (fun _ => true) (← get).length

/-- A name where no other type can stand. -/
def namedType : Parser Piece := do return branch "user_defined_type" (← wholePath)

/-- Where a type stands. -/
inductive TypePlace where
  /-- Where nothing but a type can stand. -/
  | alone
  /-- Where an expression could stand as well. -/
  | besideExpressions
  /-- Behind the word that creates a value, where a point starts a member of what
  is created. -/
  | created
  deriving Repr, DecidableEq

/-- Whether a word can be the first name of a type. -/
def TypePlace.admits (word : String) : TypePlace → Bool
  | besideExpressions => !startsExpression word
  | _ => true

/-- How many names of parts a type can have, before the given number of
lexemes. -/
def TypePlace.parts (remaining : Nat) : TypePlace → Nat
  | alone => remaining
  | besideExpressions => 1
  | created => 0

/-! ## Levels of operators and suffixes -/

/-- How an expression goes on. -/
inductive Continuation where
  | assignment
  | augmented
  | conditional
  | member
  | element
  | options
  | binary
  | increment
  | call
  deriving Repr, DecidableEq

/-- The binary operators with their levels. -/
def binaryLevels : List (String × Nat) :=
  [("||", 2), ("&&", 3), ("==", 4), ("!=", 4), ("<", 5), ("<=", 5), (">", 5), (">=", 5),
   ("|", 6), ("^", 7), ("&", 8), ("<<", 9), (">>", 9), ("+", 10), ("-", 10), ("*", 11),
   ("/", 11), ("%", 11), ("**", 12)]

def augmentedOperators : List String :=
  ["+=", "-=", "*=", "/=", "%=", "^=", "&=", "|=", ">>=", "<<="]

/-- What an opening brace behind an expression can start. -/
inductive BraceUse where
  /-- Call options. -/
  | options
  /-- Call options, or the block of a statement that the expression stands in. -/
  | optionsOrBlock
  deriving Repr, DecidableEq

/-- Whether an opening brace starts call options, given what follows it.  A block
without statements is told from no options by the clause behind it. -/
def BraceUse.startsOptions : BraceUse → List Lexeme → Bool
  | options, _ => true
  | optionsOrBlock, first :: second :: _ =>
    (first.kind == .word && !startsStatement first.text && isToken ":" second) ||
      (isToken "\x7d" first && !isToken "catch" second)
  | optionsOrBlock, _ => false

/-- How the expression before these lexemes goes on, and how tightly. -/
def continuation? (braces : BraceUse) : List Lexeme → Option (Continuation × Nat)
  | [] => none
  | lexeme :: rest =>
    if lexeme.kind != .symbol then none
    else if lexeme.text == "=" then some (.assignment, 0)
    else if augmentedOperators.contains lexeme.text then some (.augmented, 0)
    else if lexeme.text == "?" then some (.conditional, 1)
    else if lexeme.text == "." then some (.member, 1)
    else if lexeme.text == "[" then some (.element, 1)
    else if lexeme.text == "\x7b" then
      if braces.startsOptions rest then some (.options, 1) else none
    else if lexeme.text == "++" || lexeme.text == "--" then some (.increment, 14)
    else if lexeme.text == "(" then some (.call, 15)
    else (binaryLevels.lookup lexeme.text).map fun level => (.binary, level)

def prefixOperators : List String := ["!", "~", "-", "delete", "++", "--"]

/-- The level of prefix operators. -/
def prefixLevel : Nat := 13

/-- A level above all others. -/
def topLevel : Nat := 16

/-- Where an expression stands.  An operand has to bind more tightly than the
operator before it; assignments associate to the right. -/
inductive Context where
  /-- On its own: a whole expression. -/
  | free
  /-- To the right of an operator of the given level. -/
  | operand (level : Nat)
  deriving Repr, DecidableEq

/-- Whether an expression in a context may go on with something of a level. -/
def Context.admits : Context → Nat → Bool
  | free, _ => true
  | operand level, next => level < next || (level == 0 && next == 0)

/-- The level of the innermost operator around a context that is no
assignment. -/
def Context.bound (low : Nat) : Context → Nat
  | free => topLevel
  | operand level => if level == 0 then topLevel else min low level

/-- Whether a bare identifier in a context takes the member that follows it. -/
def Context.takesMember (context : Context) (braces : BraceUse) (low : Nat) :
    List Lexeme → Bool
  | dot :: _ :: after =>
    isToken "." dot &&
      (match context with
       | free => false
       | operand level => 1 ≤ level) &&
      (match continuation? braces after with
       | some (_, next) => next ≤ low
       | none => true)
  | _ => false

/-! ## Nodes of expressions -/

/-- The transparent node around every expression that is a part of a larger
node. -/
def wrapped (core : Piece) : Piece := branch "expression" [core]

/-- The object of a member access: a bare identifier is not wrapped. -/
def memberObject (core : Piece) : Piece :=
  inRole "object" (if core.kind == "identifier" then core else wrapped core)

def memberOf (object : Piece) : Parser Piece := do
  let dot ← token "."
  let name ← identifier
  return branch "member_expression" [memberObject object, dot, inRole "property" name]

/-- A text in quotes: the node and its two quotes. -/
def stringPiece (lexeme : Lexeme) : Piece :=
  let quote := String.ofList (lexeme.text.toList.take 1)
  let mark (start : Nat) : Piece :=
    { kind := quote, extent := ⟨start, start + 1⟩, named := false }
  { kind := "string", extent := lexeme.span
    children := [mark lexeme.span.start, mark (lexeme.span.stop - 1)] }

def stringLexeme : Parser Lexeme := take fun lexeme => lexeme.kind == .string

/-- Strings, each behind a word that says how it is written. -/
def markedStrings (mark kind : String) (marked : LexemeKind) : Parser Piece := do
  let pieces ← atLeastOnce do
    let word ← token mark
    let text ← take fun lexeme => lexeme.kind == marked
    pure (word :: (stringPiece text).children)
  return branch kind pieces.flatten

def stringLiteral : Parser Piece := do
  let texts ← atLeastOnce stringLexeme
  return branch "string_literal" (texts.map stringPiece)

def numberLiteral : Parser Piece := do
  let number ← take fun lexeme => lexeme.kind == .number
  match ← attempt (tokenAmong numberUnits) with
  | none => return leaf "number_literal" number
  | some unit =>
    let unitNode := branch "number_unit" [unit]
    return { kind := "number_literal"
             extent := ⟨number.span.start, unit.extent.stop⟩
             children := [unitNode] }

def booleanLiteral : Parser Piece := do
  let word ← take fun lexeme => isToken "true" lexeme || isToken "false" lexeme
  return branch "boolean_literal" [leaf word.text word]

/-- A tuple, or a single expression in parentheses. -/
def parenthesized (pieces : List Piece) : Piece :=
  match pieces with
  | [_, _, _] =>
    if pieces.any fun piece => piece.kind == "," then branch "tuple_expression" pieces
    else branch "parenthesized_expression" pieces
  | _ => branch "tuple_expression" pieces

/-! ## Types and expressions -/

mutual

/-- A type. -/
def typeName : Nat → TypePlace → Parser Piece
  | 0, _ => failure
  | budget + 1, place => do
    let word ← nextWord
    let base ←
      if word == "mapping" then mappingType budget
      else if word == "function" then functionType budget
      else if isPrimitive word then do pure (branch "type_name" [← primitiveType])
      else do
        let path ← identifierPath (place.admits ·) (place.parts (← get).length)
        pure (branch "type_name" [branch "user_defined_type" path])
    arraySuffixes budget base

/-- The array suffixes of a type. -/
def arraySuffixes : Nat → Piece → Parser Piece
  | 0, base => pure base
  | budget + 1, base => do
    match ← attempt (token "[") with
    | none => return base
    | some opening =>
      let size ← maybe (wholeExpression budget)
      let closing ← token "]"
      arraySuffixes budget (branch "type_name" (base :: opening :: size ++ [closing]))

def mappingType : Nat → Parser Piece
  | 0 => failure
  | budget + 1 => do
    let word ← token "mapping"
    let opening ← token "("
    let key ← if isPrimitive (← nextWord) then primitiveType else namedType
    let keyName ← maybe (inRole "key_identifier" <$> identifier)
    let arrow ← token "=>"
    let value ← typeName budget .alone
    let valueName ← maybe (inRole "value_identifier" <$> identifier)
    let closing ← token ")"
    return branch "type_name"
      ([word, opening, inRole "key_type" key] ++ keyName ++
        [arrow, inRole "value_type" value] ++ valueName ++ [closing])

/-- The type of a function.  Its results have no names, and there is at least
one if they are given. -/
def functionType : Nat → Parser Piece
  | 0 => failure
  | budget + 1 => do
    let word ← token "function"
    let parameters ← parameterList budget
    let specifiers ← many (visibility <|> stateMutability)
    let results ← behind "returns" do
      let returns ← token "returns"
      let types ← between "(" ")" (commaSeparated do
        let type ← typeName budget .alone
        return branch "return_parameter" (inRole "type" type :: (← maybe location)))
      return returns :: types
    return branch "type_name"
      ([word] ++ parameters.map (inRole "parameters") ++ specifiers ++ results)

/-- Parameters in parentheses. -/
def parameterList : Nat → Parser (List Piece)
  | 0 => failure
  | budget + 1 => between "(" ")" (maybeAll (commaSeparated do
      let type ← typeName budget .alone
      let place ← maybe location
      let name ← maybe (inRole "name" <$> identifier)
      return branch "parameter" ([inRole "type" type] ++ place ++ name)))

/-- An expression on its own. -/
def wholeExpression : Nat → Parser Piece
  | 0 => failure
  | budget + 1 => wrapped <$> operatorExpression budget .options .free topLevel

/-- An expression in a context; `low` is the level that a member of a bare
identifier must not be exceeded by. -/
def operatorExpression : Nat → BraceUse → Context → Nat → Parser Piece
  | 0, _, _, _ => failure
  | budget + 1, braces, context, outer => do
    let low := context.bound outer
    let first ←
      if ← nextAmong prefixOperators then prefixExpression budget braces low
      else primary budget
    let start ←
      if first.kind == "identifier" && context.takesMember braces low (← get) then
        memberOf first
      else pure first
    continued budget braces context low start

/-- An expression behind a prefix operator. -/
def prefixExpression : Nat → BraceUse → Nat → Parser Piece
  | 0, _, _ => failure
  | budget + 1, braces, low => do
    let operator ← tokenAmong prefixOperators
    let operand ← operatorExpression budget braces (.operand prefixLevel) low
    let kind := if operator.kind == "++" || operator.kind == "--" then
      "update_expression" else "unary_expression"
    return branch kind [inRole "operator" operator, inRole "argument" (wrapped operand)]

/-- All that follows an expression and binds to it in its context. -/
def continued : Nat → BraceUse → Context → Nat → Piece → Parser Piece
  | 0, _, _, _, _ => failure
  | budget + 1, braces, context, low, left => do
    match continuation? braces (← get) with
    | none => return left
    | some (form, level) =>
      if !context.admits level then return left
      let next ← continuedBy budget braces low left level form
      continued budget braces context low next

/-- An expression with one operator or suffix more.  To the right of an assignment
a brace never starts a block. -/
def continuedBy : Nat → BraceUse → Nat → Piece → Nat → Continuation → Parser Piece
  | 0, _, _, _, _, _ => failure
  | budget + 1, braces, low, left, level, form => do
    match form with
    | .assignment =>
      let operator ← token "="
      let right ← operatorExpression budget .options (.operand 0) low
      return branch "assignment_expression"
        [inRole "left" (wrapped left), operator, inRole "right" (wrapped right)]
    | .augmented =>
      let operator ← tokenAmong augmentedOperators
      let right ← operatorExpression budget .options (.operand 0) low
      return branch "augmented_assignment_expression"
        [inRole "left" (wrapped left), operator, inRole "right" (wrapped right)]
    | .conditional =>
      let question ← token "?"
      let positive ← wholeExpression budget
      let colon ← token ":"
      let negative ← operatorExpression budget braces (.operand 1) low
      return branch "ternary_expression"
        [wrapped left, question, positive, colon, wrapped negative]
    | .member => memberOf left
    | .element => elementAccess budget left
    | .options => callOptions budget left
    | .binary =>
      let operator ← tokenAmong (binaryLevels.map Prod.fst)
      let right ← operatorExpression budget braces (.operand level) low
      return branch "binary_expression"
        [inRole "left" (wrapped left), inRole "operator" operator,
         inRole "right" (wrapped right)]
    | .increment =>
      let operator ← tokenAmong ["++", "--"]
      return branch "update_expression"
        [inRole "argument" (wrapped left), inRole "operator" operator]
    | .call =>
      return branch "call_expression"
        (inRole "function" (wrapped left) :: (← callArguments budget))

/-- An element or a slice of an array. -/
def elementAccess : Nat → Piece → Parser Piece
  | 0, _ => failure
  | budget + 1, base => do
    let opening ← token "["
    let first ← maybe (wholeExpression budget)
    match ← attempt (token ":") with
    | some colon =>
      let last ← maybe (wholeExpression budget)
      let closing ← token "]"
      return branch "slice_access"
        ([inRole "base" (wrapped base), opening] ++ first.map (inRole "from") ++ [colon] ++
          last.map (inRole "to") ++ [closing])
    | none =>
      let closing ← token "]"
      return branch "array_access"
        ([inRole "base" (wrapped base), opening] ++ first.map (inRole "index") ++ [closing])

/-- The options of a call, between braces. -/
def callOptions : Nat → Piece → Parser Piece
  | 0, _ => failure
  | budget + 1, target => do
    let options ← between "\x7b" "\x7d"
      (maybeAll (commaSeparated (assignedName budget "struct_field_assignment")))
    return branch "struct_expression" (inRole "type" (wrapped target) :: options)

/-- A name with a value. -/
def assignedName : Nat → String → Parser Piece
  | 0, _ => failure
  | budget + 1, kind => do
    let name ← identifier
    let colon ← token ":"
    let value ← wholeExpression budget
    return branch kind [inRole "name" name, colon, inRole "value" value]

/-- The arguments of a call in parentheses. -/
def callArguments : Nat → Parser (List Piece)
  | 0 => failure
  | budget + 1 => between "(" ")" (maybeAll (commaSeparated (callArgument budget)))

/-- One argument: an expression, or arguments by name between braces. -/
def callArgument : Nat → Parser Piece
  | 0 => failure
  | budget + 1 => do
    if ← nextIs "\x7b" then
      return branch "call_argument"
        (← between "\x7b" "\x7d"
          (maybeAll (commaSeparated (assignedName budget "call_struct_argument"))))
    else return branch "call_argument" [← wholeExpression budget]

/-- An expression without operators around it. -/
def primary : Nat → Parser Piece
  | 0 => failure
  | budget + 1 => do
    match ← peek with
    | none => failure
    | some lexeme =>
      match lexeme.kind with
      | .number => numberLiteral
      | .string => stringLiteral
      | .symbol =>
        if lexeme.text == "(" then
          let inside ← between "(" ")" do
            let first ← maybe (wholeExpression budget)
            let later ← many do return (← token ",") :: (← maybe (wholeExpression budget))
            return first ++ later.flatten
          return parenthesized inside
        else if lexeme.text == "[" then
          return branch "inline_array_expression"
            (← between "[" "]" (maybeAll (commaSeparated (wholeExpression budget))))
        else failure
      | .word =>
        if lexeme.text == "true" || lexeme.text == "false" then booleanLiteral
        else if lexeme.text == "new" then newExpression budget
        else if lexeme.text == "type" then metaType budget
        else if lexeme.text == "payable" then payableConversion budget
        else if lexeme.text == "hex" then
          markedStrings "hex" "hex_string_literal" .hexString
        else if lexeme.text == "unicode" then
          markedStrings "unicode" "unicode_string_literal" .string
        else if isPrimitive lexeme.text then typeOrCast budget
        else identifier
      | _ => failure

/-- The creation of a contract or an array. -/
def newExpression : Nat → Parser Piece
  | 0 => failure
  | budget + 1 => do
    return branch "new_expression" [← token "new", inRole "name" (← typeName budget .created)]

/-- What is known of a type. -/
def metaType : Nat → Parser Piece
  | 0 => failure
  | budget + 1 => do
    let word ← token "type"
    let type ← between "(" ")" do return [← typeName budget .alone]
    return branch "meta_type_expression" (word :: type)

/-- A conversion to a payable address. -/
def payableConversion : Nat → Parser Piece
  | 0 => failure
  | budget + 1 => do
    let word ← token "payable"
    return branch "payable_conversion_expression" (word :: (← callArguments budget))

/-- An elementary type, applied to arguments or on its own. -/
def typeOrCast : Nat → Parser Piece
  | 0 => failure
  | budget + 1 => do
    let type ← primitiveType
    if ← nextIs "(" then
      return branch "type_cast_expression" (type :: (← callArguments budget))
    else return type

end

/-- More steps than any expression or type in the lexemes takes. -/
def budgetFor (input : List Lexeme) : Nat := 16 * (input.length + 2)

/-- An expression on its own. -/
def expression : Parser Piece := do wholeExpression (budgetFor (← get))

/-- An expression that a block follows. -/
def expressionBeforeBlock : Parser Piece := do
  wrapped <$> operatorExpression (budgetFor (← get)) .optionsOrBlock .free topLevel

def typeAt (place : TypePlace) : Parser Piece := do typeName (budgetFor (← get)) place

/-- A type where nothing else can stand. -/
def type : Parser Piece := typeAt .alone

/-- Parameters in parentheses. -/
def parameters : Parser (List Piece) := do parameterList (budgetFor (← get))

/-- The arguments of a call in parentheses. -/
def argumentList : Parser (List Piece) := do callArguments (budgetFor (← get))

end ContractCalls.Solidity.Grammar
