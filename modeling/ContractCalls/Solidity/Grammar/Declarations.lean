import ContractCalls.Solidity.Grammar.Pragma
import ContractCalls.Solidity.Grammar.Statements

/-!
Contract: the grammar of declarations.

Owns what stands at the top of a source and in the body of a contract.

The word that a declaration starts with decides its form.  Words that start no
declaration at that place are names of types.
-/

set_option autoImplicit false

namespace ContractCalls.Solidity.Grammar

open ContractCalls.Syntax ContractCalls.Solidity.Grammar.Parser

/-- A name in the role of the name. -/
def definedName : Parser Piece := inRole "name" <$> identifier

/-- A body, or the semicolon in place of one. -/
def bodyOrEnd : Parser Piece := token ";" <|> (inRole "body" <$> functionBody)

/-! ## Specifiers -/

def overrideSpecifier : Parser Piece := do
  let word ← token "override"
  let bases ← behind "(" (between "(" ")" (commaSeparated namedType))
  return branch "override_specifier" (word :: bases)

def virtualSpecifier : Parser Piece :=
  leaf "virtual" <$> take (isToken "virtual")

/-- The words that start a specifier of their own or end the specifiers. -/
def specifierWords : List String := ["returns", "virtual", "override"]

/-- A modifier applied to a function, with arguments or without. -/
def modifierInvocation (reserved : List String) : Parser Piece := do
  let path ← identifierPath (!reserved.contains ·) (← get).length
  let arguments ← behind "(" argumentList
  return branch "modifier_invocation" (path ++ arguments)

def functionSpecifier : Parser Piece :=
  visibility <|> stateMutability <|> virtualSpecifier <|> overrideSpecifier <|>
    modifierInvocation specifierWords

def returnTypes : Parser Piece := do
  return inRole "return_type"
    (branch "return_type_definition" ((← token "returns") :: (← parameters)))

/-! ## Members of a contract -/

def functionDefinition : Parser Piece := do
  let word ← token "function"
  let name ← definedName
  let inputs ← parameters
  let specifiers ← many functionSpecifier
  let results ← behind "returns" do return [← returnTypes]
  let body ← bodyOrEnd
  return branch "function_definition"
    (word :: name :: inputs ++ specifiers ++ results ++ [body])

def constructorDefinition : Parser Piece := do
  let word ← token "constructor"
  let inputs ← parameters
  let specifiers ←
    many (tokenAmong ["payable", "public", "internal"] <|> modifierInvocation [])
  let body ← inRole "body" <$> functionBody
  return branch "constructor_definition" (word :: inputs ++ specifiers ++ [body])

/-- A function without a name, which takes what no other function takes, with
its own word in front. -/
def fallbackReceiveDefinition (reserved : List String) : Parser Piece := do
  let word ← tokenAmong ["fallback", "receive", "function"]
  let inputs ← parameters
  if ← nextAmong reserved then failure
  let specifiers ← many functionSpecifier
  let results ← behind "returns" do return (← token "returns") :: (← parameters)
  let body ← bodyOrEnd
  return branch "fallback_receive_definition"
    (word :: inputs ++ specifiers ++ results ++ [body])

def modifierDefinition : Parser Piece := do
  let word ← token "modifier"
  let name ← definedName
  let inputs ← behind "(" parameters
  let specifiers ← many (virtualSpecifier <|> overrideSpecifier)
  let body ← bodyOrEnd
  return branch "modifier_definition" (word :: name :: inputs ++ specifiers ++ [body])

/-- The words of a state variable that no function has. -/
def variableWords : List String := ["constant", "immutable", "transient"]

def variableSpecifier : Parser Piece :=
  visibility <|> token "constant" <|> (leaf "immutable" <$> take (isToken "immutable")) <|>
    token "transient" <|> overrideSpecifier

def stateVariableDeclaration : Parser Piece := do
  let type ← inRole "type" <$> type
  let specifiers ← many variableSpecifier
  let name ← definedName
  let value ← behind "=" initialValue
  return branch "state_variable_declaration"
    (type :: specifiers ++ name :: value ++ [← token ";"])

def eventDefinition : Parser Piece := do
  let word ← token "event"
  let name ← definedName
  let inputs ← between "(" ")" (maybeAll (commaSeparated do
    let type ← inRole "type" <$> type
    let indexed ← maybe (token "indexed")
    let field ← maybe definedName
    return branch "event_parameter" (type :: indexed ++ field)))
  let anonymous ← maybe (token "anonymous")
  return branch "event_definition" (word :: name :: inputs ++ anonymous ++ [← token ";"])

def errorDeclaration : Parser Piece := do
  let word ← token "error"
  let name ← definedName
  let inputs ← between "(" ")" (maybeAll (commaSeparated do
    let type ← inRole "type" <$> type
    let field ← maybe definedName
    return branch "error_parameter" (type :: field)))
  return branch "error_declaration" (word :: name :: inputs ++ [← token ";"])

def structDeclaration : Parser Piece := do
  let word ← token "struct"
  let name ← definedName
  let body ← between "\x7b" "\x7d" (atLeastOnce do
    let type ← inRole "type" <$> type
    let field ← definedName
    return branch "struct_member" [type, field, ← token ";"])
  return branch "struct_declaration" [word, name, inRole "body" (branch "struct_body" body)]

def enumDeclaration : Parser Piece := do
  let word ← token "enum"
  let name ← definedName
  let body ← between "\x7b" "\x7d" do
    maybeAll (commaSeparated (leaf "enum_value" <$> take (·.kind == .word)))
  return branch "enum_declaration" [word, name, inRole "body" (branch "enum_body" body)]

def userDefinedTypeDefinition : Parser Piece := do
  let word ← token "type"
  let name ← definedName
  let relation ← token "is"
  let type ← primitiveType
  return branch "user_defined_type_definition" [word, name, relation, type, ← token ";"]

/-- The operators that a free function can be attached as. -/
def attachableOperators : List String :=
  ["+", "-", "*", "/", "%", "~", "&", "|", "^", "==", "!=", "<", "<=", ">", ">="]

/-- A free function attached to a type. -/
def usingAlias : Parser Piece := do
  let function ← namedType
  let operator ← behind "as" do return [← token "as", ← tokenAmong attachableOperators]
  return branch "using_alias" (function :: operator)

def usingDirective : Parser Piece := do
  let word ← token "using"
  let attached ←
    if ← nextIs "\x7b" then between "\x7b" "\x7d" (commaSeparated usingAlias)
    else do pure [branch "type_alias" (← wholePath)]
  let divider ← token "for"
  let target ←
    if ← nextIs "*" then do pure (branch "any_source_type" [← token "*"]) else type
  let everywhere ← maybe (token "global")
  return branch "using_directive"
    (word :: attached ++ [divider, inRole "source" target] ++ everywhere ++ [← token ";"])

/-- A function without a name, or a variable that holds a function. -/
def namelessFunction : Parser Piece :=
  fallbackReceiveDefinition variableWords <|> stateVariableDeclaration

/-- Whether a function without a name comes next. -/
def startsNamelessFunction : List Lexeme → Bool
  | _ :: opening :: _ => isToken "(" opening
  | _ => false

def contractMember : Parser Piece := do
  match ← nextWord with
  | "function" =>
    if startsNamelessFunction (← get) then namelessFunction else functionDefinition
  | "fallback" => fallbackReceiveDefinition []
  | "receive" => fallbackReceiveDefinition []
  | "constructor" => constructorDefinition
  | "modifier" => modifierDefinition
  | "event" => eventDefinition
  | "error" => errorDeclaration
  | "struct" => structDeclaration
  | "enum" => enumDeclaration
  | "using" => usingDirective
  | "type" => userDefinedTypeDefinition
  | _ => stateVariableDeclaration

/-! ## Sources -/

/-- A contract that is inherited from, with arguments or without. -/
def inheritanceSpecifier (reserved : List String) : Parser Piece := do
  let ancestor := branch "user_defined_type"
    (← identifierPath (!reserved.contains ·) (← get).length)
  let arguments ← behind "(" argumentList
  return branch "inheritance_specifier" (inRole "ancestor" ancestor :: arguments)

/-- Contracts to inherit from.  Behind a comma the word that introduces them is
not a name, since another list of them could start there. -/
def inheritance : Parser (List Piece) := do
  let word ← token "is"
  let first ← inheritanceSpecifier []
  let later ← many do return [← token ",", ← inheritanceSpecifier ["is"]]
  return word :: first :: later.flatten ++ (← maybe (token ","))

/-- A contract, interface or library, behind the words it starts with. -/
def contractDeclaration (kind : String) (words : Parser (List Piece)) : Parser Piece := do
  let opening ← words
  let name ← definedName
  let bases ← whenever "is" inheritance
  let body ← between "\x7b" "\x7d" (many contractMember)
  return branch kind
    (opening ++ name :: bases.flatten ++ [inRole "body" (branch "contract_body" body)])

/-- Another name for what is imported. -/
def importAlias : Parser (List Piece) :=
  behind "as" do return [← token "as", inRole "alias" (← identifier)]

/-- A name to import, with a name of its own in this source. -/
def importedName : Parser (List Piece) := do
  let name ← inRole "import_name" <$> identifier
  return name :: (← importAlias)

/-- What is imported, and from where. -/
def importClause : Parser (List Piece) := do
  let source : Parser Piece := inRole "source" <$> (stringPiece <$> stringLexeme)
  match ← attempt source with
  | some path => return path :: (← importAlias)
  | none =>
    let imported ←
      if ← nextIs "\x7b" then
        between "\x7b" "\x7d" (maybeAll (commaSeparatedGroups importedName))
      else if ← nextIs "*" then do pure ((← token "*") :: (← importAlias))
      else importedName
    return imported ++ [← token "from", ← source]

def importDirective : Parser Piece := do
  let word ← token "import"
  let clause ← importClause
  return branch "import_directive" (word :: clause ++ [← token ";"])

def constantDeclaration : Parser Piece := do
  let type ← inRole "type" <$> type
  let word ← token "constant"
  let name ← definedName
  return branch "constant_variable_declaration"
    (type :: word :: name :: (← initialValue) ++ [← token ";"])

def topLevelDeclaration : Parser Piece := do
  match ← nextWord with
  | "pragma" => pragmaDirective
  | "import" => importDirective
  | "abstract" =>
    contractDeclaration "contract_declaration"
      (do return [← token "abstract", ← token "contract"])
  | "contract" => contractDeclaration "contract_declaration" (do return [← token "contract"])
  | "interface" =>
    contractDeclaration "interface_declaration" (do return [← token "interface"])
  | "library" => contractDeclaration "library_declaration" (do return [← token "library"])
  | "struct" => structDeclaration
  | "enum" => enumDeclaration
  | "error" => errorDeclaration
  | "event" => eventDefinition
  | "function" =>
    if startsNamelessFunction (← get) then constantDeclaration else functionDefinition
  | "type" => userDefinedTypeDefinition
  | "using" => usingDirective
  | _ => constantDeclaration

/-- The declarations of a whole source. -/
def declarations : Parser (List Piece) := many topLevelDeclaration

end ContractCalls.Solidity.Grammar
