import ContractCalls.Analysis.Graph
import ContractCalls.Analysis.Scope

/-!
Contract: which contract a call goes to.

Owns:
- the outcome of a call: an edge to draw, or the reason for drawing none;
- the object that a member is called on, and its type if the language fixes it;
- the choice of the target.

The receiver of a call decides in this order: a name of a contract, event or
struct is called directly; then comes a library attached to the receiver's
type; then the current contract, its nearest base, and at last the type of the
receiver or, without one, its name.

Does not own: the graph that targets end up in.
-/

set_option autoImplicit false

namespace ContractCalls.Analysis

open ContractCalls.Solidity

/-- Why a call is not drawn. -/
inductive Omission where
  | outsideBody
  | unsupportedForm
  | plainVariable (name : String)
  | libraryOmitted (library : String)
  | unknownObject
  | noBase
  deriving Repr, DecidableEq

def Omission.message : Omission → String
  | outsideBody => "outside function or modifier"
  | unsupportedForm => "unsupported call form"
  | plainVariable name => name ++ " has an elementary type"
  | libraryOmitted library => "library edge to " ++ library ++ " suppressed"
  | unknownObject => "unresolved object"
  | noBase => "super without a base contract"

/-- The outcome of a call. -/
inductive CallTarget where
  | omitted (reason : Omission)
  /-- A call to a contract.  It has no name if it is the current contract where
  there is none. -/
  | drawn (kind : CallKind) (contract : Option String) (member : String)
  deriving Repr, DecidableEq

/-- The kind of a call; one that is not drawn has no target. -/
def CallTarget.kind : CallTarget → CallKind
  | omitted _ => .noTarget
  | drawn kind _ _ => kind

namespace CallTarget

/-- Members that the language itself gives to arrays and to its encoder. -/
def builtinMembers : List String :=
  ["push", "pop", "encode", "encodePacked", "encodeWithSelector", "encodeWithSignature",
    "encodeCall", "decode"]

/-- The type of a member of the surroundings of a call, such as its sender. -/
def surroundingType? (object member : String) : Option String :=
  match object, member with
  | "msg", "sender" | "tx", "origin" | "block", "coinbase" => some "address"
  | "msg", "value" | "msg", "gas" | "tx", "gasprice" | "block", "number"
  | "block", "timestamp" | "block", "difficulty" | "block", "prevrandao"
  | "block", "gaslimit" | "block", "basefee" | "block", "chainid" => some "uint256"
  | "msg", "data" => some "bytes"
  | "msg", "sig" => some "bytes4"
  | _, _ => none

/-- The two spellings of the address type. -/
def isAddressType (name : String) : Bool := name == "address" || name == "address payable"

/-- Whether a name is that of an event or struct of a contract. -/
def declaresEventOrStruct (context : Context) (name contract : String) : Bool :=
  match context.declarations.find? contract with
  | none => false
  | some declaration => declaration.events.contains name || declaration.structs.contains name

/-- Whether a call is that of a bare name which stands for a declared contract,
or for an event or struct of the current contract or of an ancestor. -/
def isDirect (context : Context) (scope : Scope) (site : CallSite) : Bool :=
  match site.callee with
  | .identifier name =>
    context.declarations.contains name ||
      (scope.order context).any (declaresEventOrStruct context name)
  | _ => false

/-- Whether a call is that of a member which the language does not define. -/
def isMemberCall (site : CallSite) : Bool :=
  match site.callee with
  | .member _ member => !builtinMembers.contains member
  | _ => false

/-- The object that a conversion to an address stands for, by its arguments. -/
def convertedObject? : List Expression → Option String
  | [] => none
  | .identifier name :: _ => some name
  | .number literal :: _ => some ("address(" ++ literal ++ ")")
  | arguments => some (flattenArguments arguments)

/-- The name of the object that a member is called on: a name itself, the
argument of a conversion to an address, or the contract of a conversion to a
contract. -/
def objectName? (context : Context) : Expression → Option String
  | .identifier name => some name
  | .call (.elementaryType type) arguments _ =>
    if isAddressType type then convertedObject? arguments else none
  | .call (.identifier name) _ _ => if context.declarations.contains name then some name else none
  | _ => none

/-- The type of a receiver, if the language fixes it. -/
def fixedType? : Expression → Option String
  | .member (.identifier object) member => surroundingType? object member
  | .identifier name => if name == "now" then some "uint256" else none
  | .call (.elementaryType type) _ _ => some (canonicalType type)
  | _ => none

/-- Whether a library declares a function. -/
def libraryHas (context : Context) (member library : String) : Bool :=
  match context.declarations.find? library with
  | none => false
  | some declaration => declaration.functions.contains member

/-- The first library that the current contract attaches to a type and that
declares a function of this name. -/
def attachedLibrary? (context : Context) (scope : Scope) (type member : String) :
    Option String := do
  let contract ← scope.current
  let declaration ← context.declarations.find? contract
  (declaration.librariesFor (canonicalType type)).find? (libraryHas context member)

/-- The target of a member call on a named object. -/
def ofObject (context : Context) (scope : Scope) (object member : String) : CallTarget :=
  if object = "this" then .drawn .this scope.current member
  else if object = "super" then
    match scope.order context with
    | _ :: base :: _ => .drawn .super (some base) member
    | _ => .omitted .noBase
  else .drawn .external (some ((scope.userDefinedType? object).getD object)) member

/-- The target of a member call whose receiver has a type: an attached library,
or else what the object's name decides. -/
def ofTypedObject (context : Context) (scope : Scope) (object : Option String)
    (type : Option String) (member : String) : CallTarget :=
  match type.bind fun type => attachedLibrary? context scope type member with
  | some library =>
    if context.omitLibraries then .omitted (.libraryOmitted library)
    else .drawn .library (some library) member
  | none =>
    match object with
    | none => .omitted .unknownObject
    | some name => ofObject context scope name member

/-- The target of a member call. -/
def ofMember (context : Context) (scope : Scope) (receiver : Expression) (member : String) :
    CallTarget :=
  let object := objectName? context receiver
  match fixedType? receiver with
  | some type => ofTypedObject context scope object (some type) member
  | none =>
    match object with
    | none => ofTypedObject context scope none none member
    | some name =>
      if scope.isPlain name then .omitted (.plainVariable name)
      else ofTypedObject context scope object (scope.userDefinedType? name) member

/-- The target of a call in a body. -/
def ofSite (context : Context) (scope : Scope) (site : CallSite) : CallTarget :=
  match site.callee with
  | .identifier name =>
    if isDirect context scope site then .drawn .internal scope.current name
    else .omitted .unsupportedForm
  | .member receiver member =>
    if isMemberCall site then ofMember context scope receiver member
    else .omitted .unsupportedForm
  | _ => .omitted .unsupportedForm

/-- The target of a call. -/
def resolve (context : Context) (scope : Scope) (site : CallSite) : CallTarget :=
  match scope.calling with
  | none => .omitted .outsideBody
  | some _ => ofSite context scope site

end CallTarget

end ContractCalls.Analysis
