import ContractCalls.Text.Blank

/-!
Contract: expressions as far as calls are concerned.

Owns:
- the shapes of an expression;
- its text on one line;
- the calls inside it, each before the calls of its parts.

Does not own: how an expression is read from a syntax tree.
-/

set_option autoImplicit false

namespace ContractCalls.Solidity

/-- An expression.  `other` is any form that is not looked into; its operands
are kept for the calls inside them. -/
inductive Expression where
  | identifier (name : String)
  | number (literal : String)
  | elementaryType (name : String)
  | member (object : Expression) (name : String)
  | call (callee : Expression) (arguments : List Expression) (line : Nat)
  | other (text : String) (operands : List Expression)
  deriving Repr, Inhabited

/-- A call: what is called, with which arguments, and on which line. -/
structure CallSite where
  callee : Expression
  arguments : List Expression
  line : Nat
  deriving Repr, Inhabited

namespace Expression

mutual

/-- The text of an expression on one line. -/
def text : Expression → String
  | identifier name => name
  | number literal => literal
  | elementaryType name => name
  | member object name => object.text ++ "." ++ name
  | call callee arguments _ =>
    callee.text ++ "(" ++ ", ".intercalate (texts arguments) ++ ")"
  | other text _ => Text.squeeze text

def texts : List Expression → List String
  | [] => []
  | expression :: rest => expression.text :: texts rest

end

mutual

/-- The calls of an expression: a call first, then those of what it calls, then
those of its arguments from left to right. -/
def callSites : Expression → List CallSite
  | identifier _ => []
  | number _ => []
  | elementaryType _ => []
  | member object _ => object.callSites
  | call callee arguments line =>
    ⟨callee, arguments, line⟩ :: (callee.callSites ++ callSitesOf arguments)
  | other _ operands => callSitesOf operands

/-- The calls of several expressions, from left to right. -/
def callSitesOf : List Expression → List CallSite
  | [] => []
  | expression :: rest => expression.callSites ++ callSitesOf rest

end

theorem callSitesOf_eq_flatMap (expressions : List Expression) :
    callSitesOf expressions = expressions.flatMap callSites := by
  induction expressions with
  | nil => rfl
  | cons expression rest inductionHypothesis => simp [callSitesOf, inductionHypothesis]

end Expression

/-- Arguments as the name of a graph node: their texts, without double quotes
and with spaces for colons, which a node name must not hold. -/
def flattenArguments (arguments : List Expression) : String :=
  let joined := ", ".intercalate (Expression.texts arguments)
  String.ofList
    ((joined.toList.filter fun char => char != '"').map
      fun char => if char == ':' then ' ' else char)

end ContractCalls.Solidity
