import ContractCalls.Solidity.FromTree.Units
import ContractCalls.Solidity.Grammar.Comments
import ContractCalls.Solidity.Grammar.Declarations
import ContractCalls.Syntax.Source

/-!
Contract: source texts as source units.

Owns the syntax tree of a text, and the unit read from it.

A text without a complete parse has an error at no stated place.
-/

set_option autoImplicit false

namespace ContractCalls.Solidity

open ContractCalls.Syntax

namespace Grammar

/-- The syntax tree of a text, if all of it can be parsed. -/
def tree? (text : String) : Option (Syntax.Tree Span) :=
  let all := lexemes text
  let comments := all.filter fun lexeme => lexeme.kind == .comment
  match declarations (all.filter fun lexeme => lexeme.kind != .comment) with
  | some (pieces, []) =>
    let root : Piece :=
      { kind := "source_file", extent := ⟨0, text.utf8ByteSize⟩, children := pieces }
    some (comments.foldl (fun tree comment => insertComment comment.span tree) root)
  | _ => none

end Grammar

/-- Read a source text. -/
def parse (path : Option String) (text : String) :
    Except FromTree.Rejection SourceUnit :=
  match Grammar.tree? text with
  | none => .error (.malformed { path })
  | some tree => FromTree.sourceUnit path false ((Source.ofString text).read tree)

end ContractCalls.Solidity
