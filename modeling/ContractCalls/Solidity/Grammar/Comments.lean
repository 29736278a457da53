import ContractCalls.Solidity.Grammar.Parser

/-!
Contract: comments as nodes of a syntax tree.

Owns the place of a comment: it is a child of the innermost node that starts
before it and ends after it.
-/

set_option autoImplicit false

namespace ContractCalls.Solidity.Grammar

open ContractCalls.Syntax

/-- Whether a range lies strictly inside another. -/
def strictlyInside (inner outer : Span) : Bool :=
  outer.start < inner.start && inner.stop < outer.stop

def commentNode (span : Span) : Piece := { kind := "comment", extent := span }

/-- Pieces with one more, before the first that starts after it. -/
def insertByStart (added : Piece) : List Piece → List Piece
  | [] => [added]
  | piece :: rest =>
    if added.extent.start ≤ piece.extent.start then added :: piece :: rest
    else piece :: insertByStart added rest

mutual

/-- A tree with a comment at its place in it. -/
def insertComment (comment : Span) : Piece → Piece
  | ⟨kind, extent, named, field, missing, children⟩ =>
    match insertIntoOne comment children with
    | some changed => ⟨kind, extent, named, field, missing, changed⟩
    | none =>
      ⟨kind, extent, named, field, missing, insertByStart (commentNode comment) children⟩

/-- Pieces with a comment inside the one around it, if there is one. -/
def insertIntoOne (comment : Span) : List Piece → Option (List Piece)
  | [] => none
  | piece :: rest =>
    if strictlyInside comment piece.extent then some (insertComment comment piece :: rest)
    else (insertIntoOne comment rest).map (piece :: ·)

end

end ContractCalls.Solidity.Grammar
