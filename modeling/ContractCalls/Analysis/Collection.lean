import ContractCalls.Analysis.Declaration
import ContractCalls.Analysis.Graph

/-!
Contract: the declarations of source units, and the nodes of their contracts.

Owns the first reading of a program, which needs no order among its files:
afterwards every contract has its declaration and a defined node.
-/

set_option autoImplicit false

namespace ContractCalls.Analysis

open ContractCalls.Solidity

/-- Declarations together with the graph in which their contracts are nodes. -/
structure Collection where
  declarations : Declarations := {}
  graph : Graph := {}
  deriving Repr, DecidableEq, Inhabited

namespace Collection

def addContract (collection : Collection) (contract : Contract) : Collection :=
  { declarations := collection.declarations.add (Declaration.ofContract contract)
    graph := collection.graph.addContract contract.name }

def addUnit (collection : Collection) (unit : SourceUnit) : Collection :=
  unit.contracts.foldl addContract collection

def addUnits (collection : Collection) (units : List SourceUnit) : Collection :=
  units.foldl addUnit collection

/-- The names of the contracts of units, in source order. -/
def contractNames (units : List SourceUnit) : List String :=
  units.flatMap fun unit => unit.contracts.map Contract.name

/-- The messages of a first reading: one for each contract that replaces an
earlier one. -/
def log (collection : Collection) (units : List SourceUnit) : List Log.Entry :=
  Declarations.repeatedMessages collection.declarations.keys (contractNames units)

end Collection

end ContractCalls.Analysis
