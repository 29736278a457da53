import ContractCalls.Analysis.CallGraph
import ContractCalls.Analysis.CallTarget
import ContractCalls.Analysis.Collection
import ContractCalls.Analysis.Declaration
import ContractCalls.Analysis.Graph
import ContractCalls.Analysis.Linearization
import ContractCalls.Analysis.Scope
import ContractCalls.CommandLine.Arguments
import ContractCalls.CommandLine.Run
import ContractCalls.Dot.Document
import ContractCalls.Dot.Identifier
import ContractCalls.Dot.Scheme
import ContractCalls.Files.Disk
import ContractCalls.Files.Imports
import ContractCalls.Files.Path
import ContractCalls.Files.Refusals
import ContractCalls.Log
import ContractCalls.Main
import ContractCalls.Options.Basic
import ContractCalls.Options.Bindings
import ContractCalls.Options.Checked
import ContractCalls.Options.Environment
import ContractCalls.Options.File
import ContractCalls.Options.Value
import ContractCalls.Proofs.Bodies.CallSites
import ContractCalls.Proofs.Bodies.Occurrences
import ContractCalls.Proofs.Bodies.VisitedCalls
import ContractCalls.Proofs.CallGraph.AttachedLibraries
import ContractCalls.Proofs.CallGraph.CalleeNames
import ContractCalls.Proofs.CallGraph.Collected
import ContractCalls.Proofs.CallGraph.ContextAgreement
import ContractCalls.Proofs.CallGraph.DrawnEdges
import ContractCalls.Proofs.CallGraph.EdgeKinds
import ContractCalls.Proofs.CallGraph.GraphHistory
import ContractCalls.Proofs.CallGraph.InputOrder
import ContractCalls.Proofs.CallGraph.LastDefinitions
import ContractCalls.Proofs.CallGraph.OmittedLibraries
import ContractCalls.Proofs.CallGraph.OtherBodies
import ContractCalls.Proofs.CallGraph.PlacedCalls
import ContractCalls.Proofs.CallGraph.Refinement
import ContractCalls.Proofs.CallGraph.ScopeUses
import ContractCalls.Proofs.CallGraph.ShadowedState
import ContractCalls.Proofs.CallGraph.StateVariables
import ContractCalls.Proofs.CallGraph.TypeSpellings
import ContractCalls.Proofs.CallGraph.Walk
import ContractCalls.Proofs.CommandLine.ExitCodes
import ContractCalls.Proofs.Comments.Bodies
import ContractCalls.Proofs.Comments.Expressions
import ContractCalls.Proofs.Comments.Insertion
import ContractCalls.Proofs.Comments.Overlooked
import ContractCalls.Proofs.Comments.Types
import ContractCalls.Proofs.Comments.Units
import ContractCalls.Proofs.Dot.DeclaredEnds
import ContractCalls.Proofs.Dot.Legend
import ContractCalls.Proofs.Dot.LegendPlacement
import ContractCalls.Proofs.Files.ImportClosure
import ContractCalls.Proofs.Files.ImportResolution
import ContractCalls.Proofs.Files.NearestPackages
import ContractCalls.Proofs.Files.Places
import ContractCalls.Proofs.Files.Readings
import ContractCalls.Proofs.Files.Writing
import ContractCalls.Proofs.Linearization.Agreement
import ContractCalls.Proofs.Linearization.AncestorOrder
import ContractCalls.Proofs.Linearization.Cache
import ContractCalls.Proofs.Linearization.Correctness
import ContractCalls.Proofs.Linearization.Merge
import ContractCalls.Proofs.Linearization.UncachedOrder
import ContractCalls.Proofs.Rewriting
import ContractCalls.Proofs.Session.FailedRuns
import ContractCalls.Proofs.Session.GraphInvariant
import ContractCalls.Proofs.Session.ImportedFiles
import ContractCalls.Proofs.Session.Loading
import ContractCalls.Proofs.Session.Repetition
import ContractCalls.Proofs.Session.RunEffect
import ContractCalls.Proofs.TableEntries
import ContractCalls.Proofs.Trees.EquippedTrees
import ContractCalls.Proofs.Trees.FirstErrors
import ContractCalls.Proofs.Trees.InnermostTypes
import ContractCalls.Session
import ContractCalls.Solidity.Expression
import ContractCalls.Solidity.FromTree.Bodies
import ContractCalls.Solidity.FromTree.Expressions
import ContractCalls.Solidity.FromTree.Types
import ContractCalls.Solidity.FromTree.Units
import ContractCalls.Solidity.Grammar.Assembly
import ContractCalls.Solidity.Grammar.Comments
import ContractCalls.Solidity.Grammar.Declarations
import ContractCalls.Solidity.Grammar.Expressions
import ContractCalls.Solidity.Grammar.Lexeme
import ContractCalls.Solidity.Grammar.Parser
import ContractCalls.Solidity.Grammar.Pragma
import ContractCalls.Solidity.Grammar.Statements
import ContractCalls.Solidity.Lexical
import ContractCalls.Solidity.Parse
import ContractCalls.Solidity.SourceUnit
import ContractCalls.Solidity.SyntaxError
import ContractCalls.Solidity.TypeName
import ContractCalls.Syntax.Source
import ContractCalls.Syntax.Tree
import ContractCalls.Table
import ContractCalls.Text.Blank
import ContractCalls.Text.Decimal
import ContractCalls.Text.LastOccurrence
import ContractCalls.Text.Printable
import ContractCalls.Text.Quoted
import ContractCalls.Text.Shortest
import ContractCalls.Yaml.Document
import ContractCalls.Yaml.Node
import ContractCalls.Yaml.Numeral
import ContractCalls.Yaml.Plain
import ContractCalls.Yaml.Scalar
import ContractCalls.Yaml.Scan
import ContractCalls.Yaml.Token
