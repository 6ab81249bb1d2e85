import ModuleAtlas.Main
import ModuleAtlas.Proofs.Graph.Edge
import ModuleAtlas.Proofs.Graph.Listing
import ModuleAtlas.Proofs.Graph.Cycle
import ModuleAtlas.Proofs.Text.Bytes
import ModuleAtlas.Proofs.Graph.Builder
import ModuleAtlas.Proofs.EntryPoint
import ModuleAtlas.Proofs.Text.Sorted
import ModuleAtlas.Proofs.DeadExport
import ModuleAtlas.Proofs.Graph.Statements
import ModuleAtlas.Proofs.Linking
import ModuleAtlas.Proofs.Graph.Decomposition
import ModuleAtlas.Proofs.Project
import ModuleAtlas.Proofs.Workspace.Root
import ModuleAtlas.Proofs.Analysis
import ModuleAtlas.Proofs.Workspace.Partition
import ModuleAtlas.Proofs.Workspace.Accounts
import ModuleAtlas.Proofs.Workspace.Independence
import ModuleAtlas.Proofs.Workspace.Relocation
import ModuleAtlas.Proofs.Resolver.Growth
import ModuleAtlas.Proofs.Text.Join
import ModuleAtlas.Proofs.Path
import ModuleAtlas.Proofs.Resolver.Addressing
import ModuleAtlas.Proofs.Metrics.Fold
import ModuleAtlas.Proofs.Workspace.Merging
import ModuleAtlas.Proofs.Graph.Totals
import ModuleAtlas.Proofs.Metrics.Summary
import ModuleAtlas.Proofs.Metrics.Consistency
import ModuleAtlas.Proofs.Workspace.Consistency
import ModuleAtlas.Proofs.Workspace.EntryPoint
import ModuleAtlas.Proofs.Package
import ModuleAtlas.Proofs.Specifier
import ModuleAtlas.Proofs.Unreachable
import ModuleAtlas.Proofs.Family
import ModuleAtlas.Proofs.Graph.Queries
import ModuleAtlas.Proofs.Graph.Interleaving
import ModuleAtlas.Proofs.Graph.Preorder
import ModuleAtlas.Proofs.Graph.CycleOrder
import ModuleAtlas.Proofs.Resolver.Submodule
import ModuleAtlas.Proofs.FileTree
import ModuleAtlas.Proofs.Discovery
import ModuleAtlas.Proofs.Decimal
import ModuleAtlas.Proofs.Json.Number
import ModuleAtlas.Proofs.Json.Document
import ModuleAtlas.Proofs.Report
import ModuleAtlas.Proofs.Metrics.Largest
import ModuleAtlas.Proofs.Metrics.Maximum
import ModuleAtlas.Proofs.Path.Following
import ModuleAtlas.Proofs.Resolver.PackageDirectory
import ModuleAtlas.Proofs.Identifier
import ModuleAtlas.Proofs.OwnImport
import ModuleAtlas.Proofs.Text.Slice
import ModuleAtlas.Proofs.Syntax.Node
import ModuleAtlas.Proofs.Syntax.Standing
import ModuleAtlas.Proofs.NodeType
import ModuleAtlas.Proofs.Text.Lines
import ModuleAtlas.Proofs.Lexicon.Lexeme
import ModuleAtlas.Proofs.Declaration
import ModuleAtlas.Proofs.SourceOrder
import ModuleAtlas.Proofs.ImportedName
import ModuleAtlas.Proofs.Repetition
import ModuleAtlas.Proofs.Workspace.Warning
import ModuleAtlas.Proofs.Manifest
import ModuleAtlas.Proofs.Text.Trim
import ModuleAtlas.Proofs.ModuleLine
import ModuleAtlas.Proofs.GeneratedCode
import ModuleAtlas.Proofs.ModuleName
import ModuleAtlas.Proofs.Resolver.ModuleName
import ModuleAtlas.Proofs.Graph.CyclePath
import ModuleAtlas.Proofs.Report.Markdown
import ModuleAtlas.Proofs.Syntax.Reading
import ModuleAtlas.Proofs.Syntax.Position
import ModuleAtlas.Proofs.Syntax.Maker
import ModuleAtlas.Proofs.Grammar.Table
import ModuleAtlas.Proofs.Lexicon.Token
import ModuleAtlas.Proofs.Grammar
import ModuleAtlas.Proofs.Grammar.ModuleName
