import DeclTree.Main
import DeclTree.Declaration.Direct
import DeclTree.Syntax.Draft.Call
import DeclTree.Command.LogForm
import DeclTree.Proofs.Descent
import DeclTree.Proofs.Depth
import DeclTree.Proofs.Budget
import DeclTree.Proofs.Outcome
import DeclTree.Proofs.Listing
import DeclTree.Proofs.Opening
import DeclTree.Proofs.Nesting
import DeclTree.Proofs.StackRecursion
import DeclTree.Proofs.Settlement
import DeclTree.Proofs.Renaming
import DeclTree.Proofs.Outline
import DeclTree.Proofs.OutlineHeaders
import DeclTree.Proofs.OutlineBuild
import DeclTree.Proofs.Relocation
import DeclTree.Proofs.Bodies
import DeclTree.Proofs.Placement
import DeclTree.Proofs.AttributeNames
import DeclTree.Proofs.FileHints
import DeclTree.Proofs.FirstFault
import DeclTree.Proofs.Assembly
import DeclTree.Proofs.Rows
import DeclTree.Proofs.Census
import DeclTree.Proofs.SourceModes
import DeclTree.Proofs.ParentLinks
import DeclTree.Proofs.Reportable
import DeclTree.Proofs.Versions
import DeclTree.Proofs.Messages
import DeclTree.Proofs.DistinctReports
import DeclTree.Proofs.Termination
import DeclTree.Proofs.Loading
import DeclTree.Proofs.Batches
import DeclTree.Proofs.TreeIds
import DeclTree.Proofs.Discovery
import DeclTree.Proofs.Edits
import DeclTree.Proofs.LatestOwner
import DeclTree.Proofs.SpanNesting
import DeclTree.Proofs.DottedNames
import DeclTree.Proofs.StoredTrees
import DeclTree.Proofs.Paths
import DeclTree.Proofs.PlainOutline
import DeclTree.Proofs.MemberUnion
import DeclTree.Proofs.NamespaceRules
import DeclTree.Proofs.NonTypeMembers
import DeclTree.Proofs.ModifierSets
import DeclTree.Proofs.ModifierReports
import DeclTree.Proofs.IncompleteBuild
import DeclTree.Proofs.StatementScans
import DeclTree.Proofs.TopLevelProgram
import DeclTree.Proofs.UsingOrder
import DeclTree.Proofs.ScriptNaming
import DeclTree.Proofs.Substitution
import DeclTree.Proofs.OpenContainers
import DeclTree.Proofs.NamespaceLookup
