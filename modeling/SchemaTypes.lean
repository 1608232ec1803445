import SchemaTypes.Binary64.Basic
import SchemaTypes.Binary64.Decimal
import SchemaTypes.Building.Compositions
import SchemaTypes.Building.Fault
import SchemaTypes.Building.Keywords
import SchemaTypes.Building.Kinds
import SchemaTypes.Building.Nodes
import SchemaTypes.Building.Objects
import SchemaTypes.Building.Process
import SchemaTypes.Building.References
import SchemaTypes.Building.Session
import SchemaTypes.Building.Unions
import SchemaTypes.Building.Values
import SchemaTypes.Check.Basic
import SchemaTypes.Check.Description
import SchemaTypes.Check.Message
import SchemaTypes.Check.Validators
import SchemaTypes.CommandLine.Arguments
import SchemaTypes.CommandLine.Run
import SchemaTypes.Configuration.Filters
import SchemaTypes.Configuration.Settings
import SchemaTypes.Configuration.SettingsFile
import SchemaTypes.Digest.Blake3
import SchemaTypes.Evaluation.Basic
import SchemaTypes.Evaluation.Checks
import SchemaTypes.Evaluation.Objects
import SchemaTypes.Evaluation.Verdict
import SchemaTypes.Evaluation.Violation
import SchemaTypes.Json.Basic
import SchemaTypes.Json.Equality
import SchemaTypes.Json.Kind
import SchemaTypes.Json.Reader
import SchemaTypes.Json.Writer
import SchemaTypes.Main
import SchemaTypes.Naming.ClassName
import SchemaTypes.Naming.Identifier
import SchemaTypes.Naming.Source
import SchemaTypes.Pattern.Basic
import SchemaTypes.Pattern.CaseOrbits
import SchemaTypes.Pattern.Categories
import SchemaTypes.Pattern.Class
import SchemaTypes.Pattern.Properties
import SchemaTypes.Pattern.Reader
import SchemaTypes.Pattern.Scripts
import SchemaTypes.Pattern.Search
import SchemaTypes.Proofs.Building.Calls
import SchemaTypes.Proofs.Building.Completion
import SchemaTypes.Proofs.Building.Contracts
import SchemaTypes.Proofs.Building.Definitions
import SchemaTypes.Proofs.Building.Drafts
import SchemaTypes.Proofs.Building.Duplicates
import SchemaTypes.Proofs.Building.Fills
import SchemaTypes.Proofs.Building.Leftovers
import SchemaTypes.Proofs.Building.Nodes
import SchemaTypes.Proofs.Building.Objects
import SchemaTypes.Proofs.Building.Order
import SchemaTypes.Proofs.Building.Outcomes
import SchemaTypes.Proofs.Building.Placeholders
import SchemaTypes.Proofs.Building.Presence
import SchemaTypes.Proofs.Building.Process
import SchemaTypes.Proofs.Building.Runs
import SchemaTypes.Proofs.Building.Steps
import SchemaTypes.Proofs.Building.Values
import SchemaTypes.Proofs.Building.Writes
import SchemaTypes.Proofs.Evaluation.FailFast
import SchemaTypes.Proofs.Evaluation.Likeness
import SchemaTypes.Proofs.Reference.Leads
import SchemaTypes.Proofs.Types.Demands
import SchemaTypes.Proofs.Types.Ids
import SchemaTypes.Proofs.Types.Marks
import SchemaTypes.Proofs.Types.Redirects
import SchemaTypes.Reference.Documents
import SchemaTypes.Reference.Pointer
import SchemaTypes.Rendering.Format
import SchemaTypes.Rendering.Listing
import SchemaTypes.Rendering.Outline
import SchemaTypes.Text.Alphanumeric
import SchemaTypes.Text.Blank
import SchemaTypes.Text.LetterCase
import SchemaTypes.Text.Ranges
import SchemaTypes.Text.Replace
import SchemaTypes.Text.Utf8
import SchemaTypes.Toml.Reader
import SchemaTypes.Toml.Table
import SchemaTypes.Types.CanonicalText
import SchemaTypes.Types.Graph
import SchemaTypes.Types.Label
import SchemaTypes.Types.Property
import SchemaTypes.Types.Reach
import SchemaTypes.Proofs.Building.Courses
import SchemaTypes.Proofs.Building.Confinement
import SchemaTypes.Proofs.Building.Collapse
import SchemaTypes.Proofs.Building.Permanence
import SchemaTypes.Proofs.Building.Counterparts
import SchemaTypes.Proofs.Building.Recurrences
import SchemaTypes.Proofs.Building.TypePairs
import SchemaTypes.Proofs.Building.Labels
import SchemaTypes.Proofs.Building.Answers
import SchemaTypes.Proofs.Evaluation.Termination
import SchemaTypes.Proofs.Building.Sheltering
import SchemaTypes.Proofs.Building.Chains
import SchemaTypes.Proofs.Evaluation.Population
import SchemaTypes.Proofs.Building.DistinctNames
import SchemaTypes.Proofs.Building.Identities
import SchemaTypes.Proofs.Building.Integrity
import SchemaTypes.Proofs.Evaluation.Compositions
import SchemaTypes.Proofs.Building.LateCopies
import SchemaTypes.Proofs.Evaluation.GivenValue
import SchemaTypes.Proofs.Evaluation.OnlyMembers
import SchemaTypes.Proofs.Naming.Identifiers
import SchemaTypes.Proofs.Building.Tandem
import SchemaTypes.Proofs.Building.TandemRuns
import SchemaTypes.Proofs.Building.TandemDrafts
import SchemaTypes.Proofs.Building.TandemParts
import SchemaTypes.Proofs.Building.TandemTypes
import SchemaTypes.Proofs.Building.TandemNodes
import SchemaTypes.Proofs.Building.Wrappers
import SchemaTypes.Proofs.Building.Places
import SchemaTypes.Proofs.Building.RootMembers
import SchemaTypes.Proofs.Building.Resolutions
import SchemaTypes.Proofs.Building.Transparency
import SchemaTypes.Proofs.Building.ForeignRoots
import SchemaTypes.Proofs.Building.Arranging
import SchemaTypes.Proofs.Evaluation.Preservation
import SchemaTypes.Proofs.Evaluation.MemberOrder
import SchemaTypes.Proofs.Evaluation.ImplicitNull
import SchemaTypes.Proofs.Building.UnionChecks
import SchemaTypes.Proofs.Building.UnionMembers
import SchemaTypes.Proofs.Evaluation.KindGuards
import SchemaTypes.Proofs.Building.UnionVerdicts
import SchemaTypes.Proofs.Json.Multiples
import SchemaTypes.Proofs.Check.ValidatorOrder
import SchemaTypes.Proofs.Evaluation.Violations
import SchemaTypes.Proofs.Reference.Addresses
import SchemaTypes.Proofs.Building.Restoring
import SchemaTypes.Proofs.Evaluation.CompleteMessages
import SchemaTypes.Proofs.Check.Partitions
import SchemaTypes.Proofs.Building.Tuples
import SchemaTypes.Proofs.Building.ItemLists
import SchemaTypes.Proofs.Building.FilterKinds
import SchemaTypes.Proofs.Rendering.Walks
import SchemaTypes.Proofs.Rendering.NestedProperties
import SchemaTypes.Proofs.Rendering.ReferencedTypes
import SchemaTypes.Proofs.Evaluation.Tuples
import SchemaTypes.Proofs.Naming.ClassNames
import SchemaTypes.Proofs.Evaluation.Merging
import SchemaTypes.Proofs.Evaluation.Bounds
import SchemaTypes.Proofs.Building.RedirectEnds
import SchemaTypes.Proofs.Rendering.Descents
import SchemaTypes.Proofs.Rendering.CutCycles
