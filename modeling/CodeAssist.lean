import CodeAssist.Checkpoint
import CodeAssist.Class.Basic
import CodeAssist.Class.Codec
import CodeAssist.Class.CoreLibrary
import CodeAssist.Class.Hierarchy
import CodeAssist.Class.Implicit
import CodeAssist.Class.Inheritance
import CodeAssist.Class.Signature
import CodeAssist.Class.Store
import CodeAssist.Class.Subtyping
import CodeAssist.Class.Visibility
import CodeAssist.Completion.Allocation
import CodeAssist.Completion.Candidate
import CodeAssist.Completion.Codec
import CodeAssist.Completion.Event
import CodeAssist.Completion.Guess
import CodeAssist.Completion.KnownTypes
import CodeAssist.Completion.Members
import CodeAssist.Completion.MixedRadix
import CodeAssist.Completion.Placement
import CodeAssist.Completion.Proposal
import CodeAssist.Completion.Relevance
import CodeAssist.Completion.Request
import CodeAssist.Completion.Run
import CodeAssist.Completion.Search
import CodeAssist.Completion.Session
import CodeAssist.Completion.Shadowing
import CodeAssist.Completion.Walk
import CodeAssist.Decimal.Double
import CodeAssist.Decimal.Estimate
import CodeAssist.Index.Codec
import CodeAssist.Index.Fact
import CodeAssist.Index.Search
import CodeAssist.Json.Basic
import CodeAssist.Json.Draft
import CodeAssist.Json.Printer
import CodeAssist.Matching.Match
import CodeAssist.Matching.Pieces
import CodeAssist.Modifiers
import CodeAssist.QualifiedName
import CodeAssist.Scope.Codec
import CodeAssist.Scope.Graph
import CodeAssist.Scope.Import
import CodeAssist.Scope.Resolve
import CodeAssist.Settings.Document
import CodeAssist.Settings.Favorite
import CodeAssist.Settings.LevelFilter
import CodeAssist.Settings.Logging
import CodeAssist.Settings.Options
import CodeAssist.Settings.Redaction
import CodeAssist.Settings.Schema
import CodeAssist.Settings.Workspace
import CodeAssist.Text.Alphanumeric
import CodeAssist.Text.Blank
import CodeAssist.Text.CursorToken
import CodeAssist.Text.Identifier
import CodeAssist.Text.IdentifierTable
import CodeAssist.Text.Marker
import CodeAssist.Text.Ranges
import CodeAssist.Text.Split
import CodeAssist.Text.Utf8
import CodeAssist.Toml.Basic
import CodeAssist.Toml.Document
import CodeAssist.Toml.Reader
import CodeAssist.Type.Basic
import CodeAssist.Type.Primitive
import CodeAssist.Proofs.Class.Ancestry
import CodeAssist.Proofs.Completion.Delivery
import CodeAssist.Proofs.Completion.BareMembers
import CodeAssist.Proofs.Completion.IndexOrder
import CodeAssist.Proofs.Completion.InheritedMembers
import CodeAssist.Proofs.Completion.TypeNames
import CodeAssist.Proofs.Class.Names
import CodeAssist.Proofs.Index.Buckets
import CodeAssist.Proofs.Index.PackageTree
import CodeAssist.Proofs.Completion.Filters
import CodeAssist.Proofs.Index.StoreFacts
import CodeAssist.Proofs.Completion.TypeVisibility
import CodeAssist.Proofs.Class.Lookup
import CodeAssist.Proofs.Completion.WalkedTypes
import CodeAssist.Proofs.Completion.NameResolution
import CodeAssist.Proofs.Completion.WrittenTypes
import CodeAssist.Proofs.Completion.Allocations
import CodeAssist.Proofs.Completion.Cancellation
import CodeAssist.Proofs.Json.RoundTrip
import CodeAssist.Proofs.Index.SnapshotText
import CodeAssist.Proofs.Completion.MembersOnce
import CodeAssist.Proofs.Completion.SearchTurns
import CodeAssist.Proofs.Completion.Identity
import CodeAssist.Proofs.Completion.OverrideDominance
import CodeAssist.Proofs.Completion.RelevanceOrder
import CodeAssist.Proofs.Matching.Ways
import CodeAssist.Proofs.Completion.Contention
import CodeAssist.Proofs.Completion.Hiding
import CodeAssist.Proofs.Completion.Drafts
import CodeAssist.Proofs.Completion.HiddenRivals
import CodeAssist.Proofs.Class.BreadthFirst
import CodeAssist.Proofs.Class.Subtyping
import CodeAssist.Proofs.Scope.Imports
import CodeAssist.Proofs.Scope.SimpleNames
import CodeAssist.Proofs.Completion.Variables
import CodeAssist.Proofs.Completion.InstanceMembers
import CodeAssist.Proofs.Completion.HiddenFields
import CodeAssist.Proofs.Completion.Narrowing
import CodeAssist.Proofs.Completion.GuessedMembers
import CodeAssist.Proofs.Completion.ImplicitImport
import CodeAssist.Proofs.Class.Additions
import CodeAssist.Proofs.Class.Growth
import CodeAssist.Proofs.Class.ImplicitMembers
import CodeAssist.Proofs.Class.VisibilityRecursion
import CodeAssist.Proofs.Index.StoreNames
import CodeAssist.Proofs.Settings.Redaction
import CodeAssist.Proofs.Settings.ShownErrors
import CodeAssist.Proofs.Text.CursorToken
import CodeAssist.Proofs.Text.DottedNames
import CodeAssist.Proofs.Class.Boxing
import CodeAssist.Proofs.Scope.ImportText
import CodeAssist.Proofs.Settings.Favorites
import CodeAssist.Proofs.Scope.ImportOrder
import CodeAssist.Proofs.Checkpoint
import CodeAssist.Proofs.Text.Markers
import CodeAssist.Proofs.Matching.Pieces
import CodeAssist.Proofs.Matching.SingleSegments
import CodeAssist.Proofs.Completion.KnownTypes
import CodeAssist.Proofs.Scope.Chains
import CodeAssist.Proofs.Matching.Segmentation
