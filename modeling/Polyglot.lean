import Polyglot.Cel.Analysis
import Polyglot.Cel.Functions
import Polyglot.Cel.Types
import Polyglot.Diagnostic.Aggregator
import Polyglot.Diagnostic.Basic
import Polyglot.Diagnostic.MarkerStore
import Polyglot.Document.Basic
import Polyglot.Document.Block
import Polyglot.Document.Compose
import Polyglot.Document.Fragment
import Polyglot.Document.Lifecycle
import Polyglot.Document.Mapping
import Polyglot.Extraction.ByPattern
import Polyglot.Extraction.Extractor
import Polyglot.Extraction.Protovalidate
import Polyglot.LineIndex
import Polyglot.Pattern
import Polyglot.Pattern.CharClass
import Polyglot.Pattern.Expr
import Polyglot.Pattern.Footprint
import Polyglot.Pattern.Parser
import Polyglot.Pattern.Program
import Polyglot.Pattern.Search
import Polyglot.Position
import Polyglot.Proofs.AddressShape
import Polyglot.Proofs.AddressText
import Polyglot.Proofs.Addresses
import Polyglot.Proofs.Alike
import Polyglot.Proofs.AnalysisPlaces
import Polyglot.Proofs.Anchors
import Polyglot.Proofs.Announcements
import Polyglot.Proofs.Appendices
import Polyglot.Proofs.Arrivals
import Polyglot.Proofs.BatchAccounts
import Polyglot.Proofs.BatchOrder
import Polyglot.Proofs.BlankedComments
import Polyglot.Proofs.BufferCharacters
import Polyglot.Proofs.BufferRows
import Polyglot.Proofs.ByteOffsets
import Polyglot.Proofs.ChildAddresses
import Polyglot.Proofs.Children
import Polyglot.Proofs.CommentedOptions
import Polyglot.Proofs.Composition
import Polyglot.Proofs.Counterparts
import Polyglot.Proofs.Descent
import Polyglot.Proofs.EditorNumbers
import Polyglot.Proofs.Entries
import Polyglot.Proofs.EscapedLiterals
import Polyglot.Proofs.Excerpts
import Polyglot.Proofs.Extraction
import Polyglot.Proofs.Families
import Polyglot.Proofs.FileTree
import Polyglot.Proofs.Handovers
import Polyglot.Proofs.Holdings
import Polyglot.Proofs.IdPaths
import Polyglot.Proofs.Idle
import Polyglot.Proofs.Ledger
import Polyglot.Proofs.Levels
import Polyglot.Proofs.Lifetimes
import Polyglot.Proofs.LineTables
import Polyglot.Proofs.Lineage
import Polyglot.Proofs.Links
import Polyglot.Proofs.LiteralPieces
import Polyglot.Proofs.LiteralReports
import Polyglot.Proofs.LiteralTrees
import Polyglot.Proofs.MarkerRecords
import Polyglot.Proofs.Matches
import Polyglot.Proofs.Numbers
import Polyglot.Proofs.OffsetPlaces
import Polyglot.Proofs.OptionLiterals
import Polyglot.Proofs.OptionReading
import Polyglot.Proofs.Orphans
import Polyglot.Proofs.Outboxes
import Polyglot.Proofs.Ownership
import Polyglot.Proofs.Partitions
import Polyglot.Proofs.PlacedRanges
import Polyglot.Proofs.Pools
import Polyglot.Proofs.PrefixedCode
import Polyglot.Proofs.Provenance
import Polyglot.Proofs.Publication
import Polyglot.Proofs.Readers
import Polyglot.Proofs.Rebuilds
import Polyglot.Proofs.Rehearsals
import Polyglot.Proofs.RendererRequests
import Polyglot.Proofs.Renewals
import Polyglot.Proofs.Repeats
import Polyglot.Proofs.ResentBatches
import Polyglot.Proofs.Rosters
import Polyglot.Proofs.RoundTrip
import Polyglot.Proofs.ServerHistory
import Polyglot.Proofs.Slots
import Polyglot.Proofs.SnippetReports
import Polyglot.Proofs.Snippets
import Polyglot.Proofs.StandaloneCode
import Polyglot.Proofs.Standings
import Polyglot.Proofs.Sweeps
import Polyglot.Proofs.TableInvariant
import Polyglot.Proofs.TakenTexts
import Polyglot.Proofs.Takers
import Polyglot.Proofs.TextPlaces
import Polyglot.Proofs.TransparentComments
import Polyglot.Proofs.Twins
import Polyglot.Proofs.TypeNames
import Polyglot.Proofs.Verdicts
import Polyglot.Proofs.WrittenForm
import Polyglot.Proofs.WrittenOptions
import Polyglot.Rules
import Polyglot.Server.Basic
import Polyglot.Server.ClientCapabilities
import Polyglot.Server.Message
import Polyglot.Server.Request
import Polyglot.Server.Shape
import Polyglot.Server.Store
import Polyglot.Session
import Polyglot.Settings.Basic
import Polyglot.Settings.DateTime
import Polyglot.Settings.Discovery
import Polyglot.Settings.Toml
import Polyglot.Text
import Polyglot.Unicode.Age
import Polyglot.Unicode.BinaryProperty
import Polyglot.Unicode.Category
import Polyglot.Unicode.Classes
import Polyglot.Unicode.CodeSet
import Polyglot.Unicode.Direction
import Polyglot.Unicode.Folding
import Polyglot.Unicode.Normalization
import Polyglot.Unicode.Property
import Polyglot.Unicode.Script
import Polyglot.Unicode.Segmentation
import Polyglot.Unicode.SetTerm
import Polyglot.Unicode.Table
import Polyglot.Url.Basic
import Polyglot.Url.DomainMapping
import Polyglot.Url.DomainName
import Polyglot.Url.Encoding
import Polyglot.Url.Host
import Polyglot.Url.Parser
import Polyglot.Url.Punycode
import Polyglot.Value
