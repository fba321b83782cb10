import DataShape.Calendar.Basic
import DataShape.Calendar.Iso
import DataShape.Calendar.IsoReader
import DataShape.Calendar.Packed
import DataShape.Capability.Basic
import DataShape.Capability.Entry
import DataShape.Catalog
import DataShape.DataType
import DataShape.Digest.Sha256
import DataShape.Dispatch
import DataShape.Enumeration
import DataShape.Fault
import DataShape.Function
import DataShape.Host
import DataShape.Inspection
import DataShape.Instance.Basic
import DataShape.Instance.Moment
import DataShape.Marshal
import DataShape.Member.Basic
import DataShape.Member.Method
import DataShape.Member.Part
import DataShape.Member.Signature
import DataShape.Number.Binary64
import DataShape.Number.Reader
import DataShape.Number.Shortest
import DataShape.Occurrence
import DataShape.Path
import DataShape.Predicate
import DataShape.Proofs.Catalog.Kind
import DataShape.Proofs.Catalog.Numeral
import DataShape.Proofs.Catalog.Reseed
import DataShape.Proofs.Catalog.Seed
import DataShape.Proofs.Catalog.UniversalTime
import DataShape.Proofs.Copying
import DataShape.Proofs.Enumeration
import DataShape.Proofs.Equality
import DataShape.Proofs.Execution
import DataShape.Proofs.Idle
import DataShape.Proofs.Json.Canonical
import DataShape.Proofs.Json.Data
import DataShape.Proofs.Json.Text
import DataShape.Proofs.Label
import DataShape.Proofs.Logging
import DataShape.Proofs.Plain
import DataShape.Proofs.Predicate.Grammar
import DataShape.Proofs.Predicate.Meaning
import DataShape.Proofs.Predicate.Search
import DataShape.Proofs.Predicate.Structural
import DataShape.Proofs.Provider
import DataShape.Proofs.Reading
import DataShape.Proofs.Registry.Capability
import DataShape.Proofs.Registry.Cycle
import DataShape.Proofs.Registry.Definer
import DataShape.Proofs.Registry.Definition
import DataShape.Proofs.Registry.Entry
import DataShape.Proofs.Registry.Installing
import DataShape.Proofs.Registry.Invariant
import DataShape.Proofs.Registry.Journal
import DataShape.Proofs.Registry.Lineage
import DataShape.Proofs.Registry.Reachable
import DataShape.Proofs.Registry.Redefinition
import DataShape.Proofs.Registry.Resolution
import DataShape.Proofs.Registry.Run
import DataShape.Proofs.Registry.Selection
import DataShape.Proofs.Registry.Soundness
import DataShape.Proofs.Registry.Visit
import DataShape.Proofs.Schema.Admissible
import DataShape.Proofs.Schema.Agreement
import DataShape.Proofs.Schema.Children
import DataShape.Proofs.Schema.Coercion
import DataShape.Proofs.Schema.Commute
import DataShape.Proofs.Schema.Compile
import DataShape.Proofs.Schema.Completion
import DataShape.Proofs.Schema.Composition
import DataShape.Proofs.Schema.Conversion
import DataShape.Proofs.Schema.Default
import DataShape.Proofs.Schema.Exclusion
import DataShape.Proofs.Schema.Extension
import DataShape.Proofs.Schema.Filling
import DataShape.Proofs.Schema.Fingerprint
import DataShape.Proofs.Schema.Flags
import DataShape.Proofs.Schema.Founded
import DataShape.Proofs.Schema.History
import DataShape.Proofs.Schema.Listing
import DataShape.Proofs.Schema.Lookup
import DataShape.Proofs.Schema.Memo
import DataShape.Proofs.Schema.Outcome
import DataShape.Proofs.Schema.Producing
import DataShape.Proofs.Schema.Projection
import DataShape.Proofs.Schema.Quiet
import DataShape.Proofs.Schema.Reader
import DataShape.Proofs.Schema.Recompile
import DataShape.Proofs.Schema.RoundTrip
import DataShape.Proofs.Schema.Run
import DataShape.Proofs.Schema.Spelling
import DataShape.Proofs.Schema.Still
import DataShape.Proofs.Schema.Traversal
import DataShape.Proofs.Schema.Uniform
import DataShape.Proofs.Schema.Within
import DataShape.Proofs.Settling
import DataShape.Proofs.Sorting.Merge
import DataShape.Proofs.Sorting.Run
import DataShape.Proofs.Table
import DataShape.Proofs.Text
import DataShape.Proofs.Walk
import DataShape.Proofs.Within
import DataShape.Proofs.Wording
import DataShape.Registry.Basic
import DataShape.Registry.Define
import DataShape.Registry.Install
import DataShape.Registry.Text
import DataShape.Report
import DataShape.Schema.Basic
import DataShape.Schema.Compile
import DataShape.Schema.Field
import DataShape.Schema.Fingerprint
import DataShape.Schema.Record
import DataShape.Session
import DataShape.Settings
import DataShape.Sorting.Basic
import DataShape.Sorting.Merge
import DataShape.Sorting.Place
import DataShape.Sorting.Run
import DataShape.Table
import DataShape.Text.Blank
import DataShape.Text.CharSet
import DataShape.Text.CloseMatch
import DataShape.Text.Digit
import DataShape.Text.Encoding
import DataShape.Text.Identifier
import DataShape.Text.Label
import DataShape.Text.LetterCase
import DataShape.Text.LetterContext
import DataShape.Text.Printable
import DataShape.Text.Quoted
import DataShape.Text.Split
import DataShape.Traversal
import DataShape.Value.Basic
import DataShape.Value.Callable
import DataShape.Value.Copy
import DataShape.Value.Display
import DataShape.Value.Entries
import DataShape.Value.Equality
import DataShape.Value.Json
import DataShape.Value.Live
import DataShape.Value.Order
import DataShape.Value.Sharing
import DataShape.World
