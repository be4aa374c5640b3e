import IcebergRs.Arrow.Batch
import IcebergRs.Arrow.CData
import IcebergRs.Arrow.Cast
import IcebergRs.Arrow.Columns
import IcebergRs.Arrow.Counts
import IcebergRs.Iceberg.Catalog
import IcebergRs.Iceberg.History
import IcebergRs.Iceberg.Predicate
import IcebergRs.Iceberg.Scan
import IcebergRs.Iceberg.Schema
import IcebergRs.Iceberg.Table
import IcebergRs.Mojo.Answers
import IcebergRs.Mojo.Batches
import IcebergRs.Mojo.Binding
import IcebergRs.Mojo.CData
import IcebergRs.Mojo.Calls
import IcebergRs.Mojo.Catalog
import IcebergRs.Mojo.Contents
import IcebergRs.Mojo.Decode
import IcebergRs.Mojo.Dlopen
import IcebergRs.Mojo.Listings
import IcebergRs.Mojo.Masks
import IcebergRs.Mojo.ObjectRules
import IcebergRs.Mojo.Objects
import IcebergRs.Mojo.PendingFiles
import IcebergRs.Mojo.Refinement
import IcebergRs.Mojo.RoundTrip
import IcebergRs.Mojo.Sessions
import IcebergRs.Mojo.Streams
import IcebergRs.Mojo.StringArguments
import IcebergRs.Mojo.StringCalls
import IcebergRs.Mojo.StringColumns
import IcebergRs.Mojo.Strings
import IcebergRs.Mojo.TypedReads
import IcebergRs.Mojo.Validity
import IcebergRs.Mojo.ZeroCopy
import IcebergRs.Shim.Append
import IcebergRs.Shim.Builder
import IcebergRs.Shim.BuilderMap
import IcebergRs.Shim.CData
import IcebergRs.Shim.Catalog
import IcebergRs.Shim.ColumnOrder
import IcebergRs.Shim.Commit
import IcebergRs.Shim.Contents
import IcebergRs.Shim.ErrorChannel
import IcebergRs.Shim.ErrorReplies
import IcebergRs.Shim.ExactlyOnce
import IcebergRs.Shim.FieldIdentity
import IcebergRs.Shim.Filter
import IcebergRs.Shim.FilterBuild
import IcebergRs.Shim.FilterGrammar
import IcebergRs.Shim.FilterMeaning
import IcebergRs.Shim.FilterPanics
import IcebergRs.Shim.FilterTypes
import IcebergRs.Shim.Getters
import IcebergRs.Shim.Handles
import IcebergRs.Shim.IntegerCodec
import IcebergRs.Shim.Lib
import IcebergRs.Shim.Listings
import IcebergRs.Shim.Metadata
import IcebergRs.Shim.Namespaces
import IcebergRs.Shim.NullPreservation
import IcebergRs.Shim.OnTexts
import IcebergRs.Shim.Ownership
import IcebergRs.Shim.PendingFiles
import IcebergRs.Shim.Projection
import IcebergRs.Shim.Scan
import IcebergRs.Shim.ScanStream
import IcebergRs.Shim.SnapshotFilter
import IcebergRs.Shim.SnapshotOrder
import IcebergRs.Shim.StringBuffers
import IcebergRs.Shim.StringOffsets
import IcebergRs.Shim.StringPacking
import IcebergRs.Shim.Table
import IcebergRs.Shim.TableIdentity
import IcebergRs.Shim.Timestamps
import IcebergRs.Support.Accounts
import IcebergRs.Support.Heap
import IcebergRs.Support.Json
import IcebergRs.Support.JsonRead
import IcebergRs.Support.JsonViews
import IcebergRs.Support.Kleene
import IcebergRs.Support.Ledger
import IcebergRs.Support.Outcome
import IcebergRs.Support.Packing
import IcebergRs.Support.ParentsFirst
import IcebergRs.Support.Polled
import IcebergRs.Support.Program
import IcebergRs.Support.Separated
import IcebergRs.Support.Slices
import IcebergRs.Support.Staging
import IcebergRs.Support.Text
import IcebergRs.Support.Trace
import IcebergRs.Support.Utf8
