import SchemaOnRead.Calendar.Date
import SchemaOnRead.Calendar.Iso8601
import SchemaOnRead.Calendar.Moment
import SchemaOnRead.Calendar.Pattern
import SchemaOnRead.Catalog.Column
import SchemaOnRead.Catalog.ColumnType
import SchemaOnRead.Catalog.FileType
import SchemaOnRead.Catalog.Manifest
import SchemaOnRead.Catalog.Member
import SchemaOnRead.Catalog.PartitionDefinition
import SchemaOnRead.Catalog.Registry
import SchemaOnRead.Catalog.Settings
import SchemaOnRead.Catalog.Table
import SchemaOnRead.Codec.Base64
import SchemaOnRead.Codec.Bits
import SchemaOnRead.Codec.Bzip2
import SchemaOnRead.Codec.Checksum
import SchemaOnRead.Codec.Contents
import SchemaOnRead.Codec.Damage
import SchemaOnRead.Codec.Deflate
import SchemaOnRead.Codec.Gzip
import SchemaOnRead.Codec.Huffman
import SchemaOnRead.Codec.Lz4
import SchemaOnRead.Codec.Lzma
import SchemaOnRead.Codec.Snappy.Block
import SchemaOnRead.Codec.Snappy.Framing
import SchemaOnRead.Codec.Xz
import SchemaOnRead.Columns.DateGuess
import SchemaOnRead.Columns.Inference
import SchemaOnRead.Columns.Listing
import SchemaOnRead.Columns.Recent
import SchemaOnRead.Columns.Router
import SchemaOnRead.Columns.Sample
import SchemaOnRead.Command.Arguments
import SchemaOnRead.Command.Run
import SchemaOnRead.Configuration
import SchemaOnRead.Display.CellText
import SchemaOnRead.Display.Grid
import SchemaOnRead.Engine.Query
import SchemaOnRead.Engine.Session
import SchemaOnRead.Failure
import SchemaOnRead.Json.Printer
import SchemaOnRead.Json.Reader
import SchemaOnRead.Json5.Reader
import SchemaOnRead.Log.Event
import SchemaOnRead.Log.Template
import SchemaOnRead.Main
import SchemaOnRead.Numeric.Binary64
import SchemaOnRead.Numeric.Decimal
import SchemaOnRead.Numeric.Power
import SchemaOnRead.Partition.Predicate
import SchemaOnRead.Proofs.Calendar.Days
import SchemaOnRead.Proofs.Calendar.Instants
import SchemaOnRead.Proofs.Calendar.IsoText
import SchemaOnRead.Proofs.Calendar.Ordinals
import SchemaOnRead.Proofs.Calendar.WrittenDates
import SchemaOnRead.Proofs.Catalog.Outcomes
import SchemaOnRead.Proofs.Catalog.Registries
import SchemaOnRead.Proofs.Catalog.RoundTrip
import SchemaOnRead.Proofs.Catalog.Suffixes
import SchemaOnRead.Proofs.Catalog.WellFormed
import SchemaOnRead.Proofs.Codec.LengthReads
import SchemaOnRead.Proofs.Codec.PieceByPiece
import SchemaOnRead.Proofs.Codec.WholeFrames
import SchemaOnRead.Proofs.Columns.ExactNumbers
import SchemaOnRead.Proofs.Columns.GuessedDates
import SchemaOnRead.Proofs.Columns.Inferred
import SchemaOnRead.Proofs.Columns.Listings
import SchemaOnRead.Proofs.Columns.RecentListings
import SchemaOnRead.Proofs.Columns.Samples
import SchemaOnRead.Proofs.Engine.PushedConstraints
import SchemaOnRead.Proofs.Engine.Sessions
import SchemaOnRead.Proofs.Json.Continuation
import SchemaOnRead.Proofs.Json.CutOff
import SchemaOnRead.Proofs.Json.Decoded
import SchemaOnRead.Proofs.Json.OneLine
import SchemaOnRead.Proofs.Json.Progress
import SchemaOnRead.Proofs.Json.RoundTrip
import SchemaOnRead.Proofs.Json.Surrogates
import SchemaOnRead.Proofs.Json.Written
import SchemaOnRead.Proofs.Json5.Written
import SchemaOnRead.Proofs.Numeric.DecimalText
import SchemaOnRead.Proofs.Numeric.DoubleRange
import SchemaOnRead.Proofs.Numeric.NumberText
import SchemaOnRead.Proofs.Numeric.Quantized
import SchemaOnRead.Proofs.Numeric.Rounded
import SchemaOnRead.Proofs.Partition.Constrained
import SchemaOnRead.Proofs.Partition.Declared
import SchemaOnRead.Proofs.Partition.FileLevel
import SchemaOnRead.Proofs.Partition.Values
import SchemaOnRead.Proofs.Record.Account
import SchemaOnRead.Proofs.Record.BatchedRows
import SchemaOnRead.Proofs.Record.Batching
import SchemaOnRead.Proofs.Record.Coercions
import SchemaOnRead.Proofs.Record.Cursors
import SchemaOnRead.Proofs.Record.DateColumns
import SchemaOnRead.Proofs.Record.Dates
import SchemaOnRead.Proofs.Record.EpochNumbers
import SchemaOnRead.Proofs.Record.FirstRecord
import SchemaOnRead.Proofs.Record.LaidOut
import SchemaOnRead.Proofs.Record.Lifecycle
import SchemaOnRead.Proofs.Record.Lines
import SchemaOnRead.Proofs.Record.OverflowLine
import SchemaOnRead.Proofs.Record.ReadFailures
import SchemaOnRead.Proofs.Record.Steps
import SchemaOnRead.Proofs.Record.StoredCells
import SchemaOnRead.Proofs.Record.Timestamps
import SchemaOnRead.Proofs.Record.Values
import SchemaOnRead.Proofs.Record.WholeText
import SchemaOnRead.Proofs.Regex.Ways
import SchemaOnRead.Proofs.Results
import SchemaOnRead.Proofs.Splits.Batches
import SchemaOnRead.Proofs.Splits.Draining
import SchemaOnRead.Proofs.Splits.Exactness
import SchemaOnRead.Proofs.Splits.Intersection
import SchemaOnRead.Proofs.Splits.Manifests
import SchemaOnRead.Proofs.Splits.Pruning
import SchemaOnRead.Proofs.Splits.RoundTrip
import SchemaOnRead.Proofs.Sql.Constraints
import SchemaOnRead.Proofs.Storage.Laziness
import SchemaOnRead.Proofs.Storage.Listings
import SchemaOnRead.Proofs.Storage.Objects
import SchemaOnRead.Proofs.Storage.PathNames
import SchemaOnRead.Proofs.Storage.Walks
import SchemaOnRead.Proofs.Text.Digits
import SchemaOnRead.Proofs.Text.LineEnds
import SchemaOnRead.Proofs.Text.LineNumbers
import SchemaOnRead.Proofs.Text.LowerCase
import SchemaOnRead.Proofs.Text.Utf8
import SchemaOnRead.Record.Batch
import SchemaOnRead.Record.Cell
import SchemaOnRead.Record.Coercion
import SchemaOnRead.Record.Cursor
import SchemaOnRead.Record.Line
import SchemaOnRead.Record.Reader
import SchemaOnRead.Regex.Basic
import SchemaOnRead.Regex.Names
import SchemaOnRead.Regex.Reader
import SchemaOnRead.Splits.Generation
import SchemaOnRead.Splits.Source
import SchemaOnRead.Splits.Split
import SchemaOnRead.Sql.Answer
import SchemaOnRead.Sql.Constraints
import SchemaOnRead.Sql.Evaluation
import SchemaOnRead.Sql.Expr
import SchemaOnRead.Sql.Parser
import SchemaOnRead.Sql.Scalar
import SchemaOnRead.Sql.Statement
import SchemaOnRead.Sql.Token
import SchemaOnRead.Storage.Access
import SchemaOnRead.Storage.Compression
import SchemaOnRead.Storage.MediaType
import SchemaOnRead.Storage.Path
import SchemaOnRead.Storage.Store
import SchemaOnRead.Storage.Walk
import SchemaOnRead.Text.Blank
import SchemaOnRead.Text.Digit
import SchemaOnRead.Text.Lowercase
import SchemaOnRead.Text.Printable
import SchemaOnRead.Text.Quoted
import SchemaOnRead.Text.Utf8
import SchemaOnRead.Text.Word
import SchemaOnRead.Trace
import SchemaOnRead.Value
import SchemaOnRead.Yaml.Node
import SchemaOnRead.Yaml.Reader
