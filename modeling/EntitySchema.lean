import EntitySchema.BigEndian
import EntitySchema.Binary64
import EntitySchema.Category
import EntitySchema.CommandLine.Arguments
import EntitySchema.CommandLine.Running
import EntitySchema.Compact.Decoding
import EntitySchema.Compact.Dictionary
import EntitySchema.Compact.Encoding
import EntitySchema.Compact.Layout
import EntitySchema.Compact.Reader
import EntitySchema.Database
import EntitySchema.Diagnostic
import EntitySchema.Disk.FilePath
import EntitySchema.Disk.FileTree
import EntitySchema.Disk.Opening
import EntitySchema.EntityClass
import EntitySchema.Equivalence
import EntitySchema.Error
import EntitySchema.Grammar.Attributes
import EntitySchema.Grammar.Body
import EntitySchema.Grammar.Header
import EntitySchema.Grammar.Parser
import EntitySchema.Grammar.ValueList
import EntitySchema.HelperKind
import EntitySchema.Inspector
import EntitySchema.KeyValue
import EntitySchema.Lexer
import EntitySchema.Lineage
import EntitySchema.Main
import EntitySchema.MergedView
import EntitySchema.MessagePack.Reading
import EntitySchema.MessagePack.Value
import EntitySchema.OrderedMap
import EntitySchema.Snapshot.Reading
import EntitySchema.Snapshot.Tags
import EntitySchema.Snapshot.Writing
import EntitySchema.Source.Directive
import EntitySchema.Source.FileSource
import EntitySchema.Source.Loading
import EntitySchema.Text.Blank
import EntitySchema.Text.Lowercase
import EntitySchema.Text.Lowercase.Table
import EntitySchema.Text.Numeral
import EntitySchema.Text.Utf8
import EntitySchema.Text.Visible
import EntitySchema.Text.Visible.Table
import EntitySchema.Token
import EntitySchema.TokenStream
import EntitySchema.ValueType
import EntitySchema.Proofs.Folding
import EntitySchema.Proofs.Comparing
import EntitySchema.Proofs.Numerals
import EntitySchema.Proofs.Utf8
import EntitySchema.Proofs.Offsets
import EntitySchema.Proofs.Tiling
import EntitySchema.Proofs.Grammar.Placement
import EntitySchema.Proofs.Binary64.Units
import EntitySchema.Proofs.MapBounds
import EntitySchema.Proofs.Binary64.Rounding
import EntitySchema.Proofs.OrderedMap
import EntitySchema.Proofs.Outcome
import EntitySchema.Proofs.Reading
import EntitySchema.Proofs.Compact.Dictionary
import EntitySchema.Proofs.Compact.Confinement
import EntitySchema.Proofs.Compact.Layout
import EntitySchema.Proofs.Compact.Recalling
import EntitySchema.Proofs.Linking
import EntitySchema.Proofs.Compact.Relinking
import EntitySchema.Proofs.Compact.RoundTrip
import EntitySchema.Proofs.Compact.Decoded
import EntitySchema.Proofs.Compact.FixedPoint
import EntitySchema.Proofs.Compact.Safety
import EntitySchema.Proofs.Compact.Ending
import EntitySchema.Proofs.Grammar.Accepting
import EntitySchema.Proofs.Grammar.Sentences
import EntitySchema.Proofs.Lexemes
import EntitySchema.Proofs.Positions
import EntitySchema.Proofs.Cutting
import EntitySchema.Proofs.Grammar.AttributeReaders
import EntitySchema.Proofs.Grammar.Slots
import EntitySchema.Proofs.Grammar.BodyReaders
import EntitySchema.Proofs.Grammar.Endings
import EntitySchema.Proofs.Grammar.Flags
import EntitySchema.Proofs.Grammar.HeadReaders
import EntitySchema.Proofs.Grammar.Respelling
import EntitySchema.Proofs.Grammar.Writing
import EntitySchema.Proofs.Grammar.Words
import EntitySchema.Proofs.Grammar.RoundTrip
import EntitySchema.Proofs.Grammar.Arity
import EntitySchema.Proofs.Grammar.Spacing
import EntitySchema.Proofs.Loading.Classes
import EntitySchema.Proofs.Loading.Databases
import EntitySchema.Proofs.Loading.Calls
import EntitySchema.Proofs.Loading.Directives
import EntitySchema.Proofs.Loading.Inlining
import EntitySchema.Proofs.Inheritance.Lineage
import EntitySchema.Proofs.Inheritance.Merging
import EntitySchema.Proofs.Inheritance.PlainMerge
import EntitySchema.Proofs.Loading.Running
import EntitySchema.Proofs.Loading.Visits
import EntitySchema.Proofs.Inheritance.Reordering
import EntitySchema.Proofs.Editing
import EntitySchema.Proofs.Loading.Repeating
import EntitySchema.Proofs.Disk.Paths
import EntitySchema.Proofs.Disk.Trees
import EntitySchema.Proofs.Disk.Opening
import EntitySchema.Proofs.Compact.Limits
import EntitySchema.Proofs.Compact.Entering
import EntitySchema.Proofs.Compact.Advancing
import EntitySchema.Proofs.Disk.Identity
import EntitySchema.Proofs.MemoryFiles
import EntitySchema.Proofs.Grammar.Helpers
import EntitySchema.Proofs.MessagePack.Steady
import EntitySchema.Proofs.MessagePack.Storing
import EntitySchema.Proofs.Snapshot.Checking
import EntitySchema.Proofs.Refolding
import EntitySchema.Proofs.Linking.Early
import EntitySchema.Proofs.Compact.Defaults
import EntitySchema.Proofs.Inheritance.Unrepeated
import EntitySchema.Proofs.Compact.Inheriting
import EntitySchema.Proofs.Loading.Moving
import EntitySchema.Proofs.Loading.Overlaying
import EntitySchema.Proofs.Loading.Continuing
import EntitySchema.Proofs.Loading.Locating
import EntitySchema.Proofs.Loading.Failing
import EntitySchema.Proofs.Loading.Spacing
import EntitySchema.Proofs.Loading.MapSizes
import EntitySchema.Proofs.Inspecting.Drawing
import EntitySchema.Proofs.Inspecting.Cycles
import EntitySchema.Proofs.Inspecting.Printing
import EntitySchema.Proofs.CommandLine.Arranging
