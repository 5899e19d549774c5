import BlockSketch.Block.Arithmetic
import BlockSketch.Block.Arrays
import BlockSketch.Block.Basic
import BlockSketch.Block.Control
import BlockSketch.Block.Logic
import BlockSketch.Block.Motors
import BlockSketch.Block.Pins
import BlockSketch.Block.Procedures
import BlockSketch.Block.Registry
import BlockSketch.Block.Serial
import BlockSketch.Block.Servos
import BlockSketch.Block.Standard
import BlockSketch.Block.Structure
import BlockSketch.Block.Texts
import BlockSketch.Block.Time
import BlockSketch.Block.Variables
import BlockSketch.Board.Catalog
import BlockSketch.Board.Profile
import BlockSketch.BuildInfo
import BlockSketch.CommandLine.Options
import BlockSketch.CommandLine.Outcome
import BlockSketch.CommandLine.Verbosity
import BlockSketch.DataType
import BlockSketch.Diagnostic
import BlockSketch.Digest.Sha256
import BlockSketch.Emission.Comment
import BlockSketch.Emission.Draft
import BlockSketch.Emission.Expression
import BlockSketch.Emission.Recipe
import BlockSketch.Emission.Run
import BlockSketch.Emission.Workspace
import BlockSketch.Generation
import BlockSketch.Identifier.NameTable
import BlockSketch.Identifier.Reserved
import BlockSketch.Identifier.Spelling
import BlockSketch.Inference.Engine
import BlockSketch.Inference.Mention
import BlockSketch.Inference.TypeMap
import BlockSketch.Json.Basic
import BlockSketch.Json.Magnitude
import BlockSketch.Json.Reader
import BlockSketch.Json.Scanner
import BlockSketch.Json.Writer
import BlockSketch.Main
import BlockSketch.Number.Decimal
import BlockSketch.Number.Double
import BlockSketch.Number.Shortest
import BlockSketch.Pin
import BlockSketch.Program.Basic
import BlockSketch.Program.Builder
import BlockSketch.Program.Loading
import BlockSketch.Program.NodeId
import BlockSketch.Program.Saved
import BlockSketch.Program.Traversal
import BlockSketch.Program.Validation
import BlockSketch.Program.Variant
import BlockSketch.Proofs.Block.Directions
import BlockSketch.Proofs.Block.Fingerprint
import BlockSketch.Proofs.Block.Functions
import BlockSketch.Proofs.Block.MainFunctions
import BlockSketch.Proofs.Block.Numbering
import BlockSketch.Proofs.Block.Preamble
import BlockSketch.Proofs.Block.Registry
import BlockSketch.Proofs.Block.Sockets
import BlockSketch.Proofs.Block.Vocabulary
import BlockSketch.Proofs.Block.Lexicon
import BlockSketch.Proofs.Block.Wording
import BlockSketch.Proofs.Block.OwnTexts
import BlockSketch.Proofs.Cpp.Grammar
import BlockSketch.Proofs.Cpp.Parentheses
import BlockSketch.Proofs.Cpp.Token
import BlockSketch.Proofs.Emission.Calls
import BlockSketch.Proofs.Emission.Codes
import BlockSketch.Proofs.Emission.Journal
import BlockSketch.Proofs.Emission.Observed
import BlockSketch.Proofs.Emission.Paired
import BlockSketch.Proofs.Emission.Segments
import BlockSketch.Proofs.Emission.Sockets
import BlockSketch.Proofs.Emission.Told
import BlockSketch.Proofs.Emission.Visits
import BlockSketch.Proofs.Expression.LoopHeads
import BlockSketch.Proofs.Expression.Operands
import BlockSketch.Proofs.Expression.Printing
import BlockSketch.Proofs.Expression.Recipes
import BlockSketch.Proofs.Expression.RoundTrip
import BlockSketch.Proofs.Expression.Tree
import BlockSketch.Proofs.Generation.Declarations
import BlockSketch.Proofs.Generation.Drivers
import BlockSketch.Proofs.Generation.Functions
import BlockSketch.Proofs.Generation.GlobalObjects
import BlockSketch.Proofs.Generation.Headers
import BlockSketch.Proofs.Generation.Hygiene
import BlockSketch.Proofs.Generation.MainFunctions
import BlockSketch.Proofs.Generation.NumberedSockets
import BlockSketch.Proofs.Generation.Preamble
import BlockSketch.Proofs.Generation.Reordering
import BlockSketch.Proofs.Generation.SerialPorts
import BlockSketch.Proofs.Generation.SketchWords
import BlockSketch.Proofs.Generation.UserCode
import BlockSketch.Proofs.Generation.Warnings
import BlockSketch.Proofs.Generation.WellSorted
import BlockSketch.Proofs.Identifier.Allocation
import BlockSketch.Proofs.Identifier.UserNames
import BlockSketch.Proofs.Identifier.Words
import BlockSketch.Proofs.Inference.Assignment
import BlockSketch.Proofs.Inference.Consistency
import BlockSketch.Proofs.Inference.Mismatch
import BlockSketch.Proofs.Inference.Propagation
import BlockSketch.Proofs.Json.Reader
import BlockSketch.Proofs.Json.Scanner
import BlockSketch.Proofs.Number.Literal
import BlockSketch.Proofs.Pin.Ownership
import BlockSketch.Proofs.Program.Forest
import BlockSketch.Proofs.Program.Regions
import BlockSketch.Proofs.Program.Reordering
import BlockSketch.Proofs.Program.SaveLoad
import BlockSketch.Proofs.Program.Validation
import BlockSketch.Proofs.Sketch.Bucket
import BlockSketch.Proofs.Sketch.InsertionOrder
import BlockSketch.Proofs.Sketch.Layout
import BlockSketch.Proofs.Sketch.Placement
import BlockSketch.Proofs.Text.Bytes
import BlockSketch.Proofs.Text.CodeLines
import BlockSketch.Proofs.Text.Lines
import BlockSketch.Proofs.Text.Words
import BlockSketch.Sketch.Assembly
import BlockSketch.Sketch.Bucket
import BlockSketch.SortedMap
import BlockSketch.Text.Blank
import BlockSketch.Text.CaseTable
import BlockSketch.Text.Lines
import BlockSketch.Text.Lowercase
import BlockSketch.Text.Numeral
import BlockSketch.Text.Quoted
import BlockSketch.Text.VisibilityTable
import BlockSketch.Text.Visible
import BlockSketch.Proofs.Program.Refusals
import BlockSketch.Proofs.Block.Conditionals
import BlockSketch.Proofs.Program.Cycles
import BlockSketch.Proofs.Program.Preorder
import BlockSketch.Proofs.Text.Quoted
import BlockSketch.Proofs.Number.Grammar
import BlockSketch.Proofs.Generation.NumberTypes
import BlockSketch.Proofs.Block.Extents
import BlockSketch.Proofs.Expression.Commas
import BlockSketch.Proofs.Generation.Matrices
import BlockSketch.Proofs.Generation.Timestamps
import BlockSketch.Proofs.Inference.Descent
import BlockSketch.Proofs.Generation.ConditionalTypes
import BlockSketch.Proofs.Number.Whole
import BlockSketch.Proofs.Cpp.Evaluation
import BlockSketch.Proofs.Expression.Elements
import BlockSketch.Proofs.Sketch.Code
import BlockSketch.Proofs.Emission.Rewording
import BlockSketch.Proofs.Block.Rewording
import BlockSketch.Proofs.Generation.Comments
