import Reckon.CommandLine.Options
import Reckon.CommandLine.Run
import Reckon.Decimal.Binary
import Reckon.Decimal.Notation
import Reckon.Decimal.Reader
import Reckon.Diagnostic
import Reckon.Lexeme.Basic
import Reckon.Lexeme.Recognizer
import Reckon.Lexeme.Scanner
import Reckon.Library.Collection
import Reckon.Library.Elementary
import Reckon.Library.Run
import Reckon.Library.Shape
import Reckon.Library.Sorting
import Reckon.Library.Text
import Reckon.Locale.Lineage
import Reckon.Locale.NumberFormat
import Reckon.Locale.NumberMarks
import Reckon.Locale.Register
import Reckon.Locale.Tag
import Reckon.Main
import Reckon.Numeric.Complex
import Reckon.Numeric.Real
import Reckon.Operator.Arithmetic
import Reckon.Operator.Cascade
import Reckon.Plugin.Basic
import Reckon.Plugin.Manifest
import Reckon.Scope
import Reckon.Session.Apply
import Reckon.Session.Arena
import Reckon.Session.Basic
import Reckon.Session.Eval
import Reckon.Session.Machine
import Reckon.Source.Position
import Reckon.Text.CaseMap
import Reckon.Text.Distance
import Reckon.Text.Json
import Reckon.Text.Letter
import Reckon.Text.Piecewise
import Reckon.Text.Quoted
import Reckon.Text.Ranges
import Reckon.Text.Rune
import Reckon.Token
import Reckon.Tree.Basic
import Reckon.Tree.Json
import Reckon.Tree.Node
import Reckon.Tree.Outline
import Reckon.Tree.Parser
import Reckon.Tree.Parser.Expression
import Reckon.Tree.Parser.Markup
import Reckon.Tree.Parser.State
import Reckon.Tree.Parser.Statement
import Reckon.Tree.SExpr
import Reckon.Value.Basic
import Reckon.Value.Builtin
import Reckon.Value.Display
import Reckon.Value.Fault
import Reckon.Value.Future
import Reckon.Value.Host
import Reckon.Value.Matrix
import Reckon.Value.Record
import Reckon.Value.Store
import Reckon.Yaml.Basic
import Reckon.Yaml.Datum
import Reckon.Yaml.Decoding
import Reckon.Yaml.Input
import Reckon.Yaml.Node.Reader
import Reckon.Yaml.Schema
import Reckon.Yaml.Timestamp
import Reckon.Yaml.Token.Basic
import Reckon.Yaml.Token.Property
import Reckon.Yaml.Token.Scalar
import Reckon.Yaml.Token.Stream
import Reckon.Proofs.Parsing.Complete
import Reckon.Proofs.Parsing.ReadsExpression
import Reckon.Proofs.Parsing.ReadsMarkup
import Reckon.Proofs.Parsing.ReadsStatement
import Reckon.Proofs.Parsing.Stream
import Reckon.Proofs.RoundTrip.Levels
import Reckon.Proofs.RoundTrip.Forms
import Reckon.Proofs.RoundTrip.Recovery
import Reckon.Proofs.RoundTrip.Scanning
import Reckon.Proofs.Session.Retag
import Reckon.Proofs.Session.Regime
import Reckon.Proofs.Session.Keeping
import Reckon.Proofs.Session.Evaluation
import Reckon.Proofs.Arena.Chain
import Reckon.Proofs.Arena.Configuration
import Reckon.Proofs.Arena.Requests
import Reckon.Proofs.Definition.Shadowing
import Reckon.Proofs.Definition.Guarded
import Reckon.Proofs.Definition.Forgetting
import Reckon.Proofs.Definition.Fresh
import Reckon.Proofs.Definition.Agreement
import Reckon.Proofs.Session.Hosting
import Reckon.Proofs.Arena.Positions
import Reckon.Proofs.Tree.Children
import Reckon.Proofs.Tree.Walk
import Reckon.Proofs.Lexeme.Layout
import Reckon.Proofs.Parsing.Ensures
import Reckon.Proofs.Parsing.Derives
import Reckon.Proofs.Parsing.BuildsExpression
import Reckon.Proofs.Parsing.BuildsMarkup
import Reckon.Proofs.Parsing.BuildsStatement
import Reckon.Proofs.Parsing.Scoping
import Reckon.Proofs.Parsing.Order
import Reckon.Proofs.Parsing.Accounting
import Reckon.Proofs.Scene.Steps
import Reckon.Proofs.Scene.WellFormed
import Reckon.Proofs.Scene.Places
import Reckon.Proofs.Scene.Tags
import Reckon.Proofs.Text.Spelling
import Reckon.Proofs.Lexeme.Tiling
import Reckon.Proofs.Lexeme.Placing
import Reckon.Proofs.Arena.Moves
import Reckon.Proofs.Arena.Standing
import Reckon.Proofs.Arena.Restoration
import Reckon.Proofs.Arena.Cancellation
import Reckon.Proofs.Future.Protocol
import Reckon.Proofs.Future.Awaiting
import Reckon.Proofs.Parsing.Framing
import Reckon.Proofs.Failure.Passing
import Reckon.Proofs.Failure.Evaluation
import Reckon.Proofs.Failure.Delivery
import Reckon.Proofs.Failure.Reporting
import Reckon.Proofs.Value.Record
import Reckon.Proofs.Value.History
import Reckon.Proofs.Value.Matrix
import Reckon.Proofs.Library.Arrays
import Reckon.Proofs.Store.Insertion
import Reckon.Proofs.Store.Carrying
import Reckon.Proofs.Library.Carrying
import Reckon.Proofs.Session.Insertion
import Reckon.Proofs.Session.Carrying
import Reckon.Proofs.Session.Currying
import Reckon.Proofs.Parsing.Nesting
import Reckon.Proofs.Plugin.Quiet
import Reckon.Proofs.Plugin.Installing
import Reckon.Proofs.Parsing.Shapes
import Reckon.Proofs.Session.Supported
import Reckon.Proofs.Decimal.Whole
import Reckon.Proofs.Decimal.Operations
import Reckon.Proofs.Data.Basic
import Reckon.Proofs.Data.Scanning
import Reckon.Proofs.Data.Meaning
import Reckon.Proofs.Data.Parsing
import Reckon.Proofs.Data.Recovery
import Reckon.Proofs.Lexeme.Newlines
import Reckon.Proofs.Lexeme.Semicolons
import Reckon.Proofs.Tree.Relocate
import Reckon.Proofs.Parsing.Relocating
import Reckon.Proofs.Parsing.MovesExpression
import Reckon.Proofs.Parsing.MovesStatement
import Reckon.Proofs.Lexeme.Extending
import Reckon.Proofs.Lexeme.Moving
import Reckon.Proofs.Parsing.WatchesExpression
import Reckon.Proofs.Parsing.WatchesStatement
import Reckon.Proofs.Lexeme.Joining
import Reckon.Proofs.Parsing.Continuation
import Reckon.Proofs.RoundTrip.Juxtaposition
import Reckon.Proofs.Lexeme.Recognizing
import Reckon.Proofs.Lexeme.Branches
import Reckon.Proofs.CommandLine.Listing
import Reckon.Proofs.Lexeme.Verbatim
import Reckon.Proofs.Lexeme.Payload
import Reckon.Proofs.Lexeme.Passing
import Reckon.Proofs.Lexeme.Replacing
import Reckon.Proofs.Operator.Verdict
import Reckon.Proofs.Operator.Broadcasting
import Reckon.Proofs.Operator.Equality
import Reckon.Proofs.Operator.Range
import Reckon.Proofs.Value.Sameness
import Reckon.Proofs.Value.Pushing
import Reckon.Proofs.Decimal.Ordering
import Reckon.Proofs.Library.Sorting
import Reckon.Proofs.Library.Ordering
import Reckon.Proofs.Library.Turns
import Reckon.Proofs.Library.Selection
import Reckon.Proofs.Library.Folding
import Reckon.Proofs.Session.Entrances
import Reckon.Proofs.Plugin.Validating
import Reckon.Proofs.Parsing.Contents
import Reckon.Proofs.Parsing.Breaking
import Reckon.Proofs.Parsing.Access
import Reckon.Proofs.Tree.Documents
