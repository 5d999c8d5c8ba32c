import PrimScript.CallStack
import PrimScript.Chat.Listener
import PrimScript.Chat.Message
import PrimScript.Clock.Calendar
import PrimScript.Clock.Span
import PrimScript.CommandLine.Basic
import PrimScript.CommandLine.Command
import PrimScript.Constant
import PrimScript.Decimal.Expansion
import PrimScript.Decimal.Numeral
import PrimScript.Decimal.Prefix
import PrimScript.Decimal.Shortest
import PrimScript.Diagnostic
import PrimScript.Engine.Basic
import PrimScript.Engine.Time
import PrimScript.Eval.Basic
import PrimScript.Eval.Expr
import PrimScript.Eval.Flow
import PrimScript.Eval.Run
import PrimScript.Eval.Stmt
import PrimScript.Event.Basic
import PrimScript.Event.Kind
import PrimScript.Event.Queue
import PrimScript.Geometry.Euler
import PrimScript.Geometry.Quat
import PrimScript.Geometry.Vec
import PrimScript.History
import PrimScript.Json.Basic
import PrimScript.Json.Printer
import PrimScript.Json.Reader
import PrimScript.Json.Record
import PrimScript.Key
import PrimScript.Library.Catalog
import PrimScript.Library.Extensions
import PrimScript.Library.Function
import PrimScript.Library.Lists
import PrimScript.Library.Math
import PrimScript.Library.Requests
import PrimScript.Library.Self
import PrimScript.Library.Sensing
import PrimScript.Library.Speech
import PrimScript.Library.Texts
import PrimScript.Library.Time
import PrimScript.Main
import PrimScript.NameMap
import PrimScript.Pattern.Basic
import PrimScript.Pattern.Match
import PrimScript.Pattern.Parse
import PrimScript.Proofs.Chat.Listeners
import PrimScript.Proofs.Engine.Answers
import PrimScript.Proofs.Engine.Catalog
import PrimScript.Proofs.Engine.Failure
import PrimScript.Proofs.Engine.Frames
import PrimScript.Proofs.Engine.Heard
import PrimScript.Proofs.Engine.Overflow
import PrimScript.Proofs.Engine.Prompt
import PrimScript.Proofs.Engine.Request
import PrimScript.Proofs.Engine.Target
import PrimScript.Proofs.Engine.Timely
import PrimScript.Proofs.Engine.Transition
import PrimScript.Proofs.Engine.WellTyped
import PrimScript.Proofs.Eval.Arguments
import PrimScript.Proofs.Eval.Element
import PrimScript.Proofs.Eval.Once
import PrimScript.Proofs.Eval.Passes
import PrimScript.Proofs.Event.Account
import PrimScript.Proofs.Flat.Body
import PrimScript.Proofs.Geometry.Rotation
import PrimScript.Proofs.Globals.Binds
import PrimScript.Proofs.Library.Format
import PrimScript.Proofs.Library.Seconds
import PrimScript.Proofs.Library.Speech
import PrimScript.Proofs.Library.Texts
import PrimScript.Proofs.Region.Lookup
import PrimScript.Proofs.Slice.Ranges
import PrimScript.Proofs.Syntax.Dangling
import PrimScript.Proofs.Syntax.Ending
import PrimScript.Proofs.Syntax.LineEnds
import PrimScript.Proofs.Syntax.Load
import PrimScript.Proofs.Syntax.RoundTrip
import PrimScript.Proofs.Token.Comment
import PrimScript.Proofs.Token.Literal
import PrimScript.Proofs.Token.Quoted
import PrimScript.Proofs.Token.Tiling
import PrimScript.Proofs.Unbounded.Run
import PrimScript.Proofs.Value.Lossless
import PrimScript.Proofs.Value.Order
import PrimScript.Proofs.Value.Sorted
import PrimScript.Proofs.Value.Text
import PrimScript.Proofs.World.Timer
import PrimScript.Region.Entity
import PrimScript.Region.Sweep
import PrimScript.Settings.Basic
import PrimScript.Settings.Stored
import PrimScript.Slice
import PrimScript.StateMachine
import PrimScript.Syntax.Expr
import PrimScript.Syntax.Operator
import PrimScript.Syntax.Parse.Basic
import PrimScript.Syntax.Parse.Expr
import PrimScript.Syntax.Parse.Script
import PrimScript.Syntax.Parse.Stmt
import PrimScript.Syntax.Script
import PrimScript.Syntax.Source
import PrimScript.Syntax.Stored
import PrimScript.Syntax.Validity
import PrimScript.Syntax.ValueType
import PrimScript.Text.Blank
import PrimScript.Text.Case
import PrimScript.Text.CaseTable
import PrimScript.Text.Escape
import PrimScript.Text.Search
import PrimScript.Text.Tokens
import PrimScript.Text.Utf8
import PrimScript.Text.Visible
import PrimScript.Text.WordTable
import PrimScript.Token.Basic
import PrimScript.Token.Lexer
import PrimScript.Value.Basic
import PrimScript.Value.Coerce
import PrimScript.Value.Operator
import PrimScript.Value.Sort
import PrimScript.World.Alarm
import PrimScript.World.Basic
import PrimScript.World.Surroundings
