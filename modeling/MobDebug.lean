import MobDebug.Debuggee.Script
import MobDebug.LogFilter.Basic
import MobDebug.Main
import MobDebug.Proofs.Channel.Wiring
import MobDebug.Proofs.Channel.Traffic
import MobDebug.Proofs.Text.Utf8
import MobDebug.Proofs.Channel.Written
import MobDebug.Proofs.Channel.Places
import MobDebug.Proofs.Channel.Reports
import MobDebug.Proofs.Session.Connection
import MobDebug.Proofs.Session.Run
import MobDebug.Proofs.Session.Pause
import MobDebug.Proofs.Session.Calls
import MobDebug.Proofs.Session.Turn
import MobDebug.Proofs.Session.Phase
import MobDebug.Proofs.Session.Attachment
import MobDebug.Proofs.Session.Ended
import MobDebug.Proofs.Channel.Replies
import MobDebug.Proofs.Session.Breakpoints
import MobDebug.Proofs.Session.Edits
import MobDebug.Proofs.Session.Pairing
import MobDebug.Proofs.Wire.Header
import MobDebug.Proofs.Wire.Frames
import MobDebug.Proofs.Wire.Stream
import MobDebug.Proofs.Double.Rounding
import MobDebug.Proofs.Text.Digits
import MobDebug.Proofs.Double.Decimal
import MobDebug.Proofs.Double.Shortest
import MobDebug.Proofs.Literal.Trivia
import MobDebug.Proofs.Literal.Quotation
import MobDebug.Proofs.Literal.Names
import MobDebug.Proofs.Literal.Placeholders
import MobDebug.Proofs.Literal.Numerals
import MobDebug.Proofs.Literal.Numbers
import MobDebug.Proofs.Literal.Keys
import MobDebug.Proofs.Literal.Tables
import MobDebug.Proofs.Literal.RoundTrip
import MobDebug.Proofs.Session.Accord
import MobDebug.Proofs.Session.Agreement
import MobDebug.Proofs.Session.Rollback
import MobDebug.Proofs.Channel.Causes
import MobDebug.Proofs.Channel.Failure
import MobDebug.Proofs.Channel.Tasks
import MobDebug.Proofs.Channel.Cancelled
import MobDebug.Proofs.Channel.Stall
import MobDebug.Proofs.Channel.Handed
import MobDebug.Proofs.Channel.Dialogue
import MobDebug.Proofs.Session.Resumption
import MobDebug.Proofs.Session.Orders
import MobDebug.Proofs.Session.Handshake
import MobDebug.Proofs.Session.Pump
import MobDebug.Proofs.Session.Shown
import MobDebug.Proofs.Session.Subscription
import MobDebug.Proofs.Session.Rooted
import MobDebug.Proofs.Session.Latest
import MobDebug.Proofs.Literal.Grammar.Truncation
import MobDebug.Proofs.Double.Equality
import MobDebug.Proofs.Literal.Normalization
import MobDebug.Proofs.Literal.Equality
import MobDebug.Proofs.Literal.History
import MobDebug.Proofs.Literal.Grammar.Regularity
import MobDebug.Proofs.Literal.Grammar.Stability
import MobDebug.Proofs.Literal.Grammar.Descent
import MobDebug.Proofs.Session.Refusal
import MobDebug.Proofs.Session.Abreast
import MobDebug.Proofs.Session.Rejection
import MobDebug.Proofs.Session.Loss
import MobDebug.Proofs.Session.Exchange
import MobDebug.Proofs.Session.Greeting
import MobDebug.Proofs.Session.Recording
import MobDebug.Proofs.Session.Alternation
import MobDebug.Proofs.Session.Untold
import MobDebug.Proofs.Session.Toggling
import MobDebug.Proofs.Evaluation.Results
import MobDebug.Proofs.Evaluation.Line
import MobDebug.Proofs.Stack.Envelope
import MobDebug.Proofs.Session.Flavours
import MobDebug.Proofs.Wire.Heading
import MobDebug.Proofs.Console.Places
import MobDebug.Proofs.Console.Progress
import MobDebug.Proofs.Console.Printing
import MobDebug.Proofs.Literal.Shown
import MobDebug.Proofs.Literal.Spelling
import MobDebug.Proofs.Literal.Enclosed
import MobDebug.Proofs.Double.Scaling
import MobDebug.Proofs.Literal.HexReading
import MobDebug.Proofs.Literal.Integers
import MobDebug.Proofs.Evaluation.Positions
import MobDebug.Proofs.Literal.Cursor.Hexadecimals
import MobDebug.Proofs.Literal.Cursor.Literals
import MobDebug.Proofs.Literal.Cursor.Runs
import MobDebug.Proofs.LogFilter.Order
import MobDebug.Proofs.LogFilter.Precedence
