import QueryConsole.Calendar.Date
import QueryConsole.Calendar.Instant
import QueryConsole.Calendar.Literal
import QueryConsole.Calendar.Window
import QueryConsole.Config.Address
import QueryConsole.Config.Environment
import QueryConsole.Dataset.Basic
import QueryConsole.Dataset.Tables
import QueryConsole.Decimal.Double
import QueryConsole.Decimal.Natural
import QueryConsole.Decimal.Shortest
import QueryConsole.Engine
import QueryConsole.Failure
import QueryConsole.Http.Body
import QueryConsole.Http.Form
import QueryConsole.Http.MediaType
import QueryConsole.Http.Query
import QueryConsole.Http.Request
import QueryConsole.Http.Response
import QueryConsole.Http.Route
import QueryConsole.Http.Server
import QueryConsole.Http.Url
import QueryConsole.Json.Basic
import QueryConsole.Json.Printer
import QueryConsole.Json.Reader
import QueryConsole.Json.Token
import QueryConsole.Json.Tree
import QueryConsole.Proofs.Adhoc.Cap
import QueryConsole.Proofs.Adhoc.Explained
import QueryConsole.Proofs.Adhoc.LiveText
import QueryConsole.Proofs.Adhoc.Rewriting
import QueryConsole.Proofs.Adhoc.Screening
import QueryConsole.Proofs.Adhoc.Settled
import QueryConsole.Proofs.Adhoc.SortedQuery
import QueryConsole.Proofs.Bindings.Names
import QueryConsole.Proofs.Bindings.Run
import QueryConsole.Proofs.Calendar.Clock
import QueryConsole.Proofs.Calendar.Date
import QueryConsole.Proofs.Calendar.Literal
import QueryConsole.Proofs.Calendar.Numerals
import QueryConsole.Proofs.Calendar.RoundTrip
import QueryConsole.Proofs.Calendar.StoreLiteral
import QueryConsole.Proofs.Calendar.Unambiguous
import QueryConsole.Proofs.Calendar.Widening
import QueryConsole.Proofs.Condition.Atoms
import QueryConsole.Proofs.Condition.Formula
import QueryConsole.Proofs.Condition.Reader
import QueryConsole.Proofs.Condition.RoundTrip
import QueryConsole.Proofs.Condition.Tokens
import QueryConsole.Proofs.Config.Limits
import QueryConsole.Proofs.Dataset.Columns
import QueryConsole.Proofs.Decimal.Unsigned
import QueryConsole.Proofs.Engine.Calls
import QueryConsole.Proofs.Engine.Total
import QueryConsole.Proofs.Http.Admission
import QueryConsole.Proofs.Http.Calls
import QueryConsole.Proofs.Http.Delivery
import QueryConsole.Proofs.Http.Form
import QueryConsole.Proofs.Http.Key
import QueryConsole.Proofs.Http.Preview
import QueryConsole.Proofs.Http.Rows
import QueryConsole.Proofs.Http.Total
import QueryConsole.Proofs.Http.Views
import QueryConsole.Proofs.Json.Digits
import QueryConsole.Proofs.Json.Lexemes
import QueryConsole.Proofs.Json.Payload
import QueryConsole.Proofs.Json.Printer
import QueryConsole.Proofs.Json.Scalars
import QueryConsole.Proofs.Json.Spelling
import QueryConsole.Proofs.Request.Entries
import QueryConsole.Proofs.Request.Given
import QueryConsole.Proofs.Request.Members
import QueryConsole.Proofs.Request.Padding
import QueryConsole.Proofs.Request.RangeBounds
import QueryConsole.Proofs.Request.Selection
import QueryConsole.Proofs.Request.ValueFilters
import QueryConsole.Proofs.Statement.Acceptance
import QueryConsole.Proofs.Statement.Decoding
import QueryConsole.Proofs.Statement.Demands
import QueryConsole.Proofs.Statement.Fragments
import QueryConsole.Proofs.Statement.Outline
import QueryConsole.Proofs.Statement.Placeholders
import QueryConsole.Proofs.Statement.PlainText
import QueryConsole.Proofs.Statement.Quoting
import QueryConsole.Proofs.Statement.Rows
import QueryConsole.Proofs.Statement.SameRows
import QueryConsole.Proofs.Statement.SameShape
import QueryConsole.Proofs.Statement.SelectLine
import QueryConsole.Proofs.Statement.Stacked
import QueryConsole.Proofs.Statement.Tally
import QueryConsole.Proofs.Statement.WhereLine
import QueryConsole.Proofs.Statement.Window
import QueryConsole.Proofs.Store.Determination
import QueryConsole.Proofs.Store.Endpoint
import QueryConsole.Proofs.Store.Rows
import QueryConsole.Proofs.Text.Braces
import QueryConsole.Proofs.Text.Lines
import QueryConsole.Proofs.Text.Split
import QueryConsole.Proofs.Text.Trim
import QueryConsole.Proofs.Text.Utf8
import QueryConsole.Proofs.Text.Words
import QueryConsole.Request.Filters
import QueryConsole.Request.Parameters
import QueryConsole.Request.RowFilter
import QueryConsole.Statement.Adhoc
import QueryConsole.Statement.Bindings
import QueryConsole.Statement.Compile
import QueryConsole.Statement.Condition
import QueryConsole.Statement.Explain
import QueryConsole.Statement.Pattern
import QueryConsole.Statement.Report
import QueryConsole.Statement.Scope
import QueryConsole.Statement.Select
import QueryConsole.Statement.Value
import QueryConsole.Storage
import QueryConsole.Store.Endpoint
import QueryConsole.Store.Reply
import QueryConsole.Text.Blank
import QueryConsole.Text.Hex
import QueryConsole.Text.Lines
import QueryConsole.Text.Utf8
import QueryConsole.Text.Word
