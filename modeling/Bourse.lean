import Bourse.Binance.Records
import Bourse.Binance.Trading
import Bourse.Binance.Venue
import Bourse.Binary64.Basic
import Bourse.Binary64.Scaled
import Bourse.Binary64.Shortest
import Bourse.Binary64.Text
import Bourse.Classify.Classifier
import Bourse.Classify.Tables
import Bourse.Classify.WaitHint
import Bourse.Client.Basic
import Bourse.Client.Config
import Bourse.Client.Loading
import Bourse.Client.Markets
import Bourse.Client.Request
import Bourse.Client.Session
import Bourse.Credentials
import Bourse.Decimal.Arith
import Bourse.Decimal.Basic
import Bourse.Decimal.OfBinary
import Bourse.Decimal.Text
import Bourse.Encoding.Base64
import Bourse.Encoding.Hex
import Bourse.Encoding.Percent
import Bourse.Encoding.Query
import Bourse.Error.Basic
import Bourse.Error.Kind
import Bourse.Exchange
import Bourse.Failure
import Bourse.Hash.Algorithm
import Bourse.Hash.Blocks
import Bourse.Hash.Md5
import Bourse.Hash.Sha1
import Bourse.Hash.Sha2
import Bourse.Http.Config
import Bourse.Http.Message
import Bourse.Http.Method
import Bourse.Http.Wire
import Bourse.Json.Access
import Bourse.Json.Basic
import Bourse.Json.Codec
import Bourse.Json.Outline
import Bourse.Json.Parser
import Bourse.Json.Printer
import Bourse.Json.Shape
import Bourse.Limiter
import Bourse.Logging
import Bourse.Okx.Records
import Bourse.Okx.Trading
import Bourse.Okx.Venue
import Bourse.Power
import Bourse.Precision
import Bourse.Proofs.Binance.Messages
import Bourse.Proofs.Binance.Signing
import Bourse.Proofs.Classify.Evidence
import Bourse.Proofs.Classify.Messages
import Bourse.Proofs.Classify.Stages
import Bourse.Proofs.Client.Arguments
import Bourse.Proofs.Client.Cache
import Bourse.Proofs.Client.Frame
import Bourse.Proofs.Client.Handed
import Bourse.Proofs.Client.OneAttempt
import Bourse.Proofs.Client.Sandbox
import Bourse.Proofs.Client.SingleFlight
import Bourse.Proofs.Client.Steps
import Bourse.Proofs.Client.Verdict
import Bourse.Proofs.Credentials
import Bourse.Proofs.Decimal.LastPlace
import Bourse.Proofs.Decimal.Numeral
import Bourse.Proofs.Decimal.Value
import Bourse.Proofs.Encoding.Percent
import Bourse.Proofs.Encoding.Query
import Bourse.Proofs.Http.Url
import Bourse.Proofs.Json.Int64
import Bourse.Proofs.Okx.Signing
import Bourse.Proofs.Precision.Ticks
import Bourse.Proofs.Registry.Agreement
import Bourse.Proofs.Registry.Derived
import Bourse.Proofs.Result
import Bourse.Proofs.Rounding
import Bourse.Proofs.Table
import Bourse.Proofs.Text.Boundary
import Bourse.Proofs.Text.Cut
import Bourse.Proofs.Text.Replace
import Bourse.Proofs.Text.Utf8
import Bourse.Proofs.Venue.Passes
import Bourse.Record.Balance
import Bourse.Record.Currency
import Bourse.Record.Field
import Bourse.Record.Market
import Bourse.Record.Names
import Bourse.Record.Order
import Bourse.Record.OrderBook
import Bourse.Registry
import Bourse.Rounding
import Bourse.Signature
import Bourse.SortedTable
import Bourse.Table
import Bourse.Text.Blank
import Bourse.Text.CaseMap
import Bourse.Text.CaseTable
import Bourse.Text.Cut
import Bourse.Text.Numeral
import Bourse.Text.Reader
import Bourse.Text.Utf8
import Bourse.Time.Calendar
import Bourse.Time.Iso8601
import Bourse.Time.MailDate
import Bourse.Venue.Adapter
import Bourse.Venue.Description
import Bourse.Venue.Endpoint
import Bourse.Venue.Inquiry
import Bourse.Venue.Signing
import Bourse.Venue.Template
import Bourse.Proofs.Registry.NativeIds
import Bourse.Proofs.Decimal.Normal
import Bourse.Proofs.Precision.Conventions
import Bourse.Proofs.Client.WaitHint
import Bourse.Proofs.Classify.Tables
import Bourse.Proofs.Okx.Failures
import Bourse.Proofs.Client.LongWait
import Bourse.Proofs.Encoding.Base64
import Bourse.Proofs.Okx.Orders
import Bourse.Proofs.Client.StatusKind
import Bourse.Proofs.Precision.Exact
import Bourse.Proofs.Okx.Placing
import Bourse.Proofs.Limiter
import Bourse.Proofs.Client.Pace
import Bourse.Proofs.Client.Gate
import Bourse.Proofs.Decimal.ReadBack
import Bourse.Proofs.SortedTable
import Bourse.Proofs.Record.Reading
import Bourse.Proofs.Record.RoundTrip
import Bourse.Proofs.Text.Digits
import Bourse.Proofs.Time.Calendar
import Bourse.Proofs.Time.Iso8601
import Bourse.Proofs.Text.Blank
import Bourse.Proofs.Registry.Finest
import Bourse.Proofs.Decimal.Canonical
import Bourse.Proofs.Precision.Readable
import Bourse.Proofs.Precision.Significant
import Bourse.Proofs.Decimal.Checked
import Bourse.Proofs.Record.Completion
import Bourse.Proofs.Record.Ranking
import Bourse.Proofs.Registry.Owner
import Bourse.Proofs.Precision.Places
import Bourse.Proofs.Precision.Projection
import Bourse.Proofs.Record.Balances
import Bourse.Proofs.Venue.Endpoints
import Bourse.Proofs.Encoding.Hex
import Bourse.Proofs.Signature
import Bourse.Proofs.Binary64.Value
import Bourse.Proofs.Binary64.Nearest
import Bourse.Proofs.Binary64.WholePart
import Bourse.Proofs.Text.Scientific
import Bourse.Proofs.Binary64.Reading
import Bourse.Proofs.Json.Integers
import Bourse.Proofs.Json.Fields
import Bourse.Proofs.Json.Shape
import Bourse.Proofs.Precision.ShownDigits
import Bourse.Proofs.Precision.Implied
