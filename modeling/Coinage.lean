import Coinage.Amount.Basic
import Coinage.Amount.Dump
import Coinage.Amount.FastMoney
import Coinage.Amount.Kind
import Coinage.Amount.Money
import Coinage.Amount.Operations
import Coinage.Amount.Order
import Coinage.Amount.RoundedMoney
import Coinage.Binary.Format
import Coinage.Binary.Shortest
import Coinage.Command.Line
import Coinage.Command.Report
import Coinage.Command.Run
import Coinage.Currency.Basic
import Coinage.Currency.Iso
import Coinage.Currency.Registry
import Coinage.Decimal.Arithmetic
import Coinage.Decimal.Basic
import Coinage.Decimal.Checked
import Coinage.Decimal.Numeral
import Coinage.Decimal.Places
import Coinage.Decimal.Quotient
import Coinage.Decimal.Written
import Coinage.Error
import Coinage.Instant.Basic
import Coinage.Instant.Written
import Coinage.Json.Basic
import Coinage.Json.Number
import Coinage.Json.Reader
import Coinage.Json.Writer
import Coinage.Main
import Coinage.Numeric
import Coinage.Operator.Reference
import Coinage.Projection
import Coinage.Proofs.Amount.Basic
import Coinage.Proofs.Amount.IntegralDivision
import Coinage.Proofs.Decimal.Checked
import Coinage.Proofs.Decimal.Digits
import Coinage.Proofs.Decimal.Nearest
import Coinage.Proofs.Decimal.Products
import Coinage.Proofs.Decimal.Quotient
import Coinage.Proofs.Decimal.Value
import Coinage.Proofs.Outcome
import Coinage.Proofs.Rounding.Select
import Coinage.Rate.Basic
import Coinage.Rate.Builder
import Coinage.Rate.Context
import Coinage.Rate.Conversion
import Coinage.Rate.Error
import Coinage.Rounding.Context
import Coinage.Rounding.Mode
import Coinage.Rounding.Provider
import Coinage.Settings
import Coinage.Stored.Amount
import Coinage.Stored.Decoding
import Coinage.Stored.Rate
import Coinage.Text.Blank
import Coinage.Text.Literal
import Coinage.Text.Unassigned
import Coinage.Text.Visible
import Coinage.Proofs.Amount.ContextInvariant
import Coinage.Proofs.Amount.FastProducts
import Coinage.Proofs.Rounding.Twice
import Coinage.Proofs.Decimal.DoubleRounding
import Coinage.Proofs.Amount.SingleRounding
import Coinage.Proofs.Amount.FastDivision
import Coinage.Proofs.Decimal.Normal
import Coinage.Proofs.Amount.Lockstep
import Coinage.Proofs.Decimal.Written
import Coinage.Proofs.Stored.Amount
import Coinage.Proofs.Amount.Reapplied
import Coinage.Proofs.Rate.Builder
import Coinage.Proofs.Rate.Chains
import Coinage.Proofs.Rate.Composition
import Coinage.Proofs.Amount.Order
import Coinage.Proofs.Amount.Mismatch
import Coinage.Proofs.Instant.Calendar
import Coinage.Proofs.Instant.Written
import Coinage.Proofs.Stored.Money
import Coinage.Proofs.Stored.Rate
import Coinage.Proofs.Decimal.RoundingError
import Coinage.Proofs.Amount.MultipliedBack
import Coinage.Proofs.Amount.PendingPlaces
import Coinage.Proofs.Rate.Creation
import Coinage.Proofs.Decimal.Reading
import Coinage.Proofs.Decimal.Numeral
import Coinage.Proofs.Decimal.Scale
import Coinage.Proofs.Decimal.Significant
import Coinage.Proofs.Amount.FastConstruction
import Coinage.Proofs.Amount.ExactResults
import Coinage.Proofs.Amount.Projection
import Coinage.Proofs.Rounding.Increments
import Coinage.Proofs.Amount.Parts
import Coinage.Proofs.Rate.Effective
import Coinage.Proofs.Amount.Powers
import Coinage.Proofs.Amount.Shifts
import Coinage.Proofs.Amount.BoundlessContext
import Coinage.Proofs.Command.RateText
import Coinage.Proofs.Command.Conversion
import Coinage.Proofs.Instant.Order
import Coinage.Proofs.Rounding.Past
import Coinage.Proofs.Rate.Attributes
import Coinage.Proofs.Rate.Aggregation
import Coinage.Proofs.Rate.Rebuilding
import Coinage.Proofs.Amount.Union
import Coinage.Proofs.Amount.Transparency
import Coinage.Proofs.Currency.Registry
import Coinage.Proofs.Settings
import Coinage.Proofs.Amount.WideDivision
import Coinage.Proofs.Rounding.Named
