import RecordQuery.Arguments
import RecordQuery.Calendar.Date
import RecordQuery.Calendar.Iso
import RecordQuery.Calendar.Moment
import RecordQuery.Calendar.Zone
import RecordQuery.Catalog
import RecordQuery.Condition
import RecordQuery.Database.Cell
import RecordQuery.Database.Clause
import RecordQuery.Database.Limits
import RecordQuery.Database.Pattern
import RecordQuery.Database.Selection
import RecordQuery.Database.Statement
import RecordQuery.Error
import RecordQuery.Keyed
import RecordQuery.Literal
import RecordQuery.Number.Binary64
import RecordQuery.Number.Decimal
import RecordQuery.Number.Extended
import RecordQuery.Number.Numeral
import RecordQuery.Number.Shortest
import RecordQuery.Number.Significant
import RecordQuery.Operator
import RecordQuery.Record
import RecordQuery.RecordList
import RecordQuery.Repository
import RecordQuery.Runs.Lemmas
import RecordQuery.Runs.Merge
import RecordQuery.Runs.Search
import RecordQuery.Runs.Sort
import RecordQuery.Schema
import RecordQuery.Scope
import RecordQuery.Service
import RecordQuery.Source
import RecordQuery.Specification
import RecordQuery.Specification.OfArguments
import RecordQuery.Text.Alphanumeric
import RecordQuery.Text.Basic
import RecordQuery.Text.Digit
import RecordQuery.Text.LetterCase
import RecordQuery.Text.LetterCase.Table
import RecordQuery.Text.PercentCode
import RecordQuery.Text.Printable
import RecordQuery.Text.Utf8
import RecordQuery.Uuid
import RecordQuery.Value.Basic
import RecordQuery.Value.Order
import RecordQuery.Value.Text
import RecordQuery.Value.Wire
import RecordQuery.Proofs.Outcome
import RecordQuery.Proofs.Schema
import RecordQuery.Proofs.WellFormed
import RecordQuery.Proofs.Database.Ties
import RecordQuery.Proofs.Compilation
import RecordQuery.Proofs.Text.PercentCode
import RecordQuery.Proofs.Text.Pieces
import RecordQuery.Proofs.Text.Words
import RecordQuery.Proofs.Arguments
import RecordQuery.Proofs.Value.Plain
import RecordQuery.Proofs.Scope
import RecordQuery.Proofs.Text.Digit
import RecordQuery.Proofs.Pages
import RecordQuery.Proofs.PageArgument
import RecordQuery.Proofs.RoundTrip
import RecordQuery.Proofs.Calendar.Order
import RecordQuery.Proofs.Number.Decimal
import RecordQuery.Proofs.Value.Order
import RecordQuery.Proofs.Database.Pattern
import RecordQuery.Proofs.Database.Cell
import RecordQuery.Proofs.Calendar.Day
import RecordQuery.Proofs.Literal
import RecordQuery.Proofs.Operator
import RecordQuery.Proofs.Database.Atom
import RecordQuery.Proofs.StableSort
import RecordQuery.Proofs.Database.Clause
import RecordQuery.Proofs.RecordList
import RecordQuery.Proofs.Database.RowOrder
import RecordQuery.Proofs.Database.Stored
import RecordQuery.Proofs.Database.Listing
import RecordQuery.Proofs.Database.Pages
import RecordQuery.Proofs.Rejection
import RecordQuery.Proofs.Database.FilterValues
import RecordQuery.Proofs.Compilable
import RecordQuery.Proofs.Duality
import RecordQuery.Proofs.Database.WallClock
import RecordQuery.Proofs.Database.SearchedText
import RecordQuery.Proofs.Database.Placeholders
import RecordQuery.Proofs.Database.Forms
import RecordQuery.Proofs.Database.Statement
import RecordQuery.Proofs.Database.Steps
import RecordQuery.Proofs.ScopedQuery
import RecordQuery.Proofs.ArgumentCode
import RecordQuery.Proofs.SortOrder
import RecordQuery.Proofs.ScopeValue
import RecordQuery.Proofs.FilterOrder
import RecordQuery.Proofs.ArgumentOrder
import RecordQuery.Proofs.Comparisons
import RecordQuery.Proofs.StepOrder
import RecordQuery.Proofs.Calendar.Week
import RecordQuery.Proofs.Calendar.Utc
import RecordQuery.Proofs.Calendar.Digits
import RecordQuery.Proofs.Calendar.Spelling
import RecordQuery.Proofs.Days
import RecordQuery.Proofs.FilterGrammar
import RecordQuery.Proofs.Number.Whole
import RecordQuery.Proofs.IntegerLiteral
import RecordQuery.Proofs.PageNumbers
import RecordQuery.Proofs.Number.Written
import RecordQuery.Proofs.Uuid
import RecordQuery.Proofs.Calendar.Written
import RecordQuery.Proofs.WrittenValue
import RecordQuery.Proofs.Text.LetterCase
import RecordQuery.Proofs.FieldNames
import RecordQuery.Proofs.JoinedQueries
import RecordQuery.Proofs.Number.Range
import RecordQuery.Proofs.RowAnswer
import RecordQuery.Proofs.Registrations
import RecordQuery.Proofs.Database.Needles
import RecordQuery.Proofs.Value.Wire
