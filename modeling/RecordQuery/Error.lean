import RecordQuery.Text.Basic

namespace RecordQuery

/-!
# Errors

A query argument is rejected for one of the causes below. Each cause has a
code, names the argument that is at fault, and is put into words for the
client. Faults are what can go wrong besides.
-/

inductive LiteralKind where
  | boolean | number | integerOutOfRange | date | datetime | uuid
  deriving DecidableEq, Repr

inductive ErrorCode where
  | invalidPageNumber | invalidPageSize | invalidSortField | invalidSortDirection
  | invalidSearchColumn | invalidQuickSearch | malformedFilterValue | unresolvedFilterField
  deriving DecidableEq, Repr

inductive QueryError where
  | invalidPageNumber
  | pageOutOfRange
  | invalidPageSize
  | unknownSortField (name : Text)
  | invalidSortDirection
  | emptySearch
  | emptySearchColumns
  | unknownSearchColumn (name : Text)
  | missingOperator (filter : Text)
  | unknownOperator (filter code : Text)
  | missingValues (filter : Text)
  | unknownFilterField (name : Text)
  | badLiteral (field : Text) (kind : LiteralKind)
  /-- The fields of a specification that was not parsed are looked up when it is compiled. -/
  | unresolved (code : ErrorCode) (name : Text)
  deriving DecidableEq, Repr

/-- The keys of the arguments that are not filters. -/
def pageNumberKey : Text := "pageNumber".toList
def pageSizeKey : Text := "pageSize".toList
def sortByKey : Text := "sortBy".toList
def sortDirectionKey : Text := "sortDirection".toList
def searchKey : Text := "query".toList

/-- The name under which the columns of a quick search are complained of. -/
def searchColumnsKey : Text := "query_ColumnsToSearch".toList

def LiteralKind.text : LiteralKind → Text
  | .boolean => "boolean".toList
  | .number => "number".toList
  | .integerOutOfRange => "integer out of range".toList
  | .date => "date".toList
  | .datetime => "datetime".toList
  | .uuid => "uuid".toList

def ErrorCode.text : ErrorCode → Text
  | .invalidPageNumber => "InvalidPageNumber".toList
  | .invalidPageSize => "InvalidPageSize".toList
  | .invalidSortField => "InvalidSortField".toList
  | .invalidSortDirection => "InvalidSortDirection".toList
  | .invalidSearchColumn => "InvalidSearchColumn".toList
  | .invalidQuickSearch => "InvalidQuickSearch".toList
  | .malformedFilterValue => "MalformedFilterValue".toList
  | .unresolvedFilterField => "UnresolvedFilterField".toList

namespace QueryError

def code : QueryError → ErrorCode
  | invalidPageNumber | pageOutOfRange => .invalidPageNumber
  | invalidPageSize => .invalidPageSize
  | unknownSortField _ => .invalidSortField
  | invalidSortDirection => .invalidSortDirection
  | emptySearch => .invalidQuickSearch
  | emptySearchColumns | unknownSearchColumn _ => .invalidSearchColumn
  | missingOperator _ | unknownOperator _ _ | missingValues _ | badLiteral _ _ =>
    .malformedFilterValue
  | unknownFilterField _ => .unresolvedFilterField
  | unresolved code _ => code

def argument : QueryError → Text
  | invalidPageNumber | pageOutOfRange => pageNumberKey
  | invalidPageSize => pageSizeKey
  | unknownSortField _ => sortByKey
  | invalidSortDirection => sortDirectionKey
  | emptySearch => searchKey
  | emptySearchColumns | unknownSearchColumn _ => searchColumnsKey
  | missingOperator f | unknownOperator f _ | missingValues f => f
  | unknownFilterField f => f
  | badLiteral f _ => f
  | unresolved _ name => name

def inQuotes (t : Text) : Text := '"' :: t ++ ['"']

/-- The wording where there is nothing more to say than which argument it is. -/
def plainMessage (argument : Text) : Text :=
  "Invalid query string argument ".toList ++ inQuotes argument

def message : QueryError → Text
  | invalidPageNumber => plainMessage pageNumberKey
  | pageOutOfRange => "Page number is out of range for this page size".toList
  | invalidPageSize => plainMessage pageSizeKey
  | unknownSortField f => "Unknown sort field ".toList ++ inQuotes f
  | invalidSortDirection => plainMessage sortDirectionKey
  | emptySearch => "Quick search value must not be empty".toList
  | emptySearchColumns => "Quick search column list must not be empty".toList
  | unknownSearchColumn f => "Unknown quick search column ".toList ++ inQuotes f
  | missingOperator f =>
    "Filter ".toList ++ inQuotes f ++ " is missing its \"||operator\" suffix".toList
  | unknownOperator f code =>
    "Unknown filter operator ".toList ++ inQuotes code ++ " for ".toList ++ inQuotes f
  | missingValues f => "Filter ".toList ++ inQuotes f ++ " has no values".toList
  | unknownFilterField f => "Unknown filter field ".toList ++ inQuotes f
  | badLiteral f kind =>
    "Invalid filter value for field ".toList ++ inQuotes f ++ " (".toList ++ kind.text ++ [')']
  | unresolved _ name => plainMessage name

end QueryError

/-- Whatever can end an operation without a result. -/
inductive Fault where
  | rejected (error : QueryError)
  | blankOperatorCode
  | unknownOperatorName
  /-- A whole number has too many digits to be read or written. -/
  | tooManyDigits
  | incomparable
  /-- A decimal was to be put in order with what is not a number. -/
  | notANumber
  | dateOverflow
  | integerOverflow
  | invalidSpecification
  | emptyPage
  | orderedBoolean
  /-- The database does not take a statement, or gives it up. -/
  | statementRefused
  | textTooLarge
  /-- A number that is not finite has no text in a message. -/
  | numberNotFinite
  | untypedRecords
  | notARecordType
  deriving DecidableEq, Repr

abbrev Outcome := Except Fault

def reject {α : Type} (error : QueryError) : Outcome α := .error (.rejected error)

end RecordQuery
