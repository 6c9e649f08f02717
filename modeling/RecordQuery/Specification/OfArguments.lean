import RecordQuery.Arguments
import RecordQuery.Specification

namespace RecordQuery

/-!
# Specifications from query arguments

The page, the order and the quick search have arguments of their own;
every other argument is a filter on the field of its name. The first
argument that is at fault ends the reading, in the order page number, page
size, sort, quick search, filters.
-/

/-- The whole number of a page argument, unless it is none or does not fit into 64 bits. -/
def readPageInt (t : Text) : Outcome (Option Int) :=
  let t := Text.trim t
  let (negative, digits) := Numeral.takeSign t
  match Text.digitValues? digits with
  | some (d :: ds) =>
    if int64Digits < (significant t).length then .ok none
    else if digitLimit < (d :: ds).length then .error .tooManyDigits
    else
      let n : Int := Text.ofDigits (d :: ds)
      let n := if negative then -n else n
      .ok (if fitsInt64 n then some n else none)
  | _ => .ok none

namespace Pagination

def numberOf (args : Arguments) : Outcome Nat :=
  match args.get? pageNumberKey with
  | none => .ok firstNumber
  | some t => do
    match ← readPageInt t with
    | some n => if 0 ≤ n then return n.toNat else reject .invalidPageNumber
    | none => reject .invalidPageNumber

def sizeOf (args : Arguments) : Outcome {n : Nat // 0 < n} :=
  match args.get? pageSizeKey with
  | none => .ok ⟨standardSize, standardSize_pos⟩
  | some t => do
    match ← readPageInt t with
    | some n => if h : 0 < n then return ⟨n.toNat, by omega⟩ else reject .invalidPageSize
    | none => reject .invalidPageSize

/-- The page that is asked for; its offset has to fit into 64 bits as well. -/
def ofArguments (args : Arguments) : Outcome Pagination := do
  let number ← numberOf args
  let ⟨size, size_pos⟩ ← sizeOf args
  let p : Pagination := ⟨number, size, size_pos⟩
  if int64Max < p.offset then reject .pageOutOfRange else return p

end Pagination

namespace Sorting

def directionOf (args : Arguments) : Outcome Direction :=
  match args.get? sortDirectionKey with
  | none => .ok .ascending
  | some t =>
    match Direction.ofName? t with
    | some d => .ok d
    | none => reject .invalidSortDirection

def ofArguments (schema : Schema) (defaultField : Text) (args : Arguments) : Outcome Sorting :=
  let name := (args.get? sortByKey).getD defaultField
  match schema.resolve? name with
  | none => reject (.unknownSortField name)
  | some f => (directionOf args).map fun d ↦ ⟨f.name, d⟩

end Sorting

namespace Search

/-- The canonical names of the columns that are asked for, each at its first place. -/
def columns (schema : Schema) : List Text → List Text → Outcome (List Text)
  | found, [] => .ok found
  | found, column :: rest =>
    match schema.resolve? column with
    | none => reject (.unknownSearchColumn column)
    | some f => columns schema (if f.name ∈ found then found else found ++ [f.name]) rest

/-- A quick search: a text, and after double bars the columns to look into. -/
def ofText (schema : Schema) (t : Text) : Outcome Search :=
  match Text.cutAtBars t with
  | none =>
    if Text.allBlank t then reject .emptySearch
    else .ok ⟨Text.lower t, schema.searchable⟩
  | some (value, segment) =>
    if Text.allBlank value then reject .emptySearch
    else if Text.allBlank segment then reject .emptySearchColumns
    else (columns schema [] (Text.splitOn '|' segment)).map fun names ↦ ⟨Text.lower value, names⟩

def ofArguments (schema : Schema) (args : Arguments) : Outcome (Option Search) :=
  match args.get? searchKey with
  | none => .ok none
  | some t => (ofText schema t).map some

end Search

def reservedKeys : List Text :=
  [pageNumberKey, pageSizeKey, sortByKey, sortDirectionKey, searchKey]

namespace Filter

/-- All values can be read as values of a field. -/
def readAll (f : Field) : List Text → Outcome (List Value)
  | [] => .ok []
  | t :: ts => do
    let v ← f.read t
    let vs ← readAll f ts
    return v :: vs

/-- The filter of an argument: values between single bars, and after
double bars the code of an operator. -/
def ofArgument (schema : Schema) (registry : Registry) (name t : Text) : Outcome Filter :=
  match Text.cutAtBars t with
  | none => reject (.missingOperator name)
  | some (segment, code) =>
    match registry.resolve? code with
    | none => reject (.unknownOperator name code)
    | some operator =>
      if segment.isEmpty then reject (.missingValues name)
      else
        match schema.resolve? name with
        | none => reject (.unknownFilterField name)
        | some f =>
          let values := Text.splitOn '|' segment
          let filter : Filter := ⟨f.name, values, operator⟩
          if operator.isTextual then .ok filter else (readAll f values).map fun _ ↦ filter

def ofArguments (schema : Schema) (registry : Registry) (args : Arguments) :
    Outcome (List Filter) :=
  (args.filter fun a ↦ a.1 ∉ reservedKeys).mapM fun (name, t) ↦ ofArgument schema registry name t

end Filter

namespace Specification

def ofArguments (schema : Schema) (defaultSort : Text) (registry : Registry) (args : Arguments) :
    Outcome Specification := do
  let pagination ← Pagination.ofArguments args
  let sort ← Sorting.ofArguments schema defaultSort args
  let search ← Search.ofArguments schema args
  let filters ← Filter.ofArguments schema registry args
  return ⟨pagination, sort, search, filters⟩

def ofQuery (schema : Schema) (defaultSort : Text) (registry : Registry) (query : Text) :
    Outcome Specification :=
  ofArguments schema defaultSort registry (Arguments.ofQuery query)

end Specification

end RecordQuery
