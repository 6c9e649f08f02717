import RecordQuery.Error
import RecordQuery.Keyed
import RecordQuery.Schema

namespace RecordQuery

/-!
# Operators and their codes

The relations a filter can ask for, and the registry of the codes that
stand for them in a query. Codes are compared like names: without the
blanks around them and in lower case.
-/

inductive Operator where
  | equals | notEquals | greaterThan | greaterOrEqual | lessThan | lessOrEqual
  | contains | startsWith | endsWith
  deriving DecidableEq, Repr

namespace Operator

/-- Operators on the text of a value; any text will do for them. -/
def isTextual : Operator → Bool
  | contains | startsWith | endsWith => true
  | _ => false

def name : Operator → Text
  | equals => "Equals".toList
  | notEquals => "NotEquals".toList
  | greaterThan => "GreaterThan".toList
  | greaterOrEqual => "GreaterOrEqual".toList
  | lessThan => "LessThan".toList
  | lessOrEqual => "LessOrEqual".toList
  | contains => "Contains".toList
  | startsWith => "StartsWith".toList
  | endsWith => "EndsWith".toList

def all : List Operator :=
  [equals, notEquals, greaterThan, greaterOrEqual, lessThan, lessOrEqual, contains, startsWith,
    endsWith]

def ofName? (t : Text) : Option Operator := all.find? fun o ↦ o.name = t

theorem ofName?_name (o : Operator) : ofName? o.name = some o := by cases o <;> decide

end Operator

structure Registry where
  codes : Keyed Operator
  deriving DecidableEq, Repr

namespace Registry

def empty : Registry := ⟨[]⟩

/-- Registers an operator, given by its name, under a code. -/
def register (r : Registry) (code operator : Text) : Outcome Registry :=
  if (normalName code).isEmpty then .error .blankOperatorCode
  else
    match Operator.ofName? operator with
    | some o => .ok ⟨r.codes.put (normalName code) o⟩
    | none => .error .unknownOperatorName

def resolve? (r : Registry) (code : Text) : Option Operator := r.codes.get? (normalName code)

def registerAll (r : Registry) : List (Text × Text) → Outcome Registry
  | [] => .ok r
  | (code, operator) :: rest =>
    match r.register code operator with
    | .ok r => registerAll r rest
    | .error e => .error e

/-- A registry with the same codes, each registered anew. -/
def copy (r : Registry) : Outcome Registry :=
  empty.registerAll (r.codes.map fun (code, o) ↦ (code, o.name))

def standardCodes : List (Text × Operator) :=
  [("eq".toList, .equals), ("neq".toList, .notEquals), ("ne".toList, .notEquals),
    ("gt".toList, .greaterThan), ("gte".toList, .greaterOrEqual), ("ge".toList, .greaterOrEqual),
    ("lt".toList, .lessThan), ("lte".toList, .lessOrEqual), ("le".toList, .lessOrEqual),
    ("contains".toList, .contains), ("like".toList, .contains),
    ("startswith".toList, .startsWith), ("endswith".toList, .endsWith)]

/-- The codes that every query may use. -/
def standard : Registry := ⟨standardCodes⟩

def sortedCodes (r : Registry) : List Text :=
  r.codes.keys.mergeSort fun a b ↦ (Text.order a b).isLE

end Registry

/-- A registry in use and one kept aside. -/
structure Registries where
  current : Registry
  kept : Registry
  deriving DecidableEq, Repr

namespace Registries

inductive Step where
  | register (code operator : Text)
  /-- Keeps the registry in use aside and goes on with a copy of it. -/
  | copy
  | swap
  deriving DecidableEq, Repr

def step (rs : Registries) : Step → Outcome Registries
  | .register code operator => (rs.current.register code operator).map fun r ↦ ⟨r, rs.kept⟩
  | .copy => rs.current.copy.map fun r ↦ ⟨r, rs.current⟩
  | .swap => .ok ⟨rs.kept, rs.current⟩

/-- What is left after steps of which some may fail; those change nothing. -/
def run (rs : Registries) (steps : List Step) : Registries :=
  steps.foldl (fun rs s ↦ (rs.step s).toOption.getD rs) rs

@[simp] theorem run_nil (rs : Registries) : rs.run [] = rs := rfl

theorem run_cons (rs : Registries) (s : Step) (steps : List Step) :
    rs.run (s :: steps) = ((rs.step s).toOption.getD rs).run steps := rfl

end Registries

end RecordQuery
