import RecordQuery.Schema
import RecordQuery.Text.PercentCode
import RecordQuery.Value.Text

namespace RecordQuery

/-!
# Scopes

A scope is a filter that a query string must carry whatever the client
asks for. It is put at the end of the query string, and what the client
sent under the name of its field is left out. A value without a text makes
no filter.
-/

structure Scope where
  field : Text
  value : Value
  operator : Text

/-- A scope with its value as a text. -/
structure WrittenScope where
  field : Text
  value : Text
  operator : Text
  deriving DecidableEq

namespace WrittenScope

/-- The name that a segment has once it is decoded. -/
def segmentName (segment : Text) : Text :=
  normalName ((Text.percentDecode segment).takeWhile (· ≠ '='))

def segment (s : WrittenScope) : Text :=
  s.field ++ '=' :: Text.percentEncode s.value ++ "||".toList ++ s.operator

/-- The segments of a query string, without question marks before them. -/
def segments (query : Text) : List Text := Text.splitOn '&' (Text.stripLeft (· = '?') query)

def kept (s : WrittenScope) (query : Text) : List Text :=
  (segments query).filter fun t ↦ !t.isEmpty && segmentName t ≠ normalName s.field

def apply (s : WrittenScope) (query : Text) : Text :=
  Text.joinWith ['&'] (s.kept query ++ [s.segment])

def applyAll (query : Text) (scopes : List WrittenScope) : Text :=
  scopes.foldl (fun q s ↦ s.apply q) query

@[simp] theorem applyAll_nil (query : Text) : applyAll query [] = query := rfl

@[simp] theorem applyAll_cons (query : Text) (s : WrittenScope) (scopes : List WrittenScope) :
    applyAll query (s :: scopes) = applyAll (s.apply query) scopes := rfl

end WrittenScope

namespace Scope

def standardOperator : Text := "eq".toList

def written (s : Scope) : Outcome WrittenScope :=
  s.value.plain.map fun t ↦ ⟨s.field, t, s.operator⟩

def apply (s : Scope) (query : Text) : Outcome Text := s.written.map fun w ↦ w.apply query

/-- The query strings after each scope. -/
def applyEach (query : Text) : List Scope → Outcome (List Text)
  | [] => return []
  | s :: rest => do
    let next ← s.apply query
    return next :: (← applyEach next rest)

def applyAll (query : Text) (scopes : List Scope) : Outcome Text :=
  scopes.foldlM (fun q s ↦ s.apply q) query

end Scope

end RecordQuery
