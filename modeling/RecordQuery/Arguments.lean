import RecordQuery.Keyed
import RecordQuery.Text.Alphanumeric
import RecordQuery.Text.PercentCode

namespace RecordQuery

/-!
# Query arguments

A query string is decoded as a whole and cut at the ampersands. A segment
is an argument if it is a word, an equals sign and a value; every other
segment is passed over. A repeated key keeps its place and takes the last
value.
-/

abbrev Arguments := Keyed Text

namespace Arguments

/-- A word, an equals sign and a value with at least one character. -/
def segment? (t : Text) : Option (Text × Text) :=
  match t.takeWhile Text.isWordChar, t.dropWhile Text.isWordChar with
  | [], _ => none
  | key, '=' :: c :: value => some (key, c :: value)
  | _, _ => none

/-- The text to be cut: decoded, without the question marks before it. -/
def plainText (query : Text) : Text := Text.stripLeft (· = '?') (Text.percentDecode query)

def entries (t : Text) : List (Text × Text) := (Text.splitOn '&' t).filterMap segment?

def ofQuery (query : Text) : Arguments := Keyed.putAll [] (entries (plainText query))

@[simp] theorem segment?_nil : segment? [] = none := rfl

@[simp] theorem ofQuery_nil : ofQuery [] = [] := rfl

theorem nodup_keys_ofQuery (query : Text) : (Keyed.keys (ofQuery query)).Nodup :=
  Keyed.nodup_keys_putAll (by simp [Keyed.keys]) _

end Arguments

end RecordQuery
