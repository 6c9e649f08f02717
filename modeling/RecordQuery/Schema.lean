import RecordQuery.Text.LetterCase

namespace RecordQuery

/-!
# Fields and schemas

The fields of a record type, and how they are found by name: blanks
around the name, letter case and underscores do not count, but a field
that differs in letter case only goes before one that differs in
underscores.
-/

/-- What a field is declared to hold; `other` stands for a type without values of one kind. -/
inductive FieldType where
  | text | int | float | decimal | bool | date | datetime | uuid | bytes | any | other
  deriving DecidableEq, Repr

structure Field where
  name : Text
  type : FieldType
  isIdentifier : Bool
  /-- The name of the database column, if the field is stored. -/
  column : Text
  deriving DecidableEq, Repr

def normalName (t : Text) : Text := Text.lower (Text.trim t)

def looseName (t : Text) : Text := (normalName t).filter (· ≠ '_')

namespace Field

/-- A quick search without columns looks into these fields. -/
def isSearchable (f : Field) : Bool :=
  !f.isIdentifier && (f.type = .text || f.type = .int)

end Field

structure Schema where
  fields : List Field
  deriving DecidableEq, Repr

namespace Schema

def byNormalName? (s : Schema) (key : Text) : Option Field :=
  s.fields.reverse.find? fun f ↦ normalName f.name = key

def byLooseName? (s : Schema) (key : Text) : Option Field :=
  s.fields.find? fun f ↦ looseName f.name = key

def resolve? (s : Schema) (name : Text) : Option Field :=
  let key := normalName name
  if key.isEmpty then none
  else
    match s.byNormalName? key with
    | some f => some f
    | none => s.byLooseName? (looseName key)

def identifier? (s : Schema) : Option Field := s.fields.find? Field.isIdentifier

/-- The fields by which a record is found. -/
def primaryKey (s : Schema) : List Field := s.fields.filter Field.isIdentifier

/-- The names of the fields that a quick search without columns looks into. -/
def searchable (s : Schema) : List Text := (s.fields.filter Field.isSearchable).map Field.name

/-- A plain record type; a field of the name `id` identifies the record. -/
def ofFields (fields : List (Text × FieldType)) : Schema :=
  ⟨fields.map fun (name, type) ↦ ⟨name, type, name = "id".toList, name⟩⟩

end Schema

end RecordQuery
