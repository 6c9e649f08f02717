import RecordQuery.Schema

namespace RecordQuery

/-!
# The catalog

The record types that are stored, each in a table of its own.
-/

structure Table where
  name : Text
  schema : Schema
  deriving DecidableEq, Repr

namespace Catalog

def field (name : String) (type : FieldType) : Field := ⟨name.toList, type, false, name.toList⟩

def key (name : String) : Field := ⟨name.toList, .int, true, name.toList⟩

/-- Customers; the list is ordered by name unless something else is asked for. -/
def customers : Table :=
  ⟨"customers".toList,
    ⟨[field "name" .text, field "code" .text, field "email" .text, field "status" .text,
      field "employees" .int, field "credit_limit" .decimal, field "is_partner" .bool,
      field "signed_on" .date, key "id", field "created_at" .datetime,
      field "updated_at" .datetime]⟩⟩

/-- Events; the column of a field may have another name than the field. -/
def events : Table :=
  ⟨"events".toList,
    ⟨[key "id", field "title" .text,
      ⟨"createdAt".toList, .datetime, false, "created_at".toList⟩, field "score" .float,
      field "ref" .uuid, field "blob" .other]⟩⟩

/-- Memberships; their key is made up of two fields. -/
def memberships : Table :=
  ⟨"memberships".toList, ⟨[field "role" .text, key "org_id", key "user_id"]⟩⟩

end Catalog

end RecordQuery
