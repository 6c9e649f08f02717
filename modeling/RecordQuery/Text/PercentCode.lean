import RecordQuery.Text.Utf8

namespace RecordQuery.Text

/-!
# Percent code

A text as it stands in a query string: bytes outside a small alphabet are
written as a percent sign and two hexadecimal digits, and a plus sign
stands for a space. An escape that is no escape stays as it is.
-/

def hexValue? (c : Char) : Option Nat :=
  if '0' ≤ c ∧ c ≤ '9' then some (c.toNat - 48)
  else if 'A' ≤ c ∧ c ≤ 'F' then some (c.toNat - 55)
  else if 'a' ≤ c ∧ c ≤ 'f' then some (c.toNat - 87)
  else none

def hexPair? (a b : Char) : Option Byte :=
  match hexValue? a, hexValue? b with
  | some x, some y => some (16 * x + y)
  | _, _ => none

/-- Decoding with a character begun by the escapes just read. -/
def decodeFrom : Option Pending → Text → Text
  | p, [] => flush p
  | p, '%' :: a :: b :: rest =>
    match hexPair? a b with
    | some byte =>
      let (out, next) := feedByte p byte
      out ++ decodeFrom next rest
    | none => flush p ++ '%' :: decodeFrom none (a :: b :: rest)
  | p, c :: rest => flush p ++ (if c = '+' then ' ' else c) :: decodeFrom none rest

def percentDecode (t : Text) : Text := decodeFrom none t

@[simp] theorem percentDecode_nil : percentDecode [] = [] := rfl

/-- The characters that stand for themselves. -/
def isUnreserved (c : Char) : Bool :=
  ('a' ≤ c && c ≤ 'z') || ('A' ≤ c && c ≤ 'Z') || ('0' ≤ c && c ≤ '9') ||
    c = '_' || c = '.' || c = '-' || c = '~'

def hexDigit (n : Nat) : Char :=
  if n < 10 then Char.ofNat (48 + n) else Char.ofNat (55 + n)

def escapeByte (b : Byte) : Text := ['%', hexDigit (b / 16), hexDigit (b % 16)]

def encodeChar (c : Char) : Text :=
  if isUnreserved c then [c] else (utf8Char c).flatMap escapeByte

theorem hexValue?_hexDigit : ∀ n < 16, hexValue? (hexDigit n) = some n := by decide

/-- The percent-coded form of a text; only unreserved characters stay as they are. -/
def percentEncode (t : Text) : Text := t.flatMap encodeChar

@[simp] theorem percentEncode_nil : percentEncode [] = [] := rfl

end RecordQuery.Text
