import RecordQuery.Number.Numeral
import RecordQuery.Text.PercentCode
import RecordQuery.Text.Printable

namespace RecordQuery

/-!
# Universally unique identifiers

Numbers of 128 bits. They are written in hexadecimal, in groups of 8, 4,
4, 4 and 12 digits, and read from any 32 characters that make up such a
number when the prefixes, braces and hyphens around them are taken away.
-/

structure Uuid where
  number : Nat
  lt_width : number < 2 ^ 128
  deriving DecidableEq

namespace Uuid

def of? (n : Nat) : Option Uuid := if h : n < 2 ^ 128 then some ⟨n, h⟩ else none

def order (a b : Uuid) : Ordering := compare a.number b.number

def hex (u : Uuid) : Text := Text.paddedHex 32 u.number

def text (u : Uuid) : Text :=
  let h := u.hex
  h.take 8 ++ '-' :: (h.drop 8).take 4 ++ '-' :: (h.drop 12).take 4 ++
    '-' :: (h.drop 16).take 4 ++ '-' :: h.drop 20

def withoutUrn : Text → Text
  | 'u' :: 'r' :: 'n' :: ':' :: rest => withoutUrn rest
  | c :: rest => c :: withoutUrn rest
  | [] => []

def withoutUuid : Text → Text
  | 'u' :: 'u' :: 'i' :: 'd' :: ':' :: rest => withoutUuid rest
  | c :: rest => c :: withoutUuid rest
  | [] => []

def isBrace (c : Char) : Bool := c = '{' || c = '}'

/-- What is left of a written identifier is to be a number. -/
def stripped (t : Text) : Text :=
  (Text.stripBoth isBrace (withoutUuid (withoutUrn t))).filter (· ≠ '-')

/-- The blanks that may surround a number: those of the basic alphabet
without the information separators, and all others. -/
def isNumberBlank (c : Char) : Bool :=
  let n := c.toNat
  (9 ≤ n && n ≤ 13) || n = 32 || (127 < n && Text.isBlank c)

def hexDigitValue? (c : Char) : Option Nat :=
  match Text.hexValue? c with
  | some v => some v
  | none => Text.digitValue? c

/-- Hexadecimal digits with single underscores between them. -/
def hexDigits? (acc : Nat) : Text → Option Nat
  | [] => none
  | [c] => (hexDigitValue? c).map (16 * acc + ·)
  | c :: '_' :: rest => (hexDigitValue? c).bind fun v ↦ hexDigits? (16 * acc + v) rest
  | c :: rest => (hexDigitValue? c).bind fun v ↦ hexDigits? (16 * acc + v) rest

/-- The mark of a hexadecimal number, a zero of any script and the letter x,
with an underscore or without. -/
def withoutHexMark : Text → Text
  | z :: x :: rest =>
    if Text.digitValue? z = some 0 ∧ (x = 'x' ∨ x = 'X') then
      match rest with
      | '_' :: rest => rest
      | rest => rest
    else z :: x :: rest
  | t => t

def hexNumber? (t : Text) : Option Nat :=
  let (negative, t) := Numeral.takeSign (Text.stripBoth isNumberBlank t)
  match hexDigits? 0 (withoutHexMark t) with
  | some n => if negative && n ≠ 0 then none else some n
  | none => none

def read? (t : Text) : Option Uuid :=
  let s := stripped t
  if s.length = 32 then (hexNumber? s).bind of? else none

end Uuid

end RecordQuery
