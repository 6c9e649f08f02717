import RecordQuery.Text.Basic

namespace RecordQuery.Text

/-!
# Decimal digits

Every script of Unicode 14 with decimal digits has them in a block of ten,
zero first; a digit is named by the block that holds it.
-/

def digitZeros : List Nat :=
  [48, 1632, 1776, 1984, 2406, 2534, 2662, 2790, 2918, 3046, 3174, 3302, 3430, 3558, 3664, 3792,
   3872, 4160, 4240, 6112, 6160, 6470, 6608, 6784, 6800, 6992, 7088, 7232, 7248, 42528, 43216,
   43264, 43472, 43504, 43600, 44016, 65296, 66720, 68912, 69734, 69872, 69942, 70096, 70384,
   70736, 70864, 71248, 71360, 71472, 71904, 72016, 72784, 73040, 73120, 92768, 92864, 93008,
   120782, 120792, 120802, 120812, 120822, 123200, 123632, 125264, 130032]

def digitIn : List Nat → Nat → Option Nat
  | [], _ => none
  | z :: zs, n => if n < z then none else if n < z + 10 then some (n - z) else digitIn zs n

def digitValue? (c : Char) : Option Nat := digitIn digitZeros c.toNat

def isDigit (c : Char) : Bool := (digitValue? c).isSome

/-- The digits 0 to 9 of the basic alphabet, and no others. -/
def isBasicDigit (c : Char) : Bool := '0' ≤ c && c ≤ '9'

/-- The number that a row of digits writes, the most significant first. -/
def ofDigits (ds : List Nat) : Nat := ds.foldl (fun n d ↦ 10 * n + d) 0

/-- The values of a text that holds digits only. -/
def digitValues? : Text → Option (List Nat)
  | [] => some []
  | c :: cs =>
    match digitValue? c, digitValues? cs with
    | some d, some ds => some (d :: ds)
    | _, _ => none

end RecordQuery.Text
