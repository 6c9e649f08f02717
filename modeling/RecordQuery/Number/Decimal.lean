import RecordQuery.Text.Basic

namespace RecordQuery

/-!
# Decimal numbers

A decimal is a sign, a coefficient and a power of ten. It is never
normalised: `1.50`, `1.5` and `15E-1` differ as decimals and are equal as
numbers.
-/

structure Decimal where
  negative : Bool
  coefficient : Nat
  exponent : Int
  deriving DecidableEq, Repr

namespace Decimal

def ofInt (n : Int) : Decimal := ⟨n < 0, n.natAbs, 0⟩

def digitCount (n : Nat) : Nat := (Nat.toDigits 10 n).length

def adjusted (d : Decimal) : Int := d.exponent + digitCount d.coefficient - 1

/-- The order of two positive numbers. Numbers whose leading digits stand
at different powers of ten are told apart by these alone, so the scaling
below never goes further than the digits that are there. -/
def compareMagnitude (a b : Decimal) : Ordering :=
  (compare a.adjusted b.adjusted).then
    (if b.exponent ≤ a.exponent then
      compare (a.coefficient * 10 ^ (a.exponent - b.exponent).toNat) b.coefficient
    else
      compare a.coefficient (b.coefficient * 10 ^ (b.exponent - a.exponent).toNat))

def order (a b : Decimal) : Ordering :=
  match a.coefficient == 0, b.coefficient == 0 with
  | true, true => .eq
  | true, false => if b.negative then .gt else .lt
  | false, true => if a.negative then .lt else .gt
  | false, false =>
    match a.negative, b.negative with
    | true, false => .lt
    | false, true => .gt
    | false, false => compareMagnitude a b
    | true, true => compareMagnitude b a

def zeros (n : Nat) : Text := List.replicate n '0'

def signText (negative : Bool) : Text := if negative then ['-'] else []

def exponentText (e : Int) : Text := (if e < 0 then '-' else '+') :: Text.ofNat e.natAbs

/-- Written with all its digits, and in scientific notation if the point
would stand to the right of the digits or more than five zeros to their
left. -/
def text (d : Decimal) : Text :=
  let ds := Text.ofNat d.coefficient
  let point : Int := d.exponent + ds.length
  let place : Int := if d.exponent ≤ 0 ∧ -6 < point then point else 1
  let mantissa :=
    if place ≤ 0 then '0' :: '.' :: (zeros (-place).toNat ++ ds)
    else if ds.length ≤ place then ds ++ zeros (place - ds.length).toNat
    else ds.take place.toNat ++ '.' :: ds.drop place.toNat
  let power := if point = place then [] else 'E' :: exponentText (point - place)
  signText d.negative ++ mantissa ++ power

/-- The largest power of ten that a leading digit may have. -/
def maxAdjusted : Int := 999999999999999999

/-- The least power of ten that a last digit may have. -/
def minExponent : Int := -1999999999999999997

def inRange (d : Decimal) : Bool := d.adjusted ≤ maxAdjusted && minExponent ≤ d.exponent

example : text ⟨false, 150, -2⟩ = "1.50".toList := by decide

example : text ⟨true, 1, -7⟩ = "-1E-7".toList := by decide

example : text ⟨false, 0, 3⟩ = "0E+3".toList := by decide

end Decimal

end RecordQuery
