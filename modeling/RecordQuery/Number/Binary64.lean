import RecordQuery.Number.Decimal

namespace RecordQuery

/-!
# Binary floating point

The numbers of the 64-bit format, as a mantissa of at most 53 bits and a
power of two. A quotient is rounded to the nearest of them, a tie to the
even mantissa.
-/

/-- The nearest whole number to a quotient, a tie going to the even neighbour. -/
def roundHalfEven (num den : Nat) : Nat :=
  let q := num / den
  let r := num % den
  if 2 * r < den then q
  else if 2 * r = den then q + q % 2
  else q + 1

inductive Binary64 where
  | finite (negative : Bool) (mantissa : Nat) (exponent : Int)
  | infinite (negative : Bool)
  | nan
  deriving DecidableEq, Repr

namespace Binary64

def minExponent : Int := -1074

def maxExponent : Int := 971

def scaled (num den : Nat) (q : Int) : Nat :=
  if 0 ≤ q then roundHalfEven num (den * 2 ^ q.toNat)
  else roundHalfEven (num * 2 ^ (-q).toNat) den

def isBelowPower (num den : Nat) (e : Int) : Bool :=
  if 0 ≤ e then num < den * 2 ^ e.toNat else num * 2 ^ (-e).toNat < den

/-- The power of two at which a quotient has 53 bits before the point, or
the least there is. The quotient itself is looked at and not its rounding,
which may have one bit more. -/
def exponentFor (num den : Nat) : Int :=
  let guess : Int := (Nat.log2 num : Int) - Nat.log2 den - 52
  let q := if isBelowPower num den (guess + 52) then guess - 1 else guess
  max q minExponent

def ofQuotient (negative : Bool) (num den : Nat) : Binary64 :=
  if num = 0 then .finite negative 0 minExponent
  else
    let q := exponentFor num den
    let m := scaled num den q
    let (m, q) := if m = 2 ^ 53 then (2 ^ 52, q + 1) else (m, q)
    if maxExponent < q then .infinite negative else .finite negative m q

/-- The number nearest to a decimal. Decimals far outside the range are
settled by the power of ten of their leading digit. -/
def ofDecimal (d : Decimal) : Binary64 :=
  if d.coefficient = 0 then .finite d.negative 0 minExponent
  else if 310 < d.adjusted then .infinite d.negative
  else if d.adjusted < -330 then .finite d.negative 0 minExponent
  else if 0 ≤ d.exponent then
    ofQuotient d.negative (d.coefficient * 10 ^ d.exponent.toNat) 1
  else ofQuotient d.negative d.coefficient (10 ^ (-d.exponent).toNat)

def ofInt (n : Int) : Binary64 := ofDecimal (Decimal.ofInt n)

def toDecimal? : Binary64 → Option Decimal
  | .finite negative m q =>
    if 0 ≤ q then some ⟨negative, m * 2 ^ q.toNat, 0⟩
    else some ⟨negative, m * 5 ^ (-q).toNat, q⟩
  | _ => none

def isFinite (x : Binary64) : Bool := x.toDecimal?.isSome

/-- The value of a finite number without its sign, as a quotient. -/
def quotient (m : Nat) (q : Int) : Nat × Nat :=
  if 0 ≤ q then (m * 2 ^ q.toNat, 1) else (m, 2 ^ (-q).toNat)

def toInt? : Binary64 → Option Int
  | .finite negative m q =>
    let (num, den) := quotient m q
    if num % den = 0 then
      some (if negative then -((num / den : Nat) : Int) else ((num / den : Nat) : Int))
    else none
  | _ => none

def roundTo (places : Nat) : Binary64 → Option Decimal
  | .finite negative m q =>
    let (num, den) := quotient m q
    some ⟨negative, roundHalfEven (num * 10 ^ places) den, -(places : Int)⟩
  | _ => none

end Binary64

end RecordQuery
