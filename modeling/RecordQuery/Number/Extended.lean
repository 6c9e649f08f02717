import RecordQuery.Number.Binary64

namespace RecordQuery

/-!
# Extended binary arithmetic

Numbers that are not negative, with mantissas of 64 bits. Every sum,
product and quotient is rounded to the nearest of them, a tie to the even
mantissa. The exponent has no bounds: what is computed here stays far
inside those of the format.
-/

/-- The number `mantissa * 2 ^ exponent`. -/
structure Extended where
  mantissa : Nat
  exponent : Int
  deriving DecidableEq, Repr

namespace Extended

def mantissaBits : Nat := 64

def excess (m : Nat) : Nat := Nat.log2 m + 1 - mantissaBits

/-- The number of the format nearest to `m * 2 ^ e`. -/
def nearest (m : Nat) (e : Int) : Extended :=
  ⟨roundHalfEven m (2 ^ excess m), e + excess m⟩

def ofNat (n : Nat) : Extended := nearest n 0

/-- The magnitude of a number of 64 bits; there is none of what is not finite. -/
def ofBinary64? : Binary64 → Option Extended
  | .finite _ m q => some (nearest m q)
  | _ => none

def align (a b : Extended) : Nat × Nat × Int :=
  if a.exponent ≤ b.exponent then
    (a.mantissa, b.mantissa * 2 ^ (b.exponent - a.exponent).toNat, a.exponent)
  else (a.mantissa * 2 ^ (a.exponent - b.exponent).toNat, b.mantissa, b.exponent)

def add (a b : Extended) : Extended :=
  let (m, n, e) := align a b
  nearest (m + n) e

def sub (a b : Extended) : Extended :=
  let (m, n, e) := align a b
  nearest (m - n) e

def mul (a b : Extended) : Extended :=
  nearest (a.mantissa * b.mantissa) (a.exponent + b.exponent)

/-- More bits than two mantissas have, so that a quotient keeps enough of them. -/
def quotientBits : Nat := 2 * mantissaBits + 2

/-- The quotient. A remainder counts as one further bit, which is enough to
tell on which side of a tie the quotient is. -/
def div (a b : Extended) : Extended :=
  let num := a.mantissa * 2 ^ quotientBits
  let rest := if num % b.mantissa = 0 then 0 else 1
  nearest (2 * (num / b.mantissa) + rest) (a.exponent - b.exponent - quotientBits - 1)

def isBelow (a b : Extended) : Bool :=
  let (m, n, _) := align a b
  m < n

def floor (a : Extended) : Nat :=
  if 0 ≤ a.exponent then a.mantissa * 2 ^ a.exponent.toNat
  else a.mantissa / 2 ^ (-a.exponent).toNat

end Extended

end RecordQuery
