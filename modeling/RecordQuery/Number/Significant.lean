import RecordQuery.Number.Extended
import RecordQuery.Number.Shortest

namespace RecordQuery.Binary64

/-!
# Text with a fixed count of digits

A number is written with 15 significant digits, of which the zeros at the
end are left out. The number is brought between 1 and 10 by powers of ten,
half a unit of the last digit is added, and the digits are taken off one
after another, all in extended arithmetic: the roundings on the way show
where the digits that follow are close to a half.
-/

def significantDigits : Nat := 15

/-- Positional from `1e-4` up to `1e15`, and with a point in every case. -/
def significantLayout : Layout := ⟨-4, significantDigits - 1, 2, true⟩

def constant (coefficient : Nat) (exponent : Int) : Extended :=
  (Extended.ofBinary64? (ofDecimal ⟨false, coefficient, exponent⟩)).getD (Extended.ofNat 0)

/-- Half a unit of the last of the digits of a number from 1 up to 10, as
it comes out of the product of `5e-5` and `1e-10`. -/
def halfUnit : Extended := constant 5000000000000001 (-30)

/-- Multiplies a scale by a power of ten as long as it does not pass a number. -/
def raise (x : Extended) (power : Nat) : Nat → Extended × Nat → Extended × Nat
  | 0, scale => scale
  | fuel + 1, (scale, lead) =>
    let next := (constant 1 power).mul scale
    if x.isBelow next then (scale, lead)
    else raise x power fuel (scale.mul (constant 1 power), lead + power)

/-- The largest scale that does not pass a number, in steps of three sizes. -/
def scaleOf (x : Extended) : Extended × Nat :=
  raise x 1 10 (raise x 10 10 (raise x 100 4 (Extended.ofNat 1, 0)))

/-- Multiplies a number by a power of ten as long as it is below a bound. -/
def lift (bound : Extended) (power : Nat) : Nat → Extended × Int → Extended × Int
  | 0, x => x
  | fuel + 1, (x, lead) =>
    if x.isBelow bound then lift bound power fuel (x.mul (constant 1 power), lead - power)
    else (x, lead)

/-- A positive number as one from 1 up to 10 and a power of ten. -/
def normalize (x : Extended) : Extended × Int :=
  let (scale, lead) := scaleOf x
  lift (Extended.ofNat 1) 1 8 (lift (constant 1 (-8)) 8 41 (x.div scale, lead))

/-- Half a unit more, and below 10 again. -/
def roundUp (x : Extended) (lead : Int) : Extended × Int :=
  let sum := x.add halfUnit
  if sum.isBelow (Extended.ofNat 10) then (sum, lead)
  else (sum.mul (constant 1 (-1)), lead + 1)

/-- Takes digits off the front of a number below 10. -/
def takeDigits : Nat → Extended → Text
  | 0, _ => []
  | n + 1, x =>
    let digit := x.floor
    Char.ofNat ('0'.toNat + digit) ::
      takeDigits n ((x.sub (Extended.ofNat digit)).mul (Extended.ofNat 10))

def significant (m : Nat) (q : Int) : Text × Int :=
  let (x, lead) := normalize (Extended.nearest m q)
  let (x, lead) := roundUp x lead
  (takeDigits significantDigits x, lead)

def significantText : Binary64 → Text
  | .nan => []
  | .infinite negative => Decimal.signText negative ++ "Inf".toList
  | .finite _ 0 _ => "0.0".toList
  | .finite negative m q =>
    let (digits, lead) := significant m q
    Decimal.signText negative ++ layOut significantLayout (dropTrailingZeros digits) lead

end RecordQuery.Binary64
