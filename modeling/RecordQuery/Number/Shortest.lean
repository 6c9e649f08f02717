import RecordQuery.Number.Binary64

namespace RecordQuery.Binary64

/-!
# Shortest decimal text

A number is written with the fewest digits that read back as it: of the
decimal grids with 1, 2, … 17 digits the first that has a point between
the number's rounding bounds gives the digits, and of two points the
nearer one. The notation is positional from `1e-4` up to `1e16`.
-/

/-- The decimals that round to a number: from `low / den` to `high / den`,
around `value / den`, the bounds included or not. -/
structure Bounds where
  low : Nat
  value : Nat
  high : Nat
  den : Nat
  closed : Bool

def Bounds.holds (b : Bounds) (num den : Nat) : Bool :=
  if b.closed then b.low * den ≤ num * b.den && num * b.den ≤ b.high * den
  else b.low * den < num * b.den && num * b.den < b.high * den

/-- A quarter of the last place is the unit, so that all bounds are whole. -/
def bounds (m : Nat) (q : Int) : Bounds :=
  let near := m = 2 ^ 52 ∧ minExponent < q
  let low := if near then 4 * m - 1 else 4 * m - 2
  let (scale, den) := if 0 ≤ q - 2 then (2 ^ (q - 2).toNat, 1) else (1, 2 ^ (2 - q).toNat)
  ⟨low * scale, 4 * m * scale, (4 * m + 2) * scale, den, m % 2 = 0⟩

/-- The power of ten of the leading digit of a positive quotient. -/
def leadingPower (num den : Nat) : Int :=
  let guess : Int := (Decimal.digitCount num : Int) - Decimal.digitCount den
  let below :=
    if 0 ≤ guess then num < den * 10 ^ guess.toNat else num * 10 ^ (-guess).toNat < den
  if below then guess - 1 else guess

def gridPoint (digits : Nat) (power : Int) : Nat × Nat :=
  if 0 ≤ power then (digits * 10 ^ power.toNat, 1) else (digits, 10 ^ (-power).toNat)

/-- The digits on the grid with the given power of ten in the last place. -/
def onGrid (b : Bounds) (power : Int) : Option Nat :=
  let below :=
    if 0 ≤ power then b.value / (b.den * 10 ^ power.toNat)
    else b.value * 10 ^ (-power).toNat / b.den
  let above := below + 1
  let (bn, bd) := gridPoint below power
  let (an, ad) := gridPoint above power
  match b.holds bn bd, b.holds an ad with
  | true, false => some below
  | false, true => some above
  | true, true =>
    let left := b.value * bd - bn * b.den
    let right := an * b.den - b.value * ad
    if left < right then some below
    else if right < left then some above
    else some (below + below % 2)
  | false, false => none

/-- Tries the grids with more and more digits. -/
def search (b : Bounds) (lead : Int) : Nat → Nat → Nat × Int
  | 0, _ => (b.value / b.den, 0)
  | fuel + 1, places =>
    let power := lead - places
    match onGrid b power with
    | some ds => (ds, power)
    | none => search b lead fuel (places + 1)

def shortest (m : Nat) (q : Int) : Nat × Int :=
  let (num, den) := quotient m q
  search (bounds m q) (leadingPower num den) 17 0

/-- How a number is laid out: the powers of ten of a leading digit that
are written positionally, the least count of exponent digits, and whether
a single digit before an exponent has a point and a zero after it. -/
structure Layout where
  firstPositional : Int
  lastPositional : Int
  exponentDigits : Nat
  pointBeforeExponent : Bool

def layout : Layout := ⟨-4, 15, 2, false⟩

def dropTrailingZeros (ds : Text) : Text := Text.stripRight (· = '0') ds

/-- The text of digits whose first one stands at the given power of ten. -/
def layOut (l : Layout) (ds : Text) (lead : Int) : Text :=
  if l.firstPositional ≤ lead ∧ lead ≤ l.lastPositional then
    if lead < 0 then '0' :: '.' :: (Decimal.zeros (-lead - 1).toNat ++ ds)
    else
      let whole := lead.toNat + 1
      let padded := ds ++ Decimal.zeros (whole - ds.length)
      let fraction := padded.drop whole
      padded.take whole ++ '.' :: (if fraction.isEmpty then ['0'] else fraction)
  else
    let first := ds.take 1
    let others := ds.drop 1
    let others := if others.isEmpty && l.pointBeforeExponent then ['0'] else others
    first ++ (if others.isEmpty then [] else '.' :: others) ++
      'e' :: (if lead < 0 then '-' else '+') :: Text.padded l.exponentDigits lead.natAbs

def text : Binary64 → Text
  | .nan => "nan".toList
  | .infinite negative => Decimal.signText negative ++ "inf".toList
  | .finite negative 0 _ => Decimal.signText negative ++ "0.0".toList
  | .finite negative m q =>
    let (digits, power) := shortest m q
    let ds := Text.ofNat digits
    let lead := power + ds.length - 1
    Decimal.signText negative ++ layOut layout (dropTrailingZeros ds) lead

end RecordQuery.Binary64
