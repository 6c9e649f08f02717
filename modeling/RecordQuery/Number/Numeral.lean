import RecordQuery.Number.Binary64
import RecordQuery.Text.Digit

namespace RecordQuery

/-!
# Numerals

How numbers are read: an optional sign, decimal digits of any script,
and, unless a whole number is asked for, a point and an exponent.
-/

/-- A whole number with more digits than this is neither read nor written. -/
def digitLimit : Nat := 4300

/-- A numeral taken apart: the digits before and after the point, and the exponent. -/
structure Numeral where
  negative : Bool
  whole : List Nat
  fraction : List Nat
  exponent : Int
  deriving DecidableEq, Repr

namespace Numeral

def takeSign : Text → Bool × Text
  | '-' :: rest => (true, rest)
  | '+' :: rest => (false, rest)
  | t => (false, t)

def takeDigits : Text → List Nat × Text
  | [] => ([], [])
  | c :: cs =>
    match Text.digitValue? c with
    | some d =>
      let (ds, rest) := takeDigits cs
      (d :: ds, rest)
    | none => ([], c :: cs)

def exponent? : Text → Option Int
  | [] => some 0
  | c :: cs =>
    if c = 'e' ∨ c = 'E' then
      let (negative, rest) := takeSign cs
      match Text.digitValues? rest with
      | some (d :: ds) =>
        let n : Int := Text.ofDigits (d :: ds)
        some (if negative then -n else n)
      | _ => none
    else none

def read? (t : Text) : Option Numeral :=
  let (negative, t) := takeSign t
  let (whole, t) := takeDigits t
  let (fraction, t) :=
    match t with
    | '.' :: rest => takeDigits rest
    | t => ([], t)
  if whole.isEmpty && fraction.isEmpty then none
  else (exponent? t).map fun e ↦ ⟨negative, whole, fraction, e⟩

def toDecimal (n : Numeral) : Decimal :=
  ⟨n.negative, Text.ofDigits (n.whole ++ n.fraction), n.exponent - n.fraction.length⟩

end Numeral

/-- Takes out the underscores; each has to stand between two digits. -/
def joinDigitGroups? : Bool → Text → Option Text
  | _, [] => some []
  | afterDigit, '_' :: c :: cs =>
    if afterDigit && Text.isDigit c then (joinDigitGroups? true cs).map (c :: ·) else none
  | _, c :: cs =>
    if c = '_' then none else (joinDigitGroups? (Text.isDigit c) cs).map (c :: ·)

def readInt? (t : Text) : Option Int :=
  match joinDigitGroups? false t with
  | none => none
  | some t =>
    let (negative, t) := Numeral.takeSign t
    match Text.digitValues? t with
    | some (d :: ds) =>
      let n : Int := Text.ofDigits (d :: ds)
      some (if negative then -n else n)
    | _ => none

/-- A decimal; underscores are ignored wherever they stand. -/
def readDecimal? (t : Text) : Option Decimal :=
  match Numeral.read? (t.filter (· ≠ '_')) with
  | some n => if n.toDecimal.inRange then some n.toDecimal else none
  | none => none

def readBinary64? (t : Text) : Option Binary64 :=
  match joinDigitGroups? false t with
  | none => none
  | some t =>
    match Numeral.read? t with
    | none => none
    | some n =>
      let x := Binary64.ofDecimal n.toDecimal
      if x.isFinite then some x else none

end RecordQuery
