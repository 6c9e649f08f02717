import RecordQuery.Error
import RecordQuery.Number.Shortest
import RecordQuery.Value.Basic

namespace RecordQuery.Value

/-!
# The text of values

The text in which a value is searched, and the form in which it is shown
inside another value. A whole number with too many digits has neither.
-/

def commaSeparated (items : List Text) : Text := Text.joinWith ", ".toList items

def call (name : String) (arguments : List Text) : Text :=
  name.toList ++ '(' :: commaSeparated arguments ++ [')']

def infiniteText (negative : Bool) : Text := Decimal.signText negative ++ "Infinity".toList

def undefinedText : Text := "NaN".toList

def boolText (b : Bool) : Text := if b then "True".toList else "False".toList

/-- A time span in days, seconds and microseconds, of which only the first may be negative. -/
def spanLiteral (micros : Int) : Text :=
  let days := Int.fdiv micros microsPerDay
  let rest := (Int.fmod micros microsPerDay).toNat
  let part (name : String) (n : Int) : List Text :=
    if n = 0 then [] else [name.toList ++ Text.ofInt n]
  let parts := part "days=" days ++ part "seconds=" (rest / 1000000 : Nat) ++
    part "microseconds=" (rest % 1000000 : Nat)
  call "datetime.timedelta" (if parts.isEmpty then [['0']] else parts)

def offsetLiteral (o : Offset) : Text :=
  if o.micros = 0 then "datetime.timezone.utc".toList
  else call "datetime.timezone" [spanLiteral o.micros]

/-- Date and time of day as numbers, and what is said of the place behind them. -/
def clockLiteral (d : Date) (c : Clock) (place : List Text) : Text :=
  let seconds :=
    if c.micro ≠ 0 then [c.second, c.micro] else if c.second ≠ 0 then [c.second] else []
  let numbers := [d.year, d.month, d.day, c.hour, c.minute] ++ seconds
  call "datetime.datetime" (numbers.map Text.ofNat ++ place)

def momentLiteral (t : Moment) : Text :=
  clockLiteral t.date t.clock
    (match t.offset with
    | some o => ["tzinfo=".toList ++ offsetLiteral o]
    | none => [])

def zonedLiteral (t : ZonedMoment) : Text :=
  clockLiteral t.date t.clock
    ((if t.later then ["fold=1".toList] else []) ++
      ["tzinfo=".toList ++ call "zoneinfo.ZoneInfo" ["key=".toList ++ Text.quoted t.zone.name]])

def dateLiteral (d : Date) : Text :=
  call "datetime.date" ([d.year, d.month, d.day].map Text.ofNat)

/-- The first number with too many digits. -/
@[irreducible] def intBound : Nat := 10 ^ digitLimit

def intText (n : Int) : Outcome Text :=
  if n.natAbs < intBound then .ok (Text.ofInt n) else .error .tooManyDigits

mutual

/-- A value as it is shown inside another. -/
def literal : Value → Outcome Text
  | null => .ok "None".toList
  | bool b => .ok (boolText b)
  | int n => intText n
  | float x => .ok x.text
  | decimal d => .ok (call "Decimal" [Text.quoted d.text])
  | infinite negative => .ok (call "Decimal" [Text.quoted (infiniteText negative)])
  | undefined => .ok (call "Decimal" [Text.quoted undefinedText])
  | text t => .ok (Text.quoted t)
  | date d => .ok (dateLiteral d)
  | moment t => .ok (momentLiteral t)
  | zoned t => .ok (zonedLiteral t)
  | uuid u => .ok (call "UUID" [Text.quoted u.text])
  | list items => return '[' :: commaSeparated (← literals items) ++ [']']
  | tuple [item] => return '(' :: (← literal item) ++ [',', ')']
  | tuple items => return '(' :: commaSeparated (← literals items) ++ [')']
  | dict entries => return '{' :: commaSeparated (← entryLiterals entries) ++ ['}']

def literals : List Value → Outcome (List Text)
  | [] => return []
  | v :: vs => return (← literal v) :: (← literals vs)

def entryLiterals : List (Value × Value) → Outcome (List Text)
  | [] => return []
  | (k, v) :: rest =>
    return ((← literal k) ++ ": ".toList ++ (← literal v)) :: (← entryLiterals rest)

end

/-- The text of a value; a text is its own. -/
def plain : Value → Outcome Text
  | text t => .ok t
  | decimal d => .ok d.text
  | infinite negative => .ok (infiniteText negative)
  | undefined => .ok undefinedText
  | date d => .ok d.text
  | moment t => .ok (t.text ' ')
  | zoned t => .ok (t.moment.text ' ')
  | uuid u => .ok u.text
  | v => v.literal

end RecordQuery.Value
