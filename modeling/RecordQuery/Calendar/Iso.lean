import RecordQuery.Calendar.Moment
import RecordQuery.Text.Utf8

namespace RecordQuery.Iso

/-!
# ISO dates and times

The reader of dates as year, month and day or as year, week and day, in
extended and in basic form, and of moments: a date, any one character, a
time and an offset. The reader looks at fixed places of the text; what it
passes over there is stated where it does so.
-/

def basicDigit? (c : Char) : Option Nat :=
  if '0' ≤ c ∧ c ≤ '9' then some (c.toNat - 48) else none

def isBasicDigit (c : Char) : Bool := (basicDigit? c).isSome

/-- A number of exactly the given count of digits, and what follows it. -/
def digits : Nat → Text → Option (Nat × Text)
  | n, t => go 0 n t
where
  go (acc : Nat) : Nat → Text → Option (Nat × Text)
    | 0, t => some (acc, t)
    | _ + 1, [] => none
    | n + 1, c :: cs =>
      match basicDigit? c with
      | some d => go (10 * acc + d) n cs
      | none => none

/-- Passes over a hyphen where the extended form has one. -/
def hyphen (extended : Bool) (t : Text) : Option Text :=
  if extended then
    match t with
    | '-' :: rest => some rest
    | _ => none
  else some t

/-- The date at the start of a text. The day of a week is read if the date
part, of the given length, goes on after the week; otherwise the week
stands for its Monday. What follows the day is not looked at. -/
def datePart (length : Nat) (t : Text) : Option Date :=
  match digits 4 t with
  | none => none
  | some (year, t) =>
    let extended := t.head? = some '-'
    let t := if extended then t.drop 1 else t
    match t with
    | 'W' :: t =>
      match digits 2 t with
      | none => none
      | some (week, t) =>
        if (if extended then 8 else 7) < length then
          match (hyphen extended t).bind (digits 1) with
          | some (day, _) => Date.ofWeek? year week day
          | none => none
        else Date.ofWeek? year week 1
    | t =>
      match digits 2 t with
      | none => none
      | some (month, t) =>
        match (hyphen extended t).bind (digits 2) with
        | some (day, _) => Date.of? year month day
        | none => none

/-- A date; the text has the length of one of the forms, in bytes. -/
def date? (t : Text) : Option Date :=
  let n := (Text.utf8 t).length
  if n = 7 ∨ n = 8 ∨ n = 10 then datePart n t else none

def charAt (t : Text) (i : Nat) : Option Char := t[i]?

def digitAt (t : Text) (i : Nat) : Bool :=
  match charAt t i with
  | some c => isBasicDigit c
  | none => false

/-- The place of the character between date and time. A hyphen after a
week of the extended form belongs to the date unless two places on there
is a digit; digits after a week of the basic form belong to the time if
their number is odd, since those of a time are even in number. -/
def separatorPlace (t : Text) : Nat :=
  if t.length = 7 then 7
  else if charAt t 4 = some '-' then
    if charAt t 5 = some 'W' then
      if charAt t 8 = some '-' then (if digitAt t 10 then 8 else 10) else 8
    else 10
  else if charAt t 4 = some 'W' then
    let place := 7 + ((t.drop 7).takeWhile isBasicDigit).length
    if place < 9 then place else if place % 2 = 0 then 7 else 8
  else 8

/-- A time as it is read, before its parts are checked, and whether
something was left behind it. -/
structure TimePart where
  hour : Nat
  minute : Nat
  second : Nat
  micro : Nat
  leftOver : Bool

/-- What ends a text is as good as a NUL character. -/
def isLeftOver : Text → Bool
  | [] => false
  | c :: _ => c ≠ '\x00'

/-- A fraction of a second: its first six digits count, the others are passed over. -/
def fractionPart (t : Text) : Option (Nat × Bool) :=
  let n := min 6 t.length
  match digits n t with
  | some (v, rest) => some (v * 10 ^ (6 - n), isLeftOver (rest.dropWhile isBasicDigit))
  | none => none

/-- The numbers of a time, of which the given count may still come, with
or without colons between them, and a fraction after the last. The fraction
may follow any of them. A single byte after a number is left over, whatever
it is. -/
def timeNumbers (colons : Bool) : Nat → Text → Option (List Nat × Nat × Bool)
  | 0, t => (fractionPart t).map fun (us, left) ↦ ([], us, left)
  | n + 1, t =>
    match digits 2 t with
    | none => none
    | some (v, []) => some ([v], 0, false)
    | some (v, [c]) =>
      if (Text.utf8Char c).length = 1 then some ([v], 0, c ≠ '\x00') else none
    | some (v, c :: rest) =>
      let more :=
        if colons && c = ':' then timeNumbers colons n rest
        else if c = '.' ∨ c = ',' then (fractionPart rest).map fun (us, left) ↦ ([], us, left)
        else if colons then none
        else timeNumbers colons n (c :: rest)
      more.map fun (vs, us, left) ↦ (v :: vs, us, left)

/-- A time; the character after the hour tells whether it has colons. -/
def timePart (t : Text) : Option TimePart :=
  let colons := charAt t 2 = some ':'
  (timeNumbers colons 3 t).map fun (vs, us, left) ↦
    ⟨vs.getD 0 0, vs.getD 1 0, vs.getD 2 0, us, left⟩

def isOffsetSign (c : Char) : Bool := c = '+' || c = '-' || c = 'Z'

/-- An offset after its sign. An offset of no whole second is UTC. -/
def offset? (negative : Bool) (t : Text) : Option Offset :=
  match timePart t with
  | none => none
  | some p =>
    if p.leftOver then none
    else
      let seconds := p.hour * 3600 + p.minute * 60 + p.second
      if seconds = 0 then some Offset.utc
      else
        let us : Int := (seconds * 1000000 + p.micro : Nat)
        Offset.of? (if negative then -us else us)

/-- The time and the offset after the separator. If an offset follows,
what the time leaves over before it does not count. -/
def timeAndOffset? (t : Text) : Option (Clock × Option Offset) :=
  match timePart (t.takeWhile fun c ↦ !isOffsetSign c) with
  | none => none
  | some p =>
    let offset : Option (Option Offset) :=
      match t.dropWhile fun c ↦ !isOffsetSign c with
      | [] => if p.leftOver then none else some none
      | 'Z' :: rest => if isLeftOver rest then none else some (some Offset.utc)
      | sign :: rest => (offset? (sign = '-') rest).map some
    match offset, Clock.of? p.hour p.minute p.second p.micro with
    | some o, some c => some (c, o)
    | _, _ => none

def moment? (t : Text) : Option Moment :=
  let place := separatorPlace t
  match datePart place t with
  | none => none
  | some d =>
    if t.length ≤ place then some ⟨d, Clock.midnight, none⟩
    else (timeAndOffset? (t.drop (place + 1))).map fun (c, o) ↦ ⟨d, c, o⟩

end RecordQuery.Iso
