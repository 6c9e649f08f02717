import RecordQuery.Text.LetterCase.Table

namespace RecordQuery.Text

/-!
# Lower case

Each character goes to its lower case; the dotted capital I becomes two
characters, and a capital sigma takes its final form when a letter with
case comes before it and none comes after it.
-/

def mapCase : List CaseRun → Nat → Nat
  | [], n => n
  | r :: rs, n =>
    if n < r.first then n
    else if n ≤ r.last then
      if (n - r.first) % r.step = 0 then r.target + (n - r.first) else mapCase rs n
    else mapCase rs n

/-- The lower case of a character that has one character for it. -/
def lowerChar (c : Char) : Char := Char.ofNat (mapCase caseRuns c.toNat)

def isCased (c : Char) : Bool := casedRanges.holds c

def isCaseIgnorable (c : Char) : Bool := caseIgnorableRanges.holds c

/-- The next character that is not passed over is a letter with case. -/
def followedByCased : Text → Bool
  | [] => false
  | c :: cs => if isCaseIgnorable c then followedByCased cs else isCased c

def capitalSigma : Char := 'Σ'

def dottedCapitalI : Char := 'İ'

/-- Lower case of a text whose left neighbour has case or has not. -/
def lowerAfter : Bool → Text → Text
  | _, [] => []
  | cased, c :: cs =>
    let here :=
      if c = capitalSigma then [if cased && !followedByCased cs then 'ς' else 'σ']
      else if c = dottedCapitalI then ['i', '\u0307']
      else [lowerChar c]
    here ++ lowerAfter (if isCaseIgnorable c then cased else isCased c) cs

def lower (t : Text) : Text := lowerAfter false t

@[simp] theorem lower_nil : lower [] = [] := rfl

end RecordQuery.Text
