namespace RecordQuery

/-!
# Texts

A text is the list of its characters. Cutting, joining and searching are
recursions on that list, so that their laws are inductions on it.
-/

abbrev Text := List Char

instance : LawfulBEq Text := inferInstance

-- powers and sums of numbers are those of the core library, whatever else is imported
attribute [default_instance 20000, instance (high)] instPowNat
attribute [instance (high)] Zero.ofOfNat0

namespace Text

/-- Code point intervals in ascending order. -/
abbrev Ranges := List (Nat × Nat)

namespace Ranges

def within : Ranges → Nat → Bool
  | [], _ => false
  | (a, b) :: rs, n => if n < a then false else if n ≤ b then true else within rs n

def holds (rs : Ranges) (c : Char) : Bool := rs.within c.toNat

@[simp] theorem within_nil (n : Nat) : within [] n = false := rfl

end Ranges

def stripLeft (p : Char → Bool) (t : Text) : Text := t.dropWhile p

def stripRight (p : Char → Bool) (t : Text) : Text := (t.reverse.dropWhile p).reverse

def stripBoth (p : Char → Bool) (t : Text) : Text := stripRight p (stripLeft p t)

/-- The separators and layout controls of Unicode 14, the four information separators among them. -/
def blankRanges : Ranges :=
  [(9, 13), (28, 32), (133, 133), (160, 160), (5760, 5760), (8192, 8202), (8232, 8233),
   (8239, 8239), (8287, 8287), (12288, 12288)]

def isBlank (c : Char) : Bool := blankRanges.holds c

def trim (t : Text) : Text := stripBoth isBlank t

def allBlank (t : Text) : Bool := t.all isBlank

@[simp] theorem stripLeft_nil (p : Char → Bool) : stripLeft p [] = [] := rfl

@[simp] theorem stripRight_nil (p : Char → Bool) : stripRight p [] = [] := rfl

theorem stripLeft_of_head {p : Char → Bool} {c : Char} {t : Text} (h : p c = false) :
    stripLeft p (c :: t) = c :: t := by simp [stripLeft, h]

/-- The pieces between the occurrences of a separator; there is one piece more than separators. -/
def splitOn (sep : Char) : Text → List Text
  | [] => [[]]
  | c :: cs =>
    if c = sep then [] :: splitOn sep cs
    else
      match splitOn sep cs with
      | [] => [[c]]
      | p :: ps => (c :: p) :: ps

theorem splitOn_ne_nil (sep : Char) (t : Text) : splitOn sep t ≠ [] := by
  cases t with
  | nil => simp [splitOn]
  | cons c cs =>
      by_cases h : c = sep
      · simp [splitOn, h]
      · simp only [splitOn, h, if_false]
        split <;> simp

def joinWith (sep : Text) : List Text → Text
  | [] => []
  | [p] => p
  | p :: q :: ps => p ++ sep ++ joinWith sep (q :: ps)

@[simp] theorem joinWith_nil (sep : Text) : joinWith sep [] = [] := rfl

@[simp] theorem joinWith_singleton (sep p : Text) : joinWith sep [p] = p := rfl

theorem joinWith_splitOn (sep : Char) (t : Text) : joinWith [sep] (splitOn sep t) = t := by
  induction t with
  | nil => rfl
  | cons c cs ih =>
      by_cases h : c = sep
      · cases hs : splitOn sep cs with
        | nil => exact absurd hs (splitOn_ne_nil sep cs)
        | cons p ps => simpa [splitOn, h, hs, joinWith] using ih
      · cases hs : splitOn sep cs with
        | nil => exact absurd hs (splitOn_ne_nil sep cs)
        | cons p ps =>
            cases ps with
            | nil => simpa [splitOn, h, hs, joinWith] using ih
            | cons q qs => simpa [splitOn, h, hs, joinWith] using ih

theorem not_mem_of_mem_splitOn {sep : Char} {t p : Text} (hp : p ∈ splitOn sep t) : sep ∉ p := by
  induction t generalizing p with
  | nil => simp_all [splitOn]
  | cons c cs ih =>
      by_cases h : c = sep
      · have hp' : p = [] ∨ p ∈ splitOn sep cs := by simpa [splitOn, h] using hp
        rcases hp' with rfl | hp'
        · simp
        · exact ih hp'
      · cases hs : splitOn sep cs with
        | nil => exact absurd hs (splitOn_ne_nil sep cs)
        | cons q qs =>
            have hp' : p = c :: q ∨ p ∈ qs := by simpa [splitOn, h, hs] using hp
            rcases hp' with rfl | hp'
            · have hq := ih (p := q) (by simp [hs])
              simp [hq, Ne.symm h]
            · exact ih (by simp [hs, hp'])

/-- What stands before and after the first double bar. -/
def cutAtBars : Text → Option (Text × Text)
  | [] => none
  | '|' :: '|' :: rest => some ([], rest)
  | c :: rest => (cutAtBars rest).map fun (before, after) ↦ (c :: before, after)

/-- A needle that stands somewhere in a text. -/
def hasInfix (needle : Text) : Text → Bool
  | [] => needle.isEmpty
  | c :: cs => needle.isPrefixOf (c :: cs) || hasInfix needle cs

def hasPrefix (needle t : Text) : Bool := needle.isPrefixOf t

def hasSuffix (needle t : Text) : Bool := needle.reverse.isPrefixOf t.reverse

theorem hasInfix_iff {needle t : Text} : hasInfix needle t = true ↔ needle <:+: t := by
  induction t with
  | nil => simp [hasInfix]
  | cons c cs ih => simp [hasInfix, ih, List.infix_cons_iff]

theorem hasPrefix_iff {needle t : Text} : hasPrefix needle t = true ↔ needle <+: t := by
  simp [hasPrefix]

theorem hasSuffix_iff {needle t : Text} : hasSuffix needle t = true ↔ needle <:+ t := by
  simp [hasSuffix, List.reverse_prefix]

/-- The order by code points, first difference first. -/
def order : Text → Text → Ordering
  | [], [] => .eq
  | [], _ :: _ => .lt
  | _ :: _, [] => .gt
  | a :: as, b :: bs => (compare a.toNat b.toNat).then (order as bs)

def ofNat (n : Nat) : Text := Nat.toDigits 10 n

def ofInt : Int → Text
  | .ofNat n => ofNat n
  | .negSucc n => '-' :: ofNat (n + 1)

/-- A number in at least the given count of digits. -/
def padded (width n : Nat) : Text :=
  let ds := ofNat n
  List.replicate (width - ds.length) '0' ++ ds

/-- Folds the letters of the basic alphabet only. -/
def basicLower (t : Text) : Text :=
  t.map fun c ↦ if 'A' ≤ c && c ≤ 'Z' then Char.ofNat (c.toNat + 32) else c

end Text

end RecordQuery
