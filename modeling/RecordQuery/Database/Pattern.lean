import RecordQuery.Text.Basic

namespace RecordQuery

/-!
# Search patterns

Patterns of the database: a percent sign stands for any text, a low line
for any character, and a slash takes the next character for itself. The
letters of the basic alphabet match in either case. Pattern and text end
at the first NUL character, and two code points that are no characters are
not told apart from the replacement character.
-/

namespace Pattern

inductive Item where
  | anything
  | single
  | exactly (c : Char)
  deriving DecidableEq, Repr

/-- The slash takes the next character for itself. -/
def isSpecial (c : Char) : Bool := c = '/' || c = '%' || c = '_'

/-- A needle in which no character has a special meaning. -/
def escaped : Text → Text
  | [] => []
  | c :: cs => if isSpecial c then '/' :: c :: escaped cs else c :: escaped cs

/-- The items of a pattern; an escape with nothing after it spoils it. -/
def items? : Text → Option (List Item)
  | [] => some []
  | ['/'] => none
  | '/' :: c :: cs => (items? cs).map (.exactly c :: ·)
  | '%' :: cs => (items? cs).map (.anything :: ·)
  | '_' :: cs => (items? cs).map (.single :: ·)
  | c :: cs => (items? cs).map (.exactly c :: ·)

/-- Some end of a text, the whole and the empty one included, passes a test. -/
def anyEnd (p : Text → Bool) : Text → Bool
  | [] => p []
  | c :: cs => p (c :: cs) || anyEnd p cs

def sameLetter (c d : Char) : Bool := Text.basicLower [c] = Text.basicLower [d]

def accepts : List Item → Text → Bool
  | [], t => t.isEmpty
  | .anything :: rest, t => anyEnd (accepts rest) t
  | .single :: rest, t =>
    match t with
    | [] => false
    | _ :: cs => accepts rest cs
  | .exactly c :: rest, t =>
    match t with
    | [] => false
    | d :: cs => sameLetter c d && accepts rest cs

def untilNul (t : Text) : Text := t.takeWhile (· ≠ '\x00')

/-- The last two code points of the first plane, which are no characters, are read as the
replacement character. -/
def seenChar (c : Char) : Char := if c = '\uFFFE' ∨ c = '\uFFFF' then '\uFFFD' else c

/-- What is seen of a pattern or a text when they are compared. -/
def seen (t : Text) : Text := (untilNul t).map seenChar

def isLike (pattern t : Text) : Bool :=
  match items? (seen pattern) with
  | some items => accepts items (seen t)
  | none => false

@[simp] theorem escaped_nil : escaped [] = [] := rfl

/-- An escaped needle stands for itself, whatever characters it has. -/
theorem items?_escaped_append (v rest : Text) :
    items? (escaped v ++ rest) = (items? rest).map (v.map Item.exactly ++ ·) := by
  induction v with
  | nil => simp
  | cons c cs ih =>
      by_cases h : isSpecial c = true
      · simp [escaped, h, items?, ih, Function.comp_def]
      · have hc : c ≠ '/' ∧ c ≠ '%' ∧ c ≠ '_' := by
          simpa [isSpecial, and_assoc] using h
        simp only [escaped, h, Bool.false_eq_true, if_false, List.cons_append]
        rw [items?]
        · simp [ih, Function.comp_def]
        all_goals simp [hc]

theorem anyEnd_eq_true_iff {p : Text → Bool} {t : Text} :
    anyEnd p t = true ↔ ∃ s, s <:+ t ∧ p s = true := by
  induction t with
  | nil => simp [anyEnd]
  | cons c cs ih =>
      simp only [anyEnd, Bool.or_eq_true, ih, List.suffix_cons_iff]
      constructor
      · rintro (h | ⟨s, hs, h⟩)
        · exact ⟨_, .inl rfl, h⟩
        · exact ⟨s, .inr hs, h⟩
      · rintro ⟨s, rfl | hs, h⟩
        · exact .inl h
        · exact .inr ⟨s, hs, h⟩

example : isLike "a/%%".toList "A%b".toList = true := by decide

example : isLike "%_/_".toList "x_".toList = true := by decide

example : isLike "a/%".toList "ab".toList = false := by decide

example : isLike "a/\uFFFF".toList "A\uFFFE\x00b".toList = true := by decide

end Pattern

end RecordQuery
