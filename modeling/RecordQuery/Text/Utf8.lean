import RecordQuery.Text.Basic

namespace RecordQuery.Text

/-!
# UTF-8

Characters as bytes, and bytes as characters. The reader goes byte by
byte; a sequence that breaks off gives one replacement character for the
bytes that could still have begun a character.
-/

abbrev Byte := Nat

def replacement : Char := '\uFFFD'

def utf8Char (c : Char) : List Byte :=
  let n := c.toNat
  if n < 0x80 then [n]
  else if n < 0x800 then [0xC0 + n / 64, 0x80 + n % 64]
  else if n < 0x10000 then [0xE0 + n / 4096, 0x80 + n / 64 % 64, 0x80 + n % 64]
  else [0xF0 + n / 262144, 0x80 + n / 4096 % 64, 0x80 + n / 64 % 64, 0x80 + n % 64]

def utf8 (t : Text) : List Byte := t.flatMap utf8Char

/-- A character begun: the bits so far, how many bytes are owed, and the
least and the greatest byte that may come next. -/
structure Pending where
  bits : Nat
  owed : Nat
  least : Byte
  greatest : Byte
  deriving DecidableEq, Repr

/-- The first byte of a longer character: the bits it gives, and what may follow it. -/
def Pending.ofLead (b : Byte) : Option Pending :=
  if 0xC2 ≤ b ∧ b ≤ 0xDF then some ⟨b - 0xC0, 1, 0x80, 0xBF⟩
  else if b = 0xE0 then some ⟨0, 2, 0xA0, 0xBF⟩
  else if b = 0xED then some ⟨0xD, 2, 0x80, 0x9F⟩
  else if 0xE1 ≤ b ∧ b ≤ 0xEF then some ⟨b - 0xE0, 2, 0x80, 0xBF⟩
  else if b = 0xF0 then some ⟨0, 3, 0x90, 0xBF⟩
  else if 0xF1 ≤ b ∧ b ≤ 0xF3 then some ⟨b - 0xF0, 3, 0x80, 0xBF⟩
  else if b = 0xF4 then some ⟨4, 3, 0x80, 0x8F⟩
  else none

/-- A byte between characters. -/
def startByte (b : Byte) : Text × Option Pending :=
  if b < 0x80 then ([Char.ofNat b], none)
  else
    match Pending.ofLead b with
    | some p => ([], some p)
    | none => ([replacement], none)

/-- The characters that are complete after one more byte, and what is begun then. -/
def feedByte : Option Pending → Byte → Text × Option Pending
  | none, b => startByte b
  | some p, b =>
    if p.least ≤ b ∧ b ≤ p.greatest then
      let bits := p.bits * 64 + (b - 0x80)
      if p.owed ≤ 1 then ([Char.ofNat bits], none)
      else ([], some ⟨bits, p.owed - 1, 0x80, 0xBF⟩)
    else
      let (out, next) := startByte b
      (replacement :: out, next)

/-- The mark for a character that breaks off. -/
def flush : Option Pending → Text
  | none => []
  | some _ => [replacement]

@[simp] theorem flush_none : flush none = [] := rfl

@[simp] theorem feedByte_none (b : Byte) : feedByte none b = startByte b := rfl

theorem startByte_basic {b : Byte} (h : b < 0x80) : startByte b = ([Char.ofNat b], none) := by
  simp [startByte, h]

end RecordQuery.Text
