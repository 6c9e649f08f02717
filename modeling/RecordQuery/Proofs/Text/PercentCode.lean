import Mathlib.Data.List.Basic
import RecordQuery.Text.PercentCode

namespace RecordQuery.Text

/-!
# Decoding what was encoded

The bytes of a character are read back as that character, and so is its
percent code. A character that no escape can hold divides a text into two
that are decoded apart.
-/

/-! ## Bytes -/

/-- The characters that a row of bytes completes, and what is begun behind them. -/
def feedBytes : Option Pending → List Byte → Text × Option Pending
  | p, [] => ([], p)
  | p, b :: bs =>
    let (out, next) := feedByte p b
    let (rest, last) := feedBytes next bs
    (out ++ rest, last)

theorem feedByte_last {bits least greatest k : Nat} (h : least ≤ 0x80 + k ∧ 0x80 + k ≤ greatest) :
    feedByte (some ⟨bits, 1, least, greatest⟩) (0x80 + k) =
      ([Char.ofNat (bits * 64 + k)], none) := by
  simp [feedByte, h]

theorem feedByte_next (bits owed : Nat) {least greatest k : Nat}
    (h : least ≤ 0x80 + k ∧ 0x80 + k ≤ greatest) :
    feedByte (some ⟨bits, owed + 2, least, greatest⟩) (0x80 + k) =
      ([], some ⟨bits * 64 + k, owed + 1, 0x80, 0xBF⟩) := by
  simp [feedByte, h]

theorem startByte_lead {b : Nat} (hb : 0x80 ≤ b) {p : Pending} (h : Pending.ofLead b = some p) :
    startByte b = ([], some p) := by
  simp only [startByte, Nat.not_lt.mpr hb, if_false, h]

namespace Pending

theorem ofLead_two {n : Nat} (h₁ : 0x80 ≤ n) (h₂ : n < 0x800) :
    ofLead (0xC0 + n / 64) = some ⟨n / 64, 1, 0x80, 0xBF⟩ := by
  have h : 0xC2 ≤ 0xC0 + n / 64 ∧ 0xC0 + n / 64 ≤ 0xDF := by omega
  simp [ofLead, h]

/-- The bounds on the second byte keep out what shorter sequences can write and the surrogates. -/
theorem ofLead_three {n : Nat} (h₁ : 0x800 ≤ n) (h₂ : n < 0x10000)
    (hs : n < 0xD800 ∨ 0xDFFF < n) :
    ∃ least greatest : Nat, ofLead (0xE0 + n / 4096) = some ⟨n / 4096, 2, least, greatest⟩ ∧
      least ≤ 0x80 + n / 64 % 64 ∧ 0x80 + n / 64 % 64 ≤ greatest := by
  have h : ¬(0xC2 ≤ 0xE0 + n / 4096 ∧ 0xE0 + n / 4096 ≤ 0xDF) := by omega
  by_cases hE0 : n / 4096 = 0
  · exact ⟨0xA0, 0xBF, by simp [ofLead, hE0], by omega, by omega⟩
  · by_cases hED : n / 4096 = 0xD
    · exact ⟨0x80, 0x9F, by simp [ofLead, hED], by omega, by omega⟩
    · have hne₀ : 0xE0 + n / 4096 ≠ 0xE0 := by omega
      have hne₁ : 0xE0 + n / 4096 ≠ 0xED := by omega
      have hlead : 0xE1 ≤ 0xE0 + n / 4096 ∧ 0xE0 + n / 4096 ≤ 0xEF := by omega
      refine ⟨0x80, 0xBF, ?_, by omega, by omega⟩
      simp only [ofLead, h, hne₀, hne₁, hlead, and_self, if_true, if_false,
        Nat.add_sub_cancel_left]

theorem ofLead_four {n : Nat} (h₁ : 0x10000 ≤ n) (h₂ : n < 0x110000) :
    ∃ least greatest : Nat, ofLead (0xF0 + n / 262144) = some ⟨n / 262144, 3, least, greatest⟩ ∧
      least ≤ 0x80 + n / 4096 % 64 ∧ 0x80 + n / 4096 % 64 ≤ greatest := by
  have h : n / 262144 = 0 ∨ n / 262144 = 1 ∨ n / 262144 = 2 ∨ n / 262144 = 3 ∨ n / 262144 = 4 := by
    omega
  rcases h with h | h | h | h | h
  · exact ⟨0x90, 0xBF, by simp [ofLead, h], by omega, by omega⟩
  · exact ⟨0x80, 0xBF, by simp [ofLead, h], by omega, by omega⟩
  · exact ⟨0x80, 0xBF, by simp [ofLead, h], by omega, by omega⟩
  · exact ⟨0x80, 0xBF, by simp [ofLead, h], by omega, by omega⟩
  · exact ⟨0x80, 0x8F, by simp [ofLead, h], by omega, by omega⟩

end Pending

theorem toNat_bounds (c : Char) :
    (c.toNat < 0xD800 ∨ 0xDFFF < c.toNat) ∧ c.toNat < 0x110000 := by
  rcases c.valid with h | ⟨h₁, h₂⟩
  · exact ⟨.inl h, Nat.lt_trans h (by decide)⟩
  · exact ⟨.inr h₁, h₂⟩

/-- The bytes of a character are read as that character. -/
theorem feedBytes_utf8Char (c : Char) : feedBytes none (utf8Char c) = ([c], none) := by
  obtain ⟨hs, hmax⟩ := toNat_bounds c
  have hc : Char.ofNat c.toNat = c := Char.ofNat_toNat c
  generalize hn : c.toNat = n at hs hmax hc
  unfold utf8Char
  dsimp only
  rw [hn]
  by_cases h₁ : n < 0x80
  · simp [h₁, feedBytes, startByte_basic h₁, hc]
  have htail : ∀ m, 0x80 ≤ 0x80 + m % 64 ∧ 0x80 + m % 64 ≤ 0xBF := fun m ↦ by omega
  by_cases h₂ : n < 0x800
  · have hlead := startByte_lead (by omega) (Pending.ofLead_two (Nat.not_lt.mp h₁) h₂)
    have hbits : n / 64 * 64 + n % 64 = n := by omega
    simp [h₁, h₂, feedBytes, hlead, feedByte_last (htail _), hbits, hc]
  by_cases h₃ : n < 0x10000
  · obtain ⟨least, greatest, hp, hbounds⟩ := Pending.ofLead_three (Nat.not_lt.mp h₂) h₃ hs
    have hlead := startByte_lead (by omega) hp
    have hnext := feedByte_next (n / 4096) 0 hbounds
    have hbits : (n / 4096 * 64 + n / 64 % 64) * 64 + n % 64 = n := by omega
    simp [h₁, h₂, h₃, feedBytes, hlead, hnext, feedByte_last (htail _), hbits, hc]
  · obtain ⟨least, greatest, hp, hbounds⟩ := Pending.ofLead_four (Nat.not_lt.mp h₃) hmax
    have hlead := startByte_lead (by omega) hp
    have hnext := feedByte_next (n / 262144) 1 hbounds
    have hthird := feedByte_next (n / 262144 * 64 + n / 4096 % 64) 0 (htail (n / 64))
    have hbits : ((n / 262144 * 64 + n / 4096 % 64) * 64 + n / 64 % 64) * 64 + n % 64 = n := by
      omega
    simp [h₁, h₂, h₃, feedBytes, hlead, hnext, hthird, feedByte_last (htail _), hbits, hc]

theorem utf8Char_lt (c : Char) : ∀ b : Nat, b ∈ utf8Char c → b < 256 := by
  obtain ⟨-, hmax⟩ := toNat_bounds c
  intro b hb
  unfold utf8Char at hb
  dsimp only at hb
  split at hb
  · have h := List.mem_singleton.mp hb
    omega
  · split at hb
    · simp only [List.mem_cons, List.not_mem_nil, or_false] at hb
      omega
    · split at hb
      · simp only [List.mem_cons, List.not_mem_nil, or_false] at hb
        omega
      · simp only [List.mem_cons, List.not_mem_nil, or_false] at hb
        omega

/-! ## Escapes -/

theorem decodeFrom_cons {c : Char} (hc : c ≠ '%') (p : Option Pending) (t : Text) :
    decodeFrom p (c :: t) = flush p ++ (if c = '+' then ' ' else c) :: decodeFrom none t := by
  rw [decodeFrom]
  rintro _ _ _ rfl
  exact absurd rfl hc

theorem decodeFrom_escapeByte {b : Nat} (hb : b < 256) (p : Option Pending) (t : Text) :
    decodeFrom p (escapeByte b ++ t) =
      (feedByte p b).1 ++ decodeFrom (feedByte p b).2 t := by
  have hhigh := hexValue?_hexDigit (b / 16) (by omega)
  have hlow := hexValue?_hexDigit (b % 16) (by omega)
  have hpair : hexPair? (hexDigit (b / 16)) (hexDigit (b % 16)) = some b := by
    have hb' : 16 * (b / 16) + b % 16 = b := Nat.div_add_mod b 16
    simp [hexPair?, hhigh, hlow, hb']
  simp [escapeByte, decodeFrom, hpair]

theorem decodeFrom_escapeBytes {bs : List Nat} (hbs : ∀ b ∈ bs, b < 256) (p : Option Pending)
    (t : Text) : decodeFrom p (bs.flatMap escapeByte ++ t) =
      (feedBytes p bs).1 ++ decodeFrom (feedBytes p bs).2 t := by
  induction bs generalizing p with
  | nil => rfl
  | cons b bs ih =>
      rw [List.flatMap_cons, List.append_assoc, decodeFrom_escapeByte (hbs b List.mem_cons_self),
        ih fun d hd ↦ hbs d (List.mem_cons_of_mem b hd)]
      simp [feedBytes]

theorem isUnreserved_ne {c : Char} (h : isUnreserved c = true) : c ≠ '%' ∧ c ≠ '+' := by
  constructor
  · rintro rfl
    exact absurd h (by decide)
  · rintro rfl
    exact absurd h (by decide)

theorem percentDecode_encodeChar (c : Char) (t : Text) :
    percentDecode (encodeChar c ++ t) = c :: percentDecode t := by
  unfold percentDecode encodeChar
  split
  · next h =>
      obtain ⟨hpercent, hplus⟩ := isUnreserved_ne h
      rw [List.singleton_append, decodeFrom_cons hpercent, if_neg hplus, flush_none,
        List.nil_append]
  · rw [decodeFrom_escapeBytes (utf8Char_lt c), feedBytes_utf8Char]
    rfl

/-- A text is read back from its percent code, whatever follows. -/
theorem percentDecode_percentEncode_append (s t : Text) :
    percentDecode (percentEncode s ++ t) = s ++ percentDecode t := by
  induction s with
  | nil => rfl
  | cons c s ih =>
      have h : percentEncode (c :: s) = encodeChar c ++ percentEncode s := by
        simp [percentEncode]
      rw [h, List.append_assoc, percentDecode_encodeChar, ih, List.cons_append]

theorem percentDecode_percentEncode (s : Text) : percentDecode (percentEncode s) = s := by
  have h := percentDecode_percentEncode_append s []
  simpa using h

theorem eq_or_isUnreserved_of_mem_percentEncode {c : Char} {t : Text} (h : c ∈ percentEncode t) :
    c = '%' ∨ isUnreserved c = true := by
  have hdigits : ∀ n < 16, isUnreserved (hexDigit n) = true := by decide
  obtain ⟨d, -, hc⟩ := List.mem_flatMap.mp h
  unfold encodeChar at hc
  split at hc
  · next hd =>
      rw [List.mem_singleton.mp hc]
      exact .inr hd
  · obtain ⟨b, hb, hc⟩ := List.mem_flatMap.mp hc
    have hlt : (b : Nat) < 256 := utf8Char_lt d b hb
    rw [escapeByte, List.mem_cons, List.mem_cons, List.mem_singleton] at hc
    rcases hc with rfl | rfl | rfl
    · exact .inl rfl
    · exact .inr (hdigits _ (Nat.div_lt_of_lt_mul hlt))
    · exact .inr (hdigits _ (Nat.mod_lt _ (by decide)))

/-! ## Texts that stand for themselves -/

/-- A text without percent and plus signs. -/
def IsLiteral (t : Text) : Prop := ∀ c ∈ t, c ≠ '%' ∧ c ≠ '+'

instance (t : Text) : Decidable (IsLiteral t) := List.decidableBAll _ t

theorem isLiteral_append {s t : Text} : IsLiteral (s ++ t) ↔ IsLiteral s ∧ IsLiteral t := by
  exact List.forall_mem_append

theorem isLiteral_cons {c : Char} {t : Text} :
    IsLiteral (c :: t) ↔ (c ≠ '%' ∧ c ≠ '+') ∧ IsLiteral t := by
  exact List.forall_mem_cons

theorem percentDecode_cons {c : Char} (h : c ≠ '%' ∧ c ≠ '+') (t : Text) :
    percentDecode (c :: t) = c :: percentDecode t := by
  unfold percentDecode
  rw [decodeFrom_cons h.1, if_neg h.2, flush_none, List.nil_append]

theorem percentDecode_append_of_isLiteral {s : Text} (hs : IsLiteral s) (t : Text) :
    percentDecode (s ++ t) = s ++ percentDecode t := by
  induction s with
  | nil => rfl
  | cons c s ih =>
      obtain ⟨hc, hs⟩ := isLiteral_cons.mp hs
      rw [List.cons_append, percentDecode_cons hc, ih hs, List.cons_append]

theorem percentDecode_of_isLiteral {s : Text} (hs : IsLiteral s) : percentDecode s = s := by
  have h := percentDecode_append_of_isLiteral hs []
  simpa using h

/-! ## Dividing characters -/

/-- A character that is no part of an escape ends whatever is begun before it. -/
theorem decodeFrom_append_cons {c : Char} (hc : hexValue? c = none) (hpercent : c ≠ '%')
    (p : Option Pending) (s t : Text) :
    decodeFrom p (s ++ c :: t) =
      decodeFrom p s ++ (if c = '+' then ' ' else c) :: decodeFrom none t := by
  have hleft : ∀ a, hexPair? c a = none := fun a ↦ by simp [hexPair?, hc]
  have hright : ∀ a, hexPair? a c = none := fun a ↦ by
    unfold hexPair?
    cases hexValue? a <;> simp [hc]
  fun_induction decodeFrom p s with
  | case1 p =>
      rw [List.nil_append, decodeFrom_cons hpercent]
  | case2 p a b rest byte hbyte out next hfeed ih =>
      simp [decodeFrom, hbyte, hfeed, ih]
  | case3 p a b rest hbyte ih =>
      have ih' : decodeFrom none (a :: b :: (rest ++ c :: t)) =
          decodeFrom none (a :: b :: rest) ++
            (if c = '+' then ' ' else c) :: decodeFrom none t := ih
      simp only [List.cons_append, decodeFrom, hbyte, ih', List.append_assoc]
  | case4 p d rest hno ih =>
      by_cases hd : d = '%'
      · subst hd
        match rest, hno, ih with
        | [], _, _ =>
            cases t with
            | nil => simp [decodeFrom]
            | cons a t => simp [decodeFrom, hleft, decodeFrom_cons hpercent]
        | [a], _, ih => simp [decodeFrom, hright] at ih ⊢; exact ih
        | a :: b :: rest, hno, _ => exact absurd rfl (hno a b rest · rfl)
      · rw [List.cons_append, decodeFrom_cons hd, ih, List.append_assoc, List.cons_append]

theorem percentDecode_append_ampersand (s t : Text) :
    percentDecode (s ++ '&' :: t) = percentDecode s ++ '&' :: percentDecode t :=
  decodeFrom_append_cons (by decide) (by decide) none s t

end RecordQuery.Text
