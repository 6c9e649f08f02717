import RecordQuery.Proofs.Number.Whole

namespace RecordQuery

/-!
# Written decimals

The digits, the point and the exponent that a decimal is written with are
read as that decimal again, its sign and the zeros at its end included.
-/

/-! ## Rows of digits -/

namespace Text

variable {t : Text} {ds : List Nat}

theorem ofDigits_zeros_append (n : Nat) (ds : List Nat) :
    ofDigits (List.replicate n 0 ++ ds) = ofDigits ds := by
  rw [ofDigits, List.foldl_append, foldl_zeros, ofDigits]

theorem ne_nil_of_digitValues? (h : digitValues? t = some ds) (ht : t ≠ []) : ds ≠ [] := by
  rw [← List.length_pos_iff, length_of_digitValues?_eq h]
  exact List.length_pos_iff.mpr ht

end Text

/-! ## Numerals -/

namespace Numeral

open Text

variable {s t : Text} {ds : List Nat}

/-- Digits are taken off up to the first character that is none. -/
theorem takeDigits_append (hs : digitValues? s = some ds)
    (ht : ∀ c ∈ t.head?, digitValue? c = none) : takeDigits (s ++ t) = (ds, t) := by
  induction s generalizing ds with
  | nil =>
      cases hs
      cases t with
      | nil => rfl
      | cons c t => simp [takeDigits, ht c rfl]
  | cons c s ih =>
      obtain ⟨d, ds', hd, hds', rfl⟩ := digitValues?_cons_eq_some_iff.mp hs
      simp [takeDigits, hd, ih hds']

end Numeral

/-- A power of ten, unless it is one. -/
def Decimal.powerText (e : Int) : Text := if e = 0 then [] else 'E' :: exponentText e

/-- A point and the digits behind it, if there are any. -/
def Decimal.fractionText (t : Text) : Text := if t = [] then [] else '.' :: t

namespace Numeral

open Text Decimal

theorem exponent?_powerText (e : Int) : exponent? (powerText e) = some e := by
  unfold powerText
  split
  · next he =>
      subst he
      rfl
  · obtain ⟨ds, hds, hn⟩ := exists_digitValues?_ofNat e.natAbs
    have hne := ne_nil_of_digitValues? hds (ofNat_ne_nil _)
    obtain ⟨d, ds, rfl⟩ := List.exists_cons_of_ne_nil hne
    unfold exponentText
    by_cases hnegative : e < 0
    · have hvalue : -(e.natAbs : Int) = e := by omega
      rw [if_pos hnegative, exponent?, if_pos (.inr rfl), takeSign]
      dsimp only
      rw [hds]
      dsimp only
      rw [hn, if_pos rfl, hvalue]
    · have hvalue : (e.natAbs : Int) = e := by omega
      rw [if_neg hnegative, exponent?, if_pos (.inr rfl), takeSign]
      dsimp only
      rw [hds]
      dsimp only
      rw [hn, if_neg Bool.false_ne_true, hvalue]

theorem powerText_eq (e : Int) : powerText e = [] ∨ ∃ t, powerText e = 'E' :: t := by
  unfold powerText
  split
  · exact .inl rfl
  · exact .inr ⟨_, rfl⟩

theorem takeDigits_append_powerText {s : Text} {ds : List Nat} (hs : digitValues? s = some ds)
    (e : Int) : takeDigits (s ++ powerText e) = (ds, powerText e) := by
  apply takeDigits_append hs
  rcases powerText_eq e with h | ⟨t, h⟩
  · rw [h]
    exact nofun
  · rw [h]
    rintro _ ⟨⟩
    decide

theorem isSign_signText (negative : Bool) : IsSign (signText negative) negative := by
  cases negative with
  | false => exact .none
  | true => exact .minus

/-- Digits, a point with digits behind it or none, and a power of ten or none. -/
theorem read?_append (negative : Bool) {whole fraction : Text} {ws fs : List Nat}
    (hwhole : digitValues? whole = some ws) (hfraction : digitValues? fraction = some fs)
    (hne : whole ≠ []) (e : Int) :
    read? (signText negative ++ (whole ++ (fractionText fraction ++ powerText e))) =
      some ⟨negative, ws, fs, e⟩ := by
  have hws := ne_nil_of_digitValues? hwhole hne
  have hdigits := isDigit_of_digitValues?_eq hwhole
  have hexponent := exponent?_powerText e
  obtain ⟨c, w, rfl⟩ := List.exists_cons_of_ne_nil hne
  have hsign := takeSign_append (isSign_signText negative) (hdigits c List.mem_cons_self)
    (w ++ (fractionText fraction ++ powerText e))
  rw [← List.cons_append] at hsign
  rw [read?, hsign]
  dsimp only
  by_cases hnil : fraction = []
  · subst hnil
    cases hfraction
    have hrest : takeDigits (c :: w ++ (fractionText [] ++ powerText e)) = (ws, powerText e) :=
      takeDigits_append_powerText hwhole e
    rw [hrest]
    rcases powerText_eq e with h | ⟨t, h⟩
    · simpa [h, hws] using hexponent
    · simpa [h, hws] using hexponent
  · have hpoint : fractionText fraction = '.' :: fraction := if_neg hnil
    have hrest : takeDigits (c :: w ++ (fractionText fraction ++ powerText e)) =
        (ws, '.' :: (fraction ++ powerText e)) := by
      rw [hpoint]
      exact takeDigits_append hwhole (by rintro _ ⟨⟩; decide)
    rw [hrest]
    simp [hws, takeDigits_append_powerText hfraction, hexponent]

end Numeral

/-! ## Decimals -/

namespace Decimal

open Text

theorem power_eq (p q : Int) :
    (if p = q then [] else 'E' :: exponentText (p - q)) = powerText (p - q) := by
  simp only [powerText, Int.sub_eq_zero]

/-- A decimal is written as digits with a point among them or none, and a power of ten or none. -/
theorem exists_text_eq (d : Decimal) : ∃ whole fraction ws fs e,
    digitValues? whole = some ws ∧ digitValues? fraction = some fs ∧ whole ≠ [] ∧
      d.text = signText d.negative ++ (whole ++ (fractionText fraction ++ powerText e)) ∧
      ofDigits (ws ++ fs) = d.coefficient ∧ e - fs.length = d.exponent := by
  obtain ⟨ds, hds, hn⟩ := exists_digitValues?_ofNat d.coefficient
  have hlength := length_of_digitValues?_eq hds
  have hne := ofNat_ne_nil d.coefficient
  unfold text
  dsimp only
  generalize Text.ofNat d.coefficient = t at hds hlength hne ⊢
  have hpos : 0 < t.length := List.length_pos_iff.mpr hne
  have hplace : (if d.exponent ≤ 0 ∧ -6 < d.exponent + (t.length : Int) then
      d.exponent + (t.length : Int) else 1) ≤ t.length := by
    split <;> omega
  generalize (if d.exponent ≤ 0 ∧ -6 < d.exponent + (t.length : Int) then
    d.exponent + (t.length : Int) else 1) = place at hplace ⊢
  rw [power_eq, List.append_assoc]
  generalize hpower : d.exponent + (t.length : Int) - place = e
  split
  · next hleft =>
      have hzeros : digitValues? (zeros (-place).toNat ++ t) =
          some (List.replicate (-place).toNat 0 ++ ds) :=
        digitValues?_append_eq_some_iff.mpr ⟨_, _, digitValues?_replicate_zero _, hds, rfl⟩
      have hfraction : zeros (-place).toNat ++ t ≠ [] := List.append_ne_nil_of_right_ne_nil _ hne
      refine ⟨['0'], _, [0], _, e, by decide, hzeros, by decide, ?_, ?_, ?_⟩
      · rw [fractionText, if_neg hfraction]
        rfl
      · rw [← hn, ← List.append_assoc]
        exact ofDigits_zeros_append ((-place).toNat + 1) ds
      · rw [List.length_append, List.length_replicate]
        omega
  · split
    · next hleft hright =>
        have hzeros : zeros (place - t.length).toNat = [] := by
          have hnone : (place - (t.length : Int)).toNat = 0 := by omega
          rw [hnone]
          rfl
        refine ⟨t, [], ds, [], e, hds, rfl, hne, ?_, ?_, ?_⟩
        · rw [hzeros, List.append_nil]
          rfl
        · rw [List.append_nil, hn]
        · rw [List.length_nil]
          omega
    · next hleft hright =>
        have hsplit := List.take_append_drop place.toNat t
        obtain ⟨ws, fs, hws, hfs, rfl⟩ := digitValues?_append_eq_some_iff.mp (hsplit.symm ▸ hds)
        have hfs_length := length_of_digitValues?_eq hfs
        rw [List.length_drop] at hfs_length
        refine ⟨_, _, ws, fs, e, hws, hfs, ?_, ?_, hn, ?_⟩
        · rw [← List.length_pos_iff, List.length_take]
          omega
        · have hfraction : t.drop place.toNat ≠ [] := by
            rw [← List.length_pos_iff, List.length_drop]
            omega
          rw [fractionText, if_neg hfraction, List.append_assoc]
        · omega

/-- Decimals that are not too large are read as they are written. -/
theorem readDecimal?_text {d : Decimal} (h : d.inRange = true) : readDecimal? d.text = some d := by
  have hplain : d.text.filter (· ≠ '_') = d.text := by
    have hne : ∀ c ∈ d.text, c ≠ '_' :=
      forall_mem_of_subset_figures (by decide) d.text_subset_figures
    exact List.filter_eq_self.mpr fun c hc ↦ decide_eq_true (hne c hc)
  obtain ⟨whole, fraction, ws, fs, e, hwhole, hfraction, hne, htext, hcoefficient, hexponent⟩ :=
    d.exists_text_eq
  have hread := Numeral.read?_append d.negative hwhole hfraction hne e
  rw [readDecimal?, hplain, htext, hread]
  have hdecimal : Numeral.toDecimal ⟨d.negative, ws, fs, e⟩ = d := by
    rw [Numeral.toDecimal, hcoefficient, hexponent]
  simp only [hdecimal, h, if_true]

end Decimal

end RecordQuery
