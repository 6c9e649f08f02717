import RecordQuery.Proofs.Text.Digit
import RecordQuery.Proofs.Text.Pieces
import RecordQuery.Proofs.Value.Plain
import RecordQuery.Uuid

namespace RecordQuery

/-!
# Written identifiers

An identifier in groups of hexadecimal digits is read as itself: there is
nothing to take away but the hyphens.
-/

open Text

namespace Uuid

theorem hexDigits?_cons {acc v : Nat} {c d : Char} {t : Text} (hc : hexDigitValue? c = some v)
    (hd : d ≠ '_') : hexDigits? acc (c :: d :: t) = hexDigits? (16 * acc + v) (d :: t) := by
  rw [hexDigits?, hc]
  · rfl
  · exact nofun
  · rintro _ ⟨⟩
    exact hd rfl

/-- Digits are read as the number that they write. -/
theorem hexDigits?_map {ds : List Nat} (hne : ds ≠ []) (hlt : ∀ d ∈ ds, d < 16) (acc : Nat) :
    hexDigits? acc (ds.map Nat.digitChar) = some (ds.foldl (fun n d ↦ 16 * n + d) acc) := by
  have hdigit : ∀ d < 16, hexDigitValue? (Nat.digitChar d) = some d ∧ Nat.digitChar d ≠ '_' := by
    decide
  induction ds generalizing acc with
  | nil => exact absurd rfl hne
  | cons d ds ih =>
      obtain ⟨hd, hds⟩ := List.forall_mem_cons.mp hlt
      have hvalue := (hdigit d hd).1
      cases ds with
      | nil => simp [hexDigits?, hvalue]
      | cons e ds =>
          have he := (hdigit e (hds e List.mem_cons_self)).2
          have hrest := ih (List.cons_ne_nil e ds) hds (16 * acc + d)
          rw [List.map_cons, List.map_cons, hexDigits?_cons hvalue he, ← List.map_cons, hrest]
          rfl

variable {t : Text}

theorem withoutUrn_of_notMem (h : 'u' ∉ t) : withoutUrn t = t := by
  induction t with
  | nil => rfl
  | cons c t ih =>
      obtain ⟨hc, ht⟩ := not_or.mp (mt List.mem_cons.mpr h)
      rw [withoutUrn, ih ht]
      rintro _ rfl
      exact absurd rfl hc

theorem withoutUuid_of_notMem (h : 'u' ∉ t) : withoutUuid t = t := by
  induction t with
  | nil => rfl
  | cons c t ih =>
      obtain ⟨hc, ht⟩ := not_or.mp (mt List.mem_cons.mpr h)
      rw [withoutUuid, ih ht]
      rintro _ rfl
      exact absurd rfl hc

/-- An identifier has 32 digits, zeros at its start included. -/
theorem exists_hex_eq_map (u : Uuid) : ∃ ds : List Nat, ds.length = 32 ∧ (∀ d ∈ ds, d < 16) ∧
    u.hex = ds.map Nat.digitChar ∧ ds.foldl (fun n d ↦ 16 * n + d) 0 = u.number := by
  obtain ⟨ds, hlt, hds, hn⟩ := exists_toDigits_eq_map (by decide : 1 < 16) u.number
  have hle : (Nat.toDigits 16 u.number).length ≤ 32 :=
    (Nat.length_toDigits_le_iff (by decide) (by decide)).mpr u.lt_width
  rw [hds, List.length_map] at hle
  refine ⟨List.replicate (32 - ds.length) 0 ++ ds, ?_, ?_, ?_, ?_⟩
  · rw [List.length_append, List.length_replicate, Nat.sub_add_cancel hle]
  · refine List.forall_mem_append.mpr ⟨fun d hd ↦ ?_, hlt⟩
    rw [List.eq_of_mem_replicate hd]
    decide
  · rw [hex, paddedHex, lowerHex, hds, List.map_append, List.map_replicate, List.length_map]
    rfl
  · rw [List.foldl_append, foldl_zeros, hn]

theorem forall_mem_hex (u : Uuid) : ∀ c ∈ u.hex, (c ≠ '-' ∧ c ≠ '+') ∧ (c ≠ 'x' ∧ c ≠ 'X') ∧
    isNumberBlank c = false := by
  have hdigit : ∀ d < 16, (Nat.digitChar d ≠ '-' ∧ Nat.digitChar d ≠ '+') ∧
      (Nat.digitChar d ≠ 'x' ∧ Nat.digitChar d ≠ 'X') ∧
      isNumberBlank (Nat.digitChar d) = false := by
    decide
  obtain ⟨ds, -, hlt, hds, -⟩ := u.exists_hex_eq_map
  rw [hds]
  exact List.forall_mem_map.mpr fun d hd ↦ hdigit d (hlt d hd)

theorem filter_text (u : Uuid) : u.text.filter (· ≠ '-') = u.hex := by
  have hkept : ∀ s, s ⊆ u.hex → s.filter (· ≠ '-') = s := fun s hs ↦
    List.filter_eq_self.mpr fun c hc ↦ decide_eq_true (u.forall_mem_hex c (hs hc)).1.1
  have hgroup : ∀ m k, ((u.hex.drop m).take k).filter (· ≠ '-') = (u.hex.drop m).take k :=
    fun m k ↦ hkept _ (List.Subset.trans (List.take_subset k _) (List.drop_subset m _))
  have hjoin : ∀ m k, (u.hex.drop m).take k ++ u.hex.drop (m + k) = u.hex.drop m := fun m k ↦ by
    rw [← List.drop_drop, List.take_append_drop]
  have hfirst := hgroup 0 8
  have hlast := hkept _ (List.drop_subset 20 u.hex)
  rw [List.drop_zero] at hfirst
  have hhyphen : ∀ s : Text, ('-' :: s).filter (· ≠ '-') = s.filter (· ≠ '-') := fun s ↦ rfl
  simp only [text, List.filter_append, hhyphen, hfirst, hgroup, hlast, List.append_assoc]
  rw [hjoin 16 4, hjoin 12 4, hjoin 8 4, List.take_append_drop]

theorem stripped_text (u : Uuid) : stripped u.text = u.hex := by
  have hletter : 'u' ∉ u.text := fun h ↦ absurd (u.text_subset_figures h) (by decide)
  have hbrace : ∀ c ∈ u.text, isBrace c = false :=
    forall_mem_of_subset_figures (by decide) u.text_subset_figures
  rw [stripped, withoutUrn_of_notMem hletter, withoutUuid_of_notMem hletter,
    stripBoth_of_forall hbrace, filter_text]

theorem withoutHexMark_of_ne {c d : Char} (hd : d ≠ 'x' ∧ d ≠ 'X') (t : Text) :
    withoutHexMark (c :: d :: t) = c :: d :: t := by
  unfold withoutHexMark
  exact if_neg fun h ↦ h.2.elim hd.1 hd.2

theorem hexNumber?_hex (u : Uuid) : hexNumber? u.hex = some u.number := by
  have hmem := u.forall_mem_hex
  obtain ⟨ds, hlength, hlt, hds, hn⟩ := u.exists_hex_eq_map
  have hne : ds ≠ [] := List.length_pos_iff.mp (by omega)
  have hdigits := hexDigits?_map hne hlt 0
  rw [← hds, hn] at hdigits
  rw [hexNumber?, stripBoth_of_forall fun c hc ↦ (hmem c hc).2.2]
  match ds, hlength with
  | d :: e :: ds, _ =>
      rw [hds] at hmem hdigits ⊢
      obtain ⟨hfirst, hmem⟩ := List.forall_mem_cons.mp hmem
      obtain ⟨hsecond, -⟩ := List.forall_mem_cons.mp hmem
      simp only [List.map_cons] at hdigits ⊢
      rw [Numeral.takeSign_of_ne hfirst.1.1 hfirst.1.2]
      dsimp only
      rw [withoutHexMark_of_ne hsecond.2.1, hdigits]
      rfl

/-- Identifiers are read as they are written. -/
theorem read?_text (u : Uuid) : read? u.text = some u := by
  have hlength : u.hex.length = 32 := by
    obtain ⟨ds, hlength, -, hds, -⟩ := u.exists_hex_eq_map
    rw [hds, List.length_map, hlength]
  rw [read?, stripped_text, if_pos hlength, hexNumber?_hex]
  exact dif_pos u.lt_width

end Uuid

end RecordQuery
