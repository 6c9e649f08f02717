import RecordQuery.Literal
import RecordQuery.Proofs.Text.Digit
import RecordQuery.Proofs.Text.Pieces

namespace RecordQuery

/-!
# Whole numerals

A whole number is written with a sign or without, and with digits of any
script, in groups with single underscores between them. What stands behind
the sign and the zeros at the start of a small number is short.
-/

/-! ## The value of digits -/

namespace Text

variable {c : Char} {s t : Text} {d : Nat} {ds : List Nat}

theorem foldl_digits (n : Nat) (ds : List Nat) :
    ds.foldl (fun n d ↦ 10 * n + d) n = n * 10 ^ ds.length + ofDigits ds := by
  induction ds generalizing n with
  | nil => simp [ofDigits]
  | cons d ds ih =>
      have hcons : ofDigits (d :: ds) = d * 10 ^ ds.length + ofDigits ds := by
        rw [ofDigits, List.foldl_cons, ih, Nat.mul_zero, Nat.zero_add]
      rw [List.foldl_cons, ih, hcons, List.length_cons, Nat.pow_succ, Nat.add_mul, Nat.add_assoc,
        Nat.mul_comm 10 n, Nat.mul_assoc, Nat.mul_comm 10]

theorem ofDigits_cons (d : Nat) (ds : List Nat) :
    ofDigits (d :: ds) = d * 10 ^ ds.length + ofDigits ds := by
  rw [ofDigits, List.foldl_cons, foldl_digits, Nat.mul_zero, Nat.zero_add]

theorem isDigit_of_digitValues?_eq (h : digitValues? t = some ds) : ∀ c ∈ t, isDigit c = true := by
  induction t generalizing ds with
  | nil => exact nofun
  | cons c t ih =>
      obtain ⟨d, ds', hd, hds, rfl⟩ := digitValues?_cons_eq_some_iff.mp h
      exact List.forall_mem_cons.mpr ⟨Option.isSome_iff_exists.mpr ⟨d, hd⟩, ih hds⟩

/-- Zeros at the start do not count: behind them, a number below a power of ten has no more digits
than that power has zeros. -/
theorem length_dropZeros_le {k : Nat} (h : digitValues? t = some ds) (hlt : ofDigits ds < 10 ^ k)
    (hzero : ∀ c ∈ t, digitValue? c = some 0 → c = '0') :
    (t.dropWhile (· = '0')).length ≤ k := by
  induction t generalizing ds with
  | nil => exact Nat.zero_le k
  | cons c t ih =>
      obtain ⟨d, ds', hd, hds, rfl⟩ := digitValues?_cons_eq_some_iff.mp h
      obtain ⟨hc, ht⟩ := List.forall_mem_cons.mp hzero
      rw [ofDigits_cons] at hlt
      by_cases hzero : c = '0'
      · rw [List.dropWhile_cons_of_pos (by simpa using hzero)]
        exact ih hds (by omega) ht
      · rw [List.dropWhile_cons_of_neg (by simpa using hzero), List.length_cons]
        have hpos : 0 < d := Nat.pos_of_ne_zero fun h ↦ hzero (hc (h ▸ hd))
        have hpower : 10 ^ ds'.length < 10 ^ k := by
          have := Nat.le_mul_of_pos_left (10 ^ ds'.length) hpos
          omega
        rw [length_of_digitValues?_eq hds] at hpower
        exact (Nat.pow_lt_pow_iff_right (by decide)).mp hpower

end Text

/-! ## Signs -/

/-- A sign or none, and whether it makes a number negative. -/
inductive Numeral.IsSign : Text → Bool → Prop
  | none : IsSign [] false
  | plus : IsSign ['+'] false
  | minus : IsSign ['-'] true

namespace Numeral

open Text

variable {sign t : Text} {negative : Bool} {ds : List Nat}

theorem takeSign_append (hsign : IsSign sign negative) {c : Char} (hc : isDigit c = true)
    (t : Text) :
    takeSign (sign ++ c :: t) = (negative, c :: t) := by
  cases hsign with
  | none =>
      refine takeSign_of_ne ?_ ?_ <;>
      · rintro rfl
        exact absurd hc (by decide)
  | plus => rfl
  | minus => rfl

theorem exists_of_takeSign {s : Text} (h : takeSign s = (negative, t)) :
    ∃ sign, IsSign sign negative ∧ s = sign ++ t := by
  unfold takeSign at h
  split at h
  · cases h
    exact ⟨_, .minus, rfl⟩
  · cases h
    exact ⟨_, .plus, rfl⟩
  · cases h
    exact ⟨_, .none, rfl⟩

theorem significant_append (hsign : IsSign sign negative) {c : Char} (hc : isDigit c = true)
    (t : Text) : significant (sign ++ c :: t) = (c :: t).dropWhile (· = '0') := by
  have hne : (decide (c = '+') || decide (c = '-')) = false := by
    rw [Bool.or_eq_false_iff, decide_eq_false_iff_not, decide_eq_false_iff_not]
    constructor <;>
    · rintro rfl
      exact absurd hc (by decide)
  have hstrip : stripLeft (fun c ↦ c = '+' || c = '-') (sign ++ c :: t) = c :: t := by
    cases hsign <;> simp [stripLeft, hne]
  rw [significant, hstrip, stripLeft]

end Numeral

/-! ## Groups of digits -/

section

open Text

variable {b : Bool} {c : Char} {g s t : Text} {groups : List Text}

theorem joinDigitGroups?_cons (hc : c ≠ '_') :
    joinDigitGroups? b (c :: t) = (joinDigitGroups? (isDigit c) t).map (c :: ·) := by
  rw [joinDigitGroups?, if_neg hc]
  rintro _ _ rfl
  exact absurd rfl hc

theorem joinDigitGroups?_append (hg : ∀ c ∈ g, isDigit c = true) (hb : b = true ∨ g ≠ []) :
    joinDigitGroups? b (g ++ t) = (joinDigitGroups? true t).map (g ++ ·) := by
  induction g generalizing b with
  | nil =>
      obtain rfl := hb.resolve_right (not_not.mpr rfl)
      simp
  | cons c g ih =>
      obtain ⟨hc, hg⟩ := List.forall_mem_cons.mp hg
      have hne : c ≠ '_' := by
        rintro rfl
        exact absurd hc (by decide)
      rw [List.cons_append, joinDigitGroups?_cons hne, hc, ih hg (Or.inl rfl)]
      simp [Function.comp_def]

theorem joinDigitGroups?_joinWith (hg : ∀ c ∈ g, isDigit c = true) (hb : b = true ∨ g ≠ [])
    (hgroups : ∀ h ∈ groups, h ≠ [] ∧ ∀ c ∈ h, isDigit c = true) :
    joinDigitGroups? b (joinWith ['_'] (g :: groups)) = some (g ++ groups.flatten) := by
  induction groups generalizing b g with
  | nil =>
      have h := joinDigitGroups?_append (t := []) hg hb
      simpa [joinDigitGroups?] using h
  | cons h groups ih =>
      obtain ⟨⟨hne, hh⟩, hothers⟩ := List.forall_mem_cons.mp hgroups
      rw [joinWith_cons (List.cons_ne_nil _ _), List.append_assoc, joinDigitGroups?_append hg hb]
      cases h with
      | nil => exact absurd rfl hne
      | cons c h =>
          obtain ⟨hc, hh⟩ := List.forall_mem_cons.mp hh
          have hrest := ih (b := true) hh (Or.inl rfl) hothers
          have hcons : joinWith ['_'] ((c :: h) :: groups) = c :: joinWith ['_'] (h :: groups) := by
            cases groups <;> rfl
          rw [hcons, List.singleton_append, joinDigitGroups?, hc, Bool.and_self, if_pos rfl, hrest]
          simp

/-- Behind a digit, the digits of a group come to an end and other groups follow. -/
theorem exists_groups_of_joinDigitGroups? (h : joinDigitGroups? b t = some s)
    (hs : ∀ c ∈ s, isDigit c = true) (hb : b = true ∨ s ≠ []) :
    ∃ g groups, t = joinWith ['_'] (g :: groups) ∧ s = g ++ groups.flatten ∧
      (∀ h ∈ groups, h ≠ []) ∧ (b = true ∨ g ≠ []) := by
  fun_induction joinDigitGroups? b t generalizing s with
  | case1 b =>
      cases h
      exact ⟨[], [], rfl, rfl, nofun, hb⟩
  | case2 b c t hdigit ih =>
      obtain ⟨s', hs', rfl⟩ := Option.map_eq_some_iff.mp h
      obtain ⟨hb', hc⟩ := Bool.and_eq_true_iff.mp hdigit
      obtain ⟨hc', hs⟩ := List.forall_mem_cons.mp hs
      obtain ⟨g, groups, rfl, rfl, hgroups, -⟩ := ih hs' hs (Or.inl rfl)
      refine ⟨[], (c :: g) :: groups, ?_, rfl, ?_, Or.inl hb'⟩
      · cases groups <;> rfl
      · exact List.forall_mem_cons.mpr ⟨List.cons_ne_nil c g, hgroups⟩
  | case3 b c t hdigit => cases h
  | case4 b t => cases h
  | case5 b c t hne hc ih =>
      obtain ⟨s', hs', rfl⟩ := Option.map_eq_some_iff.mp h
      obtain ⟨hdigit, hs⟩ := List.forall_mem_cons.mp hs
      obtain ⟨g, groups, rfl, rfl, hgroups, -⟩ := ih hs' hs (Or.inl hdigit)
      refine ⟨c :: g, groups, ?_, rfl, hgroups, Or.inr (List.cons_ne_nil c g)⟩
      cases groups <;> rfl

end

/-! ## Whole numerals -/

/-- A sign or none, and digits in groups with single underscores between them. -/
def IsWholeNumeral (t : Text) (n : Int) : Prop :=
  ∃ sign negative groups ds, Numeral.IsSign sign negative ∧ groups ≠ [] ∧ (∀ g ∈ groups, g ≠ []) ∧
    Text.digitValues? groups.flatten = some ds ∧ t = sign ++ Text.joinWith ['_'] groups ∧
    n = if negative then -(Text.ofDigits ds : Int) else Text.ofDigits ds

namespace Numeral

open Text

variable {sign s t : Text} {negative b : Bool}

theorem joinDigitGroups?_sign_append (hsign : IsSign sign negative) (t : Text) :
    joinDigitGroups? false (sign ++ t) = (joinDigitGroups? false t).map (sign ++ ·) := by
  cases hsign with
  | none => simp
  | plus => exact joinDigitGroups?_cons (by decide)
  | minus => exact joinDigitGroups?_cons (by decide)

/-- A character before the first digit stays where it is. -/
theorem exists_of_joinDigitGroups?_cons {c : Char} (hc : isDigit c = false)
    (h : joinDigitGroups? false t = some (c :: s)) :
    ∃ u, t = c :: u ∧ joinDigitGroups? false u = some s := by
  cases t with
  | nil => cases h
  | cons d t =>
      by_cases hd : d = '_'
      · subst hd
        cases t <;> cases h
      · rw [joinDigitGroups?_cons hd] at h
        obtain ⟨s', hs', heq⟩ := Option.map_eq_some_iff.mp h
        obtain ⟨rfl, rfl⟩ := List.cons.inj heq
        exact ⟨t, rfl, hc ▸ hs'⟩

theorem exists_of_joinDigitGroups?_sign (hsign : IsSign sign negative)
    (h : joinDigitGroups? false t = some (sign ++ s)) :
    ∃ u, t = sign ++ u ∧ joinDigitGroups? false u = some s := by
  cases hsign with
  | none => exact ⟨t, rfl, h⟩
  | plus => exact exists_of_joinDigitGroups?_cons (by decide) h
  | minus => exact exists_of_joinDigitGroups?_cons (by decide) h

end Numeral

theorem isWholeNumeral_of_readInt? {t : Text} {n : Int} (h : readInt? t = some n) :
    IsWholeNumeral t n := by
  unfold readInt? at h
  split at h
  · cases h
  · next s hjoin =>
      dsimp only at h
      split at h
      · next d ds hds =>
          have hsplit : Numeral.takeSign s = ((Numeral.takeSign s).1, (Numeral.takeSign s).2) := rfl
          obtain ⟨sign, hsign, hs⟩ := Numeral.exists_of_takeSign hsplit
          rw [hs] at hjoin
          obtain ⟨u, rfl, hu⟩ := Numeral.exists_of_joinDigitGroups?_sign hsign hjoin
          have hne : (Numeral.takeSign s).2 ≠ [] := by
            intro hnil
            rw [hnil] at hds
            cases hds
          obtain ⟨g, groups, rfl, hflatten, hgroups, hg⟩ :=
            exists_groups_of_joinDigitGroups? hu (Text.isDigit_of_digitValues?_eq hds) (Or.inr hne)
          rw [hflatten] at hds
          exact ⟨sign, _, g :: groups, d :: ds, hsign, List.cons_ne_nil _ _,
            List.forall_mem_cons.mpr ⟨hg.resolve_left Bool.false_ne_true, hgroups⟩, hds, rfl,
            (Option.some.inj h).symm⟩
      · cases h

theorem IsWholeNumeral.readInt?_eq {t : Text} {n : Int} (h : IsWholeNumeral t n) :
    readInt? t = some n := by
  obtain ⟨sign, negative, groups, ds, hsign, hne, hgroups, hds, rfl, rfl⟩ := h
  obtain ⟨g, groups, rfl⟩ := List.exists_cons_of_ne_nil hne
  obtain ⟨hg, hgroups⟩ := List.forall_mem_cons.mp hgroups
  obtain ⟨hfirst, hrest⟩ := List.forall_mem_append.mp (Text.isDigit_of_digitValues?_eq hds)
  have hjoin : joinDigitGroups? false (Text.joinWith ['_'] (g :: groups)) =
      some (g ++ groups.flatten) :=
    joinDigitGroups?_joinWith hfirst (Or.inr hg) fun h hh ↦
      ⟨hgroups h hh, fun c hc ↦ hrest c (List.mem_flatten_of_mem hh hc)⟩
  obtain ⟨c, g, rfl⟩ := List.exists_cons_of_ne_nil hg
  have hsplit := Numeral.takeSign_append hsign (hfirst c List.mem_cons_self) (g ++ groups.flatten)
  obtain ⟨d, ds, -, -, rfl⟩ := Text.digitValues?_cons_eq_some_iff.mp hds
  rw [List.flatten_cons, List.cons_append] at hds
  rw [readInt?, Numeral.joinDigitGroups?_sign_append hsign, hjoin]
  simp only [Option.map_some, List.cons_append, hsplit, hds]

/-- A text is read as a whole number if and only if it is a numeral of that number. -/
theorem readInt?_eq_some_iff {t : Text} {n : Int} : readInt? t = some n ↔ IsWholeNumeral t n :=
  ⟨isWholeNumeral_of_readInt?, IsWholeNumeral.readInt?_eq⟩

theorem isWholeNumeral_ofInt (n : Int) : IsWholeNumeral (Text.ofInt n) n := by
  have hgroup : ∀ k, ∀ g ∈ [Text.ofNat k], g ≠ [] := fun k ↦
    List.forall_mem_singleton.mpr (Text.ofNat_ne_nil k)
  cases n with
  | ofNat k =>
      obtain ⟨ds, hds, hk⟩ := Text.exists_digitValues?_ofNat k
      refine ⟨[], false, [Text.ofNat k], ds, .none, List.cons_ne_nil _ _, hgroup k, ?_, rfl, ?_⟩
      · rw [List.flatten_singleton, hds]
      · rw [hk]
        rfl
  | negSucc k =>
      obtain ⟨ds, hds, hk⟩ := Text.exists_digitValues?_ofNat (k + 1)
      refine ⟨['-'], true, [Text.ofNat (k + 1)], ds, .minus, List.cons_ne_nil _ _, hgroup _, ?_,
        rfl, ?_⟩
      · rw [List.flatten_singleton, hds]
      · rw [hk]
        rfl

end RecordQuery
