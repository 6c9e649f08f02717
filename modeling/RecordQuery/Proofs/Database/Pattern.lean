import Mathlib.Data.List.TakeWhile
import RecordQuery.Condition
import RecordQuery.Database.Clause
import RecordQuery.Proofs.Text.BasicAlphabet

namespace RecordQuery

/-!
# Patterns and needles

A pattern that was made from a needle matches where the needle is found,
whatever signs there are in it, both as they are seen: what stands behind a
NUL character in the text is not looked at, and code points that are no
characters count as replacement characters.
-/

namespace Pattern

open Text

theorem isSpecial_basicLowerChar (c : Char) : isSpecial (basicLowerChar c) = isSpecial c := by
  by_cases h : c.toNat < 128
  · exact forall_basic (P := fun c ↦ isSpecial (basicLowerChar c) = isSpecial c) (by decide) h
  · rw [basicLowerChar_eq_self h]

theorem basicLower_escaped (t : Text) : basicLower (escaped t) = escaped (basicLower t) := by
  have hslash : basicLowerChar '/' = '/' := by decide
  induction t with
  | nil => rfl
  | cons c t ih =>
      rw [basicLower_cons, escaped, escaped, isSpecial_basicLowerChar]
      split
      · rw [basicLower_cons, basicLower_cons, ih, hslash]
      · rw [basicLower_cons, ih]

theorem mem_escaped {c : Char} {t : Text} (h : c ∈ escaped t) : c = '/' ∨ c ∈ t := by
  induction t with
  | nil => cases h
  | cons d t ih =>
      rw [escaped] at h
      split at h
      · rcases List.mem_cons.mp h with rfl | h
        · exact Or.inl rfl
        · rcases List.mem_cons.mp h with rfl | h
          · exact Or.inr List.mem_cons_self
          · exact (ih h).imp_right (List.mem_cons_of_mem d)
      · rcases List.mem_cons.mp h with rfl | h
        · exact Or.inr List.mem_cons_self
        · exact (ih h).imp_right (List.mem_cons_of_mem d)

theorem untilNul_eq {t : Text} (h : '\x00' ∉ t) : untilNul t = t := by
  rw [untilNul, List.takeWhile_eq_self_iff]
  intro c hc
  exact decide_eq_true fun hnul ↦ h (hnul ▸ hc)

/-! ## What is seen -/

theorem seen_eq_map {t : Text} (h : '\x00' ∉ t) : seen t = t.map seenChar := by
  rw [seen, untilNul_eq h]

theorem seenChar_eq_or (c : Char) : seenChar c = c ∨ seenChar c = '\uFFFD' := by
  rw [seenChar]
  split
  · exact .inr rfl
  · exact .inl rfl

theorem seenChar_eq_iff {c d : Char} (hd : d.toNat < 128) : seenChar c = d ↔ c = d := by
  have hne : ∀ e : Char, ¬ e.toNat < 128 → e ≠ d := fun e he heq ↦ he (heq ▸ hd)
  rw [seenChar]
  split
  · next hc =>
      refine iff_of_false (hne _ (by decide)) ?_
      rcases hc with rfl | rfl <;> exact hne _ (by decide)
  · rfl

theorem isSpecial_seenChar (c : Char) : isSpecial (seenChar c) = isSpecial c := by
  simp only [isSpecial, seenChar_eq_iff (d := '/') (by decide),
    seenChar_eq_iff (d := '%') (by decide), seenChar_eq_iff (d := '_') (by decide)]

theorem map_seenChar_escaped (t : Text) :
    (escaped t).map seenChar = escaped (t.map seenChar) := by
  have hslash : seenChar '/' = '/' := by decide
  induction t with
  | nil => rfl
  | cons c t ih =>
      rw [escaped, List.map_cons, escaped, isSpecial_seenChar]
      split
      · rw [List.map_cons, List.map_cons, ih, hslash]
      · rw [List.map_cons, ih]

/-- Basic characters are seen as they are, and no other character is seen as one of them. -/
theorem map_seenChar_eq_iff {t n : Text} (hn : IsBasic n) : t.map seenChar = n ↔ t = n := by
  induction t generalizing n with
  | nil => rfl
  | cons c t ih =>
      cases n with
      | nil => simp
      | cons d n =>
          obtain ⟨hd, hn⟩ := isBasic_cons.mp hn
          rw [List.map_cons, List.cons.injEq, List.cons.injEq, seenChar_eq_iff hd.2, ih hn]

theorem seen_of_isBasic {t : Text} (h : IsBasic t) : seen t = t := by
  rw [seen_eq_map h.nul_notMem, map_seenChar_eq_iff h]

/-! ## Texts in lower case -/

/-- A text in which every character is its own lower case. -/
def IsFolded (t : Text) : Prop := ∀ c ∈ t, basicLowerChar c = c

theorem isFolded_basicLower (t : Text) : IsFolded (basicLower t) := by
  intro c hc
  obtain ⟨d, -, rfl⟩ := List.mem_map.mp hc
  exact basicLowerChar_basicLowerChar d

theorem isFolded_seen {t : Text} (h : IsFolded t) : IsFolded (seen t) := by
  intro c hc
  obtain ⟨d, hd, rfl⟩ := List.mem_map.mp hc
  rcases seenChar_eq_or d with hself | hreplaced
  · rw [hself]
    exact h d ((List.takeWhile_prefix _).subset hd)
  · rw [hreplaced]
    decide

theorem accepts_append {n t : Text} (hn : IsFolded n) (ht : IsFolded t)
    (rest : List Item) :
    accepts (n.map Item.exactly ++ rest) t = true ↔ ∃ s, t = n ++ s ∧ accepts rest s = true := by
  induction n generalizing t with
  | nil => simp
  | cons c n ih =>
      obtain ⟨hc, hn⟩ := List.forall_mem_cons.mp hn
      cases t with
      | nil => simp [accepts]
      | cons d t =>
          obtain ⟨hd, ht⟩ := List.forall_mem_cons.mp ht
          have hsame : sameLetter c d = true ↔ c = d := by simp [sameLetter, hc, hd]
          rw [List.map_cons, List.cons_append, accepts, Bool.and_eq_true, hsame, ih hn ht]
          constructor
          · rintro ⟨rfl, s, rfl, hs⟩
            exact ⟨s, rfl, hs⟩
          · rintro ⟨s, h, hs⟩
            obtain ⟨rfl, rfl⟩ := List.cons.inj h
            exact ⟨rfl, s, rfl, hs⟩

theorem accepts_anything (t : Text) : accepts [.anything] t = true := by
  rw [accepts, anyEnd_eq_true_iff]
  exact ⟨[], List.nil_suffix, rfl⟩

theorem accepts_at_start {n t : Text} (hn : IsFolded n) (ht : IsFolded t) :
    accepts (n.map Item.exactly ++ [.anything]) t = true ↔ n <+: t := by
  rw [accepts_append hn ht]
  constructor
  · rintro ⟨s, rfl, -⟩
    exact List.prefix_append n s
  · rintro ⟨s, rfl⟩
    exact ⟨s, rfl, accepts_anything s⟩

theorem accepts_exactly {n t : Text} (hn : IsFolded n) (ht : IsFolded t) :
    accepts (n.map Item.exactly) t = true ↔ t = n := by
  have h := accepts_append hn ht []
  rw [List.append_nil] at h
  rw [h]
  constructor
  · rintro ⟨s, rfl, hs⟩
    rw [List.isEmpty_iff.mp hs, List.append_nil]
  · rintro rfl
    exact ⟨[], (List.append_nil t).symm, rfl⟩

theorem IsFolded.of_suffix {s t : Text} (ht : IsFolded t) (h : s <:+ t) : IsFolded s :=
  fun c hc ↦ ht c (h.subset hc)

theorem accepts_anywhere {n t : Text} (hn : IsFolded n) (ht : IsFolded t) :
    accepts (.anything :: n.map Item.exactly ++ [.anything]) t = true ↔ n <:+: t := by
  rw [List.cons_append, accepts, anyEnd_eq_true_iff, List.infix_iff_prefix_suffix]
  constructor
  · rintro ⟨s, hs, h⟩
    exact ⟨s, (accepts_at_start hn (ht.of_suffix hs)).mp h, hs⟩
  · rintro ⟨s, h, hs⟩
    exact ⟨s, hs, (accepts_at_start hn (ht.of_suffix hs)).mpr h⟩

theorem accepts_at_end {n t : Text} (hn : IsFolded n) (ht : IsFolded t) :
    accepts (.anything :: n.map Item.exactly) t = true ↔ n <:+ t := by
  rw [accepts, anyEnd_eq_true_iff]
  constructor
  · rintro ⟨s, hs, h⟩
    rwa [← (accepts_exactly hn (ht.of_suffix hs)).mp h]
  · intro h
    exact ⟨n, h, (accepts_exactly hn hn).mpr rfl⟩

/-! ## Patterns made from needles -/

theorem items?_pattern {needle : Text} (h : '\x00' ∉ needle) (o : Operator) :
    items? (seen (Atom.pattern o needle)) =
      some ((if (Atom.wildcards o).1 then [.anything] else []) ++
        (seen (basicLower needle)).map Item.exactly ++
        if (Atom.wildcards o).2 then [.anything] else []) := by
  have hlower : '\x00' ∉ basicLower needle := fun hnul ↦ h (nul_mem_basicLower_iff.mp hnul)
  have hescaped : '\x00' ∉ escaped (basicLower needle) := fun hnul ↦
    (mem_escaped hnul).elim (by decide) hlower
  have hpattern : '\x00' ∉ Atom.pattern o needle := by
    rw [Atom.pattern, basicLower_escaped]
    split <;> split <;> simp [hescaped]
  have hpercent : seenChar '%' = '%' := by decide
  rw [seen_eq_map hpattern, seen_eq_map hlower, Atom.pattern, basicLower_escaped, List.map_append,
    List.map_append, map_seenChar_escaped]
  generalize (basicLower needle).map seenChar = n
  have hrest : ∀ wild : Bool,
      items? (escaped n ++ (if wild then ['%'] else []).map seenChar) =
        some (n.map Item.exactly ++ if wild then [.anything] else []) := by
    intro wild
    rw [items?_escaped_append]
    cases wild with
    | true => rw [if_pos rfl, List.map_singleton, hpercent]; rfl
    | false => rfl
  cases (Atom.wildcards o).1 with
  | true => simpa [hpercent, items?] using hrest (Atom.wildcards o).2
  | false => simpa using hrest (Atom.wildcards o).2

/-- A pattern matches where its needle is found, the case of basic letters apart. -/
theorem isLike_pattern_seen {needle : Text} (h : '\x00' ∉ needle) (o : Operator) (t : Text) :
    isLike (Atom.pattern o needle) (basicLower t) =
      o.finds (seen (basicLower needle)) (seen (basicLower t)) := by
  have hn := isFolded_seen (isFolded_basicLower needle)
  have hfolded := isFolded_seen (isFolded_basicLower t)
  have hanywhere := accepts_anywhere hn hfolded
  rw [isLike, items?_pattern h, Bool.eq_iff_iff]
  cases o with
  | startsWith =>
      have hstart := accepts_at_start hn hfolded
      simpa [Atom.wildcards, Operator.finds, hasPrefix_iff] using hstart
  | endsWith =>
      have hend := accepts_at_end hn hfolded
      simpa [Atom.wildcards, Operator.finds, hasSuffix_iff] using hend
  | equals | notEquals | greaterThan | greaterOrEqual | lessThan | lessOrEqual | contains =>
      simpa [Atom.wildcards, Operator.finds, hasInfix_iff] using hanywhere

/-- A basic needle is found before the first NUL character, whatever else is seen there. -/
theorem finds_seen {n : Text} (hn : IsBasic n) (o : Operator) (t : Text) :
    o.finds (seen n) (seen t) = o.finds n (untilNul t) := by
  rw [seen_of_isBasic hn, seen, Bool.eq_iff_iff]
  cases o with
  | startsWith =>
      simp only [Operator.finds, hasPrefix_iff, List.prefix_map_iff, eq_comm (a := n),
        map_seenChar_eq_iff hn, exists_eq_right]
  | endsWith =>
      simp only [Operator.finds, hasSuffix_iff, List.suffix_map_iff, eq_comm (a := n),
        map_seenChar_eq_iff hn, exists_eq_right]
  | equals | notEquals | greaterThan | greaterOrEqual | lessThan | lessOrEqual | contains =>
      simp only [Operator.finds, hasInfix_iff, List.infix_map_iff, eq_comm (a := n),
        map_seenChar_eq_iff hn, exists_eq_right]

theorem isLike_pattern {needle t : Text} (hneedle : IsBasic needle) (ht : IsBasic t)
    (o : Operator) :
    isLike (Atom.pattern o needle) (basicLower t) =
      o.finds (basicLower needle) (basicLower t) := by
  rw [isLike_pattern_seen hneedle.nul_notMem, seen_of_isBasic (isBasic_basicLower hneedle),
    seen_of_isBasic (isBasic_basicLower ht)]

end Pattern

end RecordQuery
