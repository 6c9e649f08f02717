import Mathlib.Data.List.Basic
import RecordQuery.Proofs.Text.Words

namespace RecordQuery

/-!
# Names in lower case

Lower case has no lower case but itself, and letters do not become blanks,
so that a name that was trimmed and put in lower case is left as it is when
this is done again.
-/

namespace Text

/-! ## The table -/

namespace CaseRun

/-- The characters of a run, of which every other one is passed over if the stride is two. -/
def Covers (r : CaseRun) (n : Nat) : Prop :=
  r.first ≤ n ∧ n ≤ r.last ∧ (n - r.first) % r.step = 0

/-- No target of a run is beyond this one. -/
def lastTarget (r : CaseRun) : Nat := r.target + (r.last - r.first)

/-- The targets of a run lie apart from another run, or in the gaps between its characters. -/
def misses (r other : CaseRun) : Bool :=
  r.lastTarget.blt other.first || other.last.blt r.target ||
    (other.step == 2 && (r.step == 2 || r.first == r.last) && (r.target + other.first) % 2 == 1)

theorem not_covers_of_misses {r other : CaseRun} (h : r.misses other = true) {n : Nat}
    (hn : r.Covers n) : ¬ other.Covers (r.target + (n - r.first)) := by
  obtain ⟨hfirst, hlast, hstep⟩ := hn
  rintro ⟨hfirst', hlast', hstep'⟩
  simp only [misses, lastTarget, Nat.blt_eq, Bool.or_eq_true, Bool.and_eq_true, beq_iff_eq] at h
  rcases h with (h | h) | ⟨⟨htwo, h | h⟩, hodd⟩
  · omega
  · omega
  · rw [h] at hstep
    rw [htwo] at hstep'
    omega
  · rw [htwo] at hstep'
    omega

end CaseRun

theorem mapCase_eq_self {rs : List CaseRun} {n : Nat} (h : ∀ r ∈ rs, ¬ r.Covers n) :
    mapCase rs n = n := by
  induction rs with
  | nil => rfl
  | cons r rs ih =>
      obtain ⟨hr, hrs⟩ := List.forall_mem_cons.mp h
      rw [mapCase, ih hrs]
      split
      · rfl
      · next hfirst =>
          split
          · next hlast =>
              exact if_neg fun hstep ↦ hr ⟨Nat.not_lt.mp hfirst, hlast, hstep⟩
          · rfl

/-- A character stays as it is, or goes to a target of a run. -/
theorem mapCase_eq_or_exists (rs : List CaseRun) (n : Nat) :
    mapCase rs n = n ∨ ∃ r ∈ rs, r.Covers n ∧ mapCase rs n = r.target + (n - r.first) := by
  induction rs with
  | nil => exact Or.inl rfl
  | cons r rs ih =>
      have hrest : mapCase rs n = n ∨
          ∃ q ∈ r :: rs, q.Covers n ∧ mapCase rs n = q.target + (n - q.first) :=
        ih.imp_right fun ⟨q, hq, h⟩ ↦ ⟨q, List.mem_cons_of_mem r hq, h⟩
      rw [mapCase]
      split
      · exact Or.inl rfl
      · next hfirst =>
          split
          · next hlast =>
              split
              · next hstep =>
                  exact Or.inr ⟨r, List.mem_cons_self, ⟨Nat.not_lt.mp hfirst, hlast, hstep⟩, rfl⟩
              · exact hrest
          · exact hrest

theorem misses_caseRuns : (caseRuns.all fun r ↦ caseRuns.all r.misses) = true := by
  decide +kernel

/-- The targets lie apart from the surrogates, the dotted capital I and the blanks. -/
theorem targets_caseRuns : ∀ r ∈ caseRuns,
    (r.lastTarget < 0xD800 ∨ 0xDFFF < r.target ∧ r.lastTarget < 0x110000) ∧
      (r.lastTarget < dottedCapitalI.toNat ∨ dottedCapitalI.toNat < r.target) ∧
      ∀ b ∈ blankRanges, r.lastTarget < b.1 ∨ b.2 < r.target := by
  decide +kernel

/-- A number is mapped to a target that is mapped to itself, if it is not mapped to itself. -/
theorem mapCase_caseRuns (n : Nat) :
    mapCase caseRuns n = n ∨ ∃ r ∈ caseRuns, r.target ≤ mapCase caseRuns n ∧
      mapCase caseRuns n ≤ r.lastTarget ∧
      mapCase caseRuns (mapCase caseRuns n) = mapCase caseRuns n := by
  rcases mapCase_eq_or_exists caseRuns n with h | ⟨r, hr, hcovers, h⟩
  · exact Or.inl h
  · refine Or.inr ⟨r, hr, ?_, ?_, ?_⟩
    · rw [h]
      exact Nat.le_add_right _ _
    · rw [h, CaseRun.lastTarget]
      exact Nat.add_le_add_left (Nat.sub_le_sub_right hcovers.2.1 _) _
    · have hmisses := List.all_eq_true.mp misses_caseRuns r hr
      refine mapCase_eq_self fun q hq ↦ ?_
      rw [h]
      exact CaseRun.not_covers_of_misses (List.all_eq_true.mp hmisses q hq) hcovers

/-! ## Characters -/

theorem toNat_ofNat {n : Nat} (h : n < 0xD800 ∨ 0xDFFF < n ∧ n < 0x110000) :
    (Char.ofNat n).toNat = n := by
  rw [Char.ofNat, dif_pos h]
  rfl

/-- The characters that are their own lower case. -/
structure IsLowerCase (c : Char) : Prop where
  ne_sigma : c ≠ capitalSigma
  ne_dottedI : c ≠ dottedCapitalI
  lowerChar_eq : lowerChar c = c

theorem within_eq_false {rs : Ranges} {n : Nat} (h : ∀ b ∈ rs, n < b.1 ∨ b.2 < n) :
    rs.within n = false := by
  induction rs with
  | nil => rfl
  | cons b rs ih =>
      obtain ⟨hb, hrs⟩ := List.forall_mem_cons.mp h
      rw [Ranges.within, ih hrs]
      split
      · rfl
      · next hfirst => rw [if_neg (Nat.not_le.mpr (hb.resolve_left hfirst))]

/-- A character that the table changes becomes one that it does not change, and no blank. -/
theorem lowerChar_eq_self_or (c : Char) :
    lowerChar c = c ∨ IsLowerCase (lowerChar c) ∧ isBlank (lowerChar c) = false := by
  rcases mapCase_caseRuns c.toNat with h | ⟨r, hr, hge, hle, hfixed⟩
  · exact Or.inl (by rw [lowerChar, h, Char.ofNat_toNat])
  · obtain ⟨hvalid, hdotted, hblank⟩ := targets_caseRuns r hr
    rw [lowerChar]
    generalize mapCase caseRuns c.toNat = n at hge hle hfixed
    have htoNat : (Char.ofNat n).toNat = n := toNat_ofNat (by omega)
    refine Or.inr ⟨⟨?_, ?_, ?_⟩, ?_⟩
    · intro hsigma
      rw [hsigma] at htoNat
      rw [← htoNat] at hfixed
      exact absurd hfixed (by decide)
    · intro hdot
      rw [hdot] at htoNat
      omega
    · rw [lowerChar, htoNat, hfixed]
    · rw [isBlank, Ranges.holds, htoNat]
      refine within_eq_false fun b hb ↦ ?_
      have hb := hblank b hb
      omega

theorem isLowerCase_lowerChar {c : Char} (h : c ≠ dottedCapitalI) : IsLowerCase (lowerChar c) := by
  rcases lowerChar_eq_self_or c with hself | hlower
  · refine ⟨?_, by rwa [hself], by rw [hself, hself]⟩
    rw [hself]
    rintro rfl
    exact absurd hself (by decide)
  · exact hlower.1

theorem isBlank_lowerChar {c : Char} (h : isBlank c = false) : isBlank (lowerChar c) = false := by
  rcases lowerChar_eq_self_or c with hself | hlower
  · rwa [hself]
  · exact hlower.2

/-! ## Texts -/

theorem isLowerCase_sigma {c : Char} (h : c = 'ς' ∨ c = 'σ') : IsLowerCase c := by
  rcases h with rfl | rfl <;> exact ⟨by decide, by decide, by decide⟩

/-- One character gives characters in lower case, whatever stands around it. -/
theorem lowerAfter_cons (cased : Bool) (c : Char) (cs : Text) :
    ∃ here cased', lowerAfter cased (c :: cs) = here ++ lowerAfter cased' cs ∧ here ≠ [] ∧
      ∀ d ∈ here, IsLowerCase d ∧ (isBlank c = false → isBlank d = false) := by
  refine ⟨_, _, rfl, ?_, ?_⟩
  · split
    · exact List.cons_ne_nil _ _
    · split <;> exact List.cons_ne_nil _ _
  · split
    · rw [List.forall_mem_singleton]
      split
      · exact ⟨isLowerCase_sigma (.inl rfl), fun _ ↦ by decide⟩
      · exact ⟨isLowerCase_sigma (.inr rfl), fun _ ↦ by decide⟩
    · split
      · rw [List.forall_mem_cons, List.forall_mem_singleton]
        exact ⟨⟨⟨by decide, by decide, by decide⟩, fun _ ↦ by decide⟩,
          ⟨by decide, by decide, by decide⟩, fun _ ↦ by decide⟩
      · next hdotted =>
          rw [List.forall_mem_singleton]
          exact ⟨isLowerCase_lowerChar hdotted, isBlank_lowerChar⟩

theorem isLowerCase_of_mem_lowerAfter {cased : Bool} {t : Text} {d : Char}
    (hd : d ∈ lowerAfter cased t) : IsLowerCase d := by
  induction t generalizing cased with
  | nil => cases hd
  | cons c t ih =>
      obtain ⟨here, cased', heq, -, hhere⟩ := lowerAfter_cons cased c t
      rw [heq, List.mem_append] at hd
      rcases hd with hd | hd
      · exact (hhere d hd).1
      · exact ih hd

theorem lowerAfter_of_isLowerCase {t : Text} (h : ∀ c ∈ t, IsLowerCase c) (cased : Bool) :
    lowerAfter cased t = t := by
  induction t generalizing cased with
  | nil => rfl
  | cons c t ih =>
      obtain ⟨hc, ht⟩ := List.forall_mem_cons.mp h
      rw [lowerAfter, if_neg hc.ne_sigma, if_neg hc.ne_dottedI, hc.lowerChar_eq, ih ht,
        List.singleton_append]

theorem lower_lower (t : Text) : lower (lower t) = lower t :=
  lowerAfter_of_isLowerCase (fun _ hc ↦ isLowerCase_of_mem_lowerAfter hc) false

/-! ## Trimming -/

/-- A text that neither begins nor ends with a blank. -/
structure IsTrimmed (t : Text) : Prop where
  head : ∀ c ∈ t.head?, isBlank c = false
  last : ∀ c ∈ t.getLast?, isBlank c = false

theorem dropWhile_of_head {t : Text} (h : ∀ c ∈ t.head?, isBlank c = false) :
    t.dropWhile isBlank = t := by
  cases t with
  | nil => rfl
  | cons c t => rw [List.dropWhile_cons, h c rfl, if_neg Bool.false_ne_true]

theorem isBlank_head_dropWhile (t : Text) :
    ∀ c ∈ (t.dropWhile isBlank).head?, isBlank c = false := by
  intro c hc
  have h := List.head?_dropWhile_not isBlank t
  rw [Option.mem_def.mp hc] at h
  simpa using h

theorem IsTrimmed.trim_eq {t : Text} (h : IsTrimmed t) : trim t = t := by
  rw [trim, stripBoth, stripLeft, stripRight, dropWhile_of_head h.head, dropWhile_of_head,
    List.reverse_reverse]
  rw [List.head?_reverse]
  exact h.last

theorem isTrimmed_trim (t : Text) : IsTrimmed (trim t) := by
  have hprefix : trim t <+: stripLeft isBlank t := by
    rw [trim, stripBoth, stripRight, ← List.reverse_suffix, List.reverse_reverse]
    exact List.dropWhile_suffix isBlank
  constructor
  · intro c hc
    obtain ⟨rest, hrest⟩ := hprefix
    apply isBlank_head_dropWhile t
    rw [← stripLeft, ← hrest, List.head?_append, Option.mem_def.mp hc]
    rfl
  · rw [trim, stripBoth, stripRight, List.getLast?_reverse]
    exact isBlank_head_dropWhile _

theorem isTrimmed_lowerAfter {t : Text} (h : IsTrimmed t) (cased : Bool) :
    IsTrimmed (lowerAfter cased t) := by
  constructor
  · cases t with
    | nil => exact nofun
    | cons c t =>
        obtain ⟨here, cased', heq, hne, hhere⟩ := lowerAfter_cons cased c t
        obtain ⟨d, here, rfl⟩ := List.exists_cons_of_ne_nil hne
        rw [heq]
        rintro _ ⟨⟩
        exact (hhere d List.mem_cons_self).2 (h.head c rfl)
  · replace h := h.last
    induction t generalizing cased with
    | nil => exact nofun
    | cons c t ih =>
        obtain ⟨here, cased', heq, hne, hhere⟩ := lowerAfter_cons cased c t
        rw [heq, List.getLast?_append]
        cases t with
        | nil =>
            intro d hd
            exact (hhere d (List.mem_of_getLast? hd)).2 (h c rfl)
        | cons b t =>
            have hrest := ih cased' (List.getLast?_cons_cons ▸ h)
            cases hlast : (lowerAfter cased' (b :: t)).getLast? with
            | none =>
                have hnil := List.getLast?_eq_none_iff.mp hlast
                exact absurd hnil (lowerAfter_ne_nil (List.cons_ne_nil b t))
            | some d =>
                rintro _ ⟨⟩
                exact hrest d hlast

end Text

theorem normalName_normalName (t : Text) : normalName (normalName t) = normalName t := by
  have htrimmed : Text.IsTrimmed (normalName t) :=
    Text.isTrimmed_lowerAfter (Text.isTrimmed_trim t) false
  rw [normalName, htrimmed.trim_eq, normalName, Text.lower_lower]

end RecordQuery
