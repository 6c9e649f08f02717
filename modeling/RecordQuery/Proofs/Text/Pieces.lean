import Mathlib.Data.List.Basic
import RecordQuery.Text.Basic

namespace RecordQuery.Text

/-!
# Cutting what was joined

Pieces without the separator are cut where they were joined, and values
between single bars end at the first double bar.
-/

section Separator

variable {sep : Char}

/-- Two texts with a separator between them are cut apart from each other. -/
theorem splitOn_append_cons (s t : Text) :
    splitOn sep (s ++ sep :: t) = splitOn sep s ++ splitOn sep t := by
  induction s with
  | nil => simp [splitOn]
  | cons c s ih =>
      by_cases hc : c = sep
      · simp [splitOn, hc, ih]
      · cases hs : splitOn sep s with
        | nil => exact absurd hs (splitOn_ne_nil sep s)
        | cons p ps => simp [splitOn, hc, ih, hs]

theorem exists_splitOn_cons {c : Char} (hc : c ≠ sep) (t : Text) :
    ∃ p, splitOn sep (c :: t) = (c :: p) :: (splitOn sep t).tail := by
  cases ht : splitOn sep t with
  | nil => exact absurd ht (splitOn_ne_nil sep t)
  | cons p ps => exact ⟨p, by simp [splitOn, hc, ht]⟩

theorem splitOn_of_notMem {p : Text} (h : sep ∉ p) : splitOn sep p = [p] := by
  induction p with
  | nil => rfl
  | cons c p ih =>
      rw [List.mem_cons, not_or] at h
      simp [splitOn, Ne.symm h.1, ih h.2]

theorem joinWith_cons {glue p : Text} {ps : List Text} (h : ps ≠ []) :
    joinWith glue (p :: ps) = p ++ glue ++ joinWith glue ps := by
  cases ps with
  | nil => exact absurd rfl h
  | cons q ps => rfl

theorem subset_joinWith {sep p : Text} {ps : List Text} (h : p ∈ ps) : p ⊆ joinWith sep ps := by
  induction ps with
  | nil => cases h
  | cons q ps ih =>
      by_cases hps : ps = []
      · subst hps
        rw [List.mem_singleton.mp h]
        exact List.Subset.refl q
      · rw [joinWith_cons hps]
        rcases List.mem_cons.mp h with rfl | h
        · exact fun c hc ↦ List.mem_append_left _ (List.mem_append_left _ hc)
        · exact fun c hc ↦ List.mem_append_right _ (ih h hc)

theorem subset_of_mem_splitOn {p t : Text} (h : p ∈ splitOn sep t) : p ⊆ t := by
  have hsubset : p ⊆ joinWith [sep] (splitOn sep t) := subset_joinWith h
  rwa [joinWith_splitOn] at hsubset

theorem notMem_joinWith {c : Char} {sep : Text} {ps : List Text} (hsep : c ∉ sep)
    (h : ∀ p ∈ ps, c ∉ p) : c ∉ joinWith sep ps := by
  induction ps with
  | nil => exact List.not_mem_nil
  | cons p ps ih =>
      have hp := h p List.mem_cons_self
      by_cases hps : ps = []
      · subst hps
        exact hp
      · have hrest := ih fun q hq ↦ h q (List.mem_cons_of_mem p hq)
        simp [joinWith_cons hps, hp, hsep, hrest]

theorem splitOn_joinWith {ps : List Text} (hne : ps ≠ []) (h : ∀ p ∈ ps, sep ∉ p) :
    splitOn sep (joinWith [sep] ps) = ps := by
  induction ps with
  | nil => exact absurd rfl hne
  | cons p ps ih =>
      have hp := splitOn_of_notMem (h p List.mem_cons_self)
      by_cases hps : ps = []
      · subst hps
        exact hp
      · rw [joinWith_cons hps, List.append_assoc, List.singleton_append, splitOn_append_cons, hp,
          ih hps fun q hq ↦ h q (List.mem_cons_of_mem p hq), List.singleton_append]

end Separator

/-! ## Double bars -/

theorem cutAtBars_cons {c : Char} {t : Text} (h : c ≠ '|' ∨ t.head? ≠ some '|') :
    cutAtBars (c :: t) = (cutAtBars t).map fun (before, after) ↦ (c :: before, after) := by
  rw [cutAtBars]
  rintro rest rfl rfl
  simp at h

theorem cutAtBars_cons_eq_none_iff {c : Char} {t : Text} : cutAtBars (c :: t) = none ↔
    (c ≠ '|' ∨ t.head? ≠ some '|') ∧ cutAtBars t = none := by
  by_cases h : c ≠ '|' ∨ t.head? ≠ some '|'
  · rw [cutAtBars_cons h, Option.map_eq_none_iff, and_iff_right h]
  · refine iff_of_false ?_ fun hnone ↦ h hnone.1
    rw [not_or, not_not, not_not, List.head?_eq_some_iff] at h
    obtain ⟨rfl, rest, rfl⟩ := h
    exact nofun

theorem eq_of_cutAtBars_eq {t before after : Text} (h : cutAtBars t = some (before, after)) :
    t = before ++ '|' :: '|' :: after := by
  fun_induction cutAtBars t generalizing before with
  | case1 => cases h
  | case2 rest =>
      cases h
      rfl
  | case3 c rest _ ih =>
      obtain ⟨⟨start, _⟩, hrest, hcut⟩ := Option.map_eq_some_iff.mp h
      cases hcut
      rw [ih hrest, List.cons_append]

/-- The first double bar stays the first one, whatever comes behind it. -/
theorem cutAtBars_append_of_eq_some {s before after : Text}
    (h : cutAtBars s = some (before, after)) (t : Text) :
    cutAtBars (s ++ t) = some (before, after ++ t) := by
  fun_induction cutAtBars s generalizing before with
  | case1 => cases h
  | case2 rest =>
      cases h
      rfl
  | case3 c rest hbars ih =>
      obtain ⟨⟨start, _⟩, hrest, hcut⟩ := Option.map_eq_some_iff.mp h
      cases hcut
      cases rest with
      | nil => cases hrest
      | cons d rest =>
          have hhead : c ≠ '|' ∨ (d :: rest ++ t).head? ≠ some '|' := by
            by_cases hc : c = '|'
            · refine Or.inr fun hd ↦ hbars rest hc ?_
              rw [Option.some.inj hd]
            · exact Or.inl hc
          rw [List.cons_append, cutAtBars_cons hhead, ih hrest]
          rfl

/-- A text ends at the double bar behind it, unless there is one in it or its last sign and one
bar make one. -/
theorem cutAtBars_append_of_eq_none {s : Text} (h : cutAtBars (s ++ ['|']) = none) (t : Text) :
    cutAtBars (s ++ '|' :: '|' :: t) = some (s, t) := by
  induction s with
  | nil => rfl
  | cons c s ih =>
      obtain ⟨hhead, hrest⟩ := cutAtBars_cons_eq_none_iff.mp h
      have hsame : (s ++ '|' :: '|' :: t).head? = (s ++ ['|']).head? := by cases s <;> rfl
      rw [List.cons_append, cutAtBars_cons (hsame ▸ hhead), ih hrest]
      rfl

/-- A double bar is the first one if there is none before it, and no bar right before it. -/
theorem cutAtBars_eq_some_iff {t before after : Text} : cutAtBars t = some (before, after) ↔
    t = before ++ '|' :: '|' :: after ∧ cutAtBars (before ++ ['|']) = none := by
  constructor
  · intro h
    refine ⟨eq_of_cutAtBars_eq h, ?_⟩
    fun_induction cutAtBars t generalizing before with
    | case1 => cases h
    | case2 rest =>
        cases h
        rfl
    | case3 c rest hbars ih =>
        obtain ⟨⟨start, _⟩, hrest, hcut⟩ := Option.map_eq_some_iff.mp h
        cases hcut
        refine cutAtBars_cons_eq_none_iff.mpr ⟨?_, ih hrest⟩
        rw [← not_and_or]
        rintro ⟨hc, hhead⟩
        cases start with
        | nil => exact hbars _ hc (eq_of_cutAtBars_eq hrest)
        | cons d start =>
            obtain rfl : d = '|' := Option.some.inj hhead
            exact hbars _ hc (eq_of_cutAtBars_eq hrest)
  · rintro ⟨rfl, h⟩
    exact cutAtBars_append_of_eq_none h after

/-- Values between single bars are not empty, the first one excepted. -/
theorem ne_nil_of_mem_tail_splitOn {t : Text} (h : cutAtBars (t ++ ['|']) = none) :
    ∀ p ∈ (splitOn '|' t).tail, p ≠ [] := by
  induction t with
  | nil => exact nofun
  | cons c t ih =>
      obtain ⟨hhead, hrest⟩ := cutAtBars_cons_eq_none_iff.mp h
      by_cases hc : c = '|'
      · -- the bar is a single one, so that the value behind it has a first character
        cases t with
        | nil => exact absurd rfl (hhead.resolve_left (not_not.mpr hc))
        | cons d t =>
            have hd : d ≠ '|' := fun hd ↦ hhead.resolve_left (not_not.mpr hc) (congrArg some hd)
            obtain ⟨p, hp⟩ := exists_splitOn_cons hd t
            have hpieces := ih hrest
            rw [hp, List.tail_cons] at hpieces
            rw [splitOn, if_pos hc, List.tail_cons, hp, List.forall_mem_cons]
            exact ⟨List.cons_ne_nil d p, hpieces⟩
      · obtain ⟨p, hp⟩ := exists_splitOn_cons hc t
        rw [hp, List.tail_cons]
        exact ih hrest

/-- A text without bars is part of what stands before the first double bar. -/
theorem cutAtBars_append {s : Text} (hs : '|' ∉ s) (t : Text) :
    cutAtBars (s ++ t) = (cutAtBars t).map fun (before, after) ↦ (s ++ before, after) := by
  induction s with
  | nil => simp
  | cons c s ih =>
      rw [List.mem_cons, not_or] at hs
      rw [List.cons_append, cutAtBars_cons (.inl (Ne.symm hs.1)), ih hs.2]
      simp [Function.comp_def]

theorem cutAtBars_append_bars {s : Text} (hs : '|' ∉ s) (t : Text) :
    cutAtBars (s ++ '|' :: '|' :: t) = some (s, t) := by
  rw [cutAtBars_append hs]
  simp [cutAtBars]

/-- Values with single bars between them have no double bar in them. -/
theorem cutAtBars_joinWith {ps : List Text} (hne : ps ≠ []) (hnil : ∀ p ∈ ps.tail, p ≠ [])
    (hbar : ∀ p ∈ ps, '|' ∉ p) (t : Text) :
    cutAtBars (joinWith ['|'] ps ++ '|' :: '|' :: t) = some (joinWith ['|'] ps, t) := by
  induction ps with
  | nil => exact absurd rfl hne
  | cons p ps ih =>
      have hp := hbar p List.mem_cons_self
      cases ps with
      | nil => exact cutAtBars_append_bars hp t
      | cons q ps =>
          have hq : q ≠ [] := hnil q List.mem_cons_self
          have ihq := ih (by simp) (fun r hr ↦ hnil r (List.mem_cons_of_mem q hr))
            fun r hr ↦ hbar r (List.mem_cons_of_mem p hr)
          -- the bar before the next value stands alone, because that value has a first character
          have hhead : (joinWith ['|'] (q :: ps) ++ '|' :: '|' :: t).head? ≠ some '|' := by
            cases q with
            | nil => exact absurd rfl hq
            | cons d q =>
                have hd : '|' ≠ d ∧ '|' ∉ q := by simpa using hbar (d :: q) (by simp)
                cases ps <;> simp [joinWith, Ne.symm hd.1]
          rw [joinWith_cons (by simp), List.append_assoc, List.append_assoc, cutAtBars_append hp,
            List.singleton_append, cutAtBars_cons (.inr hhead), ihq]
          simp

/-! ## Undivided texts -/

/-- A text without the signs that divide a query string into arguments and these into values. -/
def IsUndivided (t : Text) : Prop := ∀ c ∈ t, c ≠ '&' ∧ c ≠ '|'

namespace IsUndivided

variable {t : Text}

theorem ampersand_notMem (h : IsUndivided t) : '&' ∉ t := fun hc ↦ (h _ hc).1 rfl

theorem bar_notMem (h : IsUndivided t) : '|' ∉ t := fun hc ↦ (h _ hc).2 rfl

end IsUndivided

instance (t : Text) : Decidable (IsUndivided t) := List.decidableBAll _ t

/-! ## Trimming -/

theorem dropWhile_of_forall {p : Char → Bool} {t : Text} (h : ∀ c ∈ t, p c = false) :
    t.dropWhile p = t := by
  cases t with
  | nil => rfl
  | cons c t => simp [h c List.mem_cons_self]

theorem stripBoth_of_forall {p : Char → Bool} {t : Text} (h : ∀ c ∈ t, p c = false) :
    stripBoth p t = t := by
  rw [stripBoth, stripLeft, stripRight, dropWhile_of_forall h, dropWhile_of_forall,
    List.reverse_reverse]
  intro c hc
  exact h c (List.mem_reverse.mp hc)

theorem trim_of_forall {t : Text} (h : ∀ c ∈ t, isBlank c = false) : trim t = t :=
  stripBoth_of_forall h

/-- Blanks around a text without blanks do not count. -/
theorem trim_append_append {before t after : Text} (hbefore : ∀ c ∈ before, isBlank c = true)
    (ht : ∀ c ∈ t, isBlank c = false) (hafter : ∀ c ∈ after, isBlank c = true) :
    trim (before ++ t ++ after) = t := by
  have hreverse : ∀ {p : Char → Prop} {s : Text}, (∀ c ∈ s, p c) → ∀ c ∈ s.reverse, p c :=
    fun h c hc ↦ h c (List.mem_reverse.mp hc)
  have hleft : stripLeft isBlank (before ++ t ++ after) = stripLeft isBlank (t ++ after) := by
    rw [stripLeft, List.append_assoc, List.dropWhile_append_of_pos hbefore, stripLeft]
  have hright : stripRight isBlank (t ++ after) = t := by
    rw [stripRight, List.reverse_append, List.dropWhile_append_of_pos (hreverse hafter),
      dropWhile_of_forall (hreverse ht), List.reverse_reverse]
  rw [trim, stripBoth, hleft]
  cases t with
  | nil =>
      have hblank : (after ++ []).dropWhile isBlank = [] := List.dropWhile_append_of_pos hafter
      rw [List.append_nil] at hblank
      rw [List.nil_append, stripLeft, hblank]
      rfl
  | cons c t =>
      rw [List.cons_append, stripLeft_of_head (ht c List.mem_cons_self), ← List.cons_append, hright]

end RecordQuery.Text
