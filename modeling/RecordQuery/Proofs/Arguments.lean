import Mathlib.Data.List.TakeWhile
import RecordQuery.Arguments
import RecordQuery.Proofs.Text.Words

namespace RecordQuery

/-!
# Arguments of joined queries

What a query string that was put together from segments says is what its
segments say one after the other, and the last argument under a key is the
one that counts.
-/

namespace Text

theorem stripLeft_append_cons {p : Char → Bool} {c : Char} (hc : p c = false) (s t : Text) :
    stripLeft p (s ++ c :: t) = stripLeft p s ++ c :: t := by
  induction s with
  | nil => simp [stripLeft, hc]
  | cons d s ih =>
      cases hd : p d with
      | true => simpa [stripLeft, hd] using ih
      | false => simp [stripLeft, hd]

/-- Only the first of some joined pieces has a beginning that can be stripped. -/
theorem stripLeft_joinWith {p : Char → Bool} {sep : Char} (hsep : p sep = false)
    (ps : List Text) :
    stripLeft p (joinWith [sep] ps) = joinWith [sep] (ps.modifyHead (stripLeft p)) := by
  cases ps with
  | nil => rfl
  | cons q ps =>
      by_cases hps : ps = []
      · subst hps
        rfl
      · rw [List.modifyHead_cons, joinWith_cons hps, joinWith_cons hps, List.append_assoc,
          List.append_assoc, List.singleton_append, stripLeft_append_cons hsep]

theorem percentDecode_joinWith (ps : List Text) :
    percentDecode (joinWith ['&'] ps) = joinWith ['&'] (ps.map percentDecode) := by
  induction ps with
  | nil => rfl
  | cons p ps ih =>
      by_cases hps : ps = []
      · subst hps
        rfl
      · rw [List.map_cons, joinWith_cons hps, joinWith_cons (by simpa using hps), List.append_assoc,
          List.append_assoc, List.singleton_append, List.singleton_append,
          percentDecode_append_ampersand, ih]

theorem notMem_stripLeft {p : Char → Bool} {c : Char} {t : Text} (h : c ∉ t) :
    c ∉ stripLeft p t := fun hc ↦ h ((List.dropWhile_sublist p).mem hc)

end Text

namespace Keyed

variable {α : Type}

theorem mem_of_get?_eq {key : Text} {a : α} {l : Keyed α} (h : l.get? key = some a) :
    (key, a) ∈ l := by
  induction l with
  | nil => cases h
  | cons p rest ih =>
      obtain ⟨k, b⟩ := p
      by_cases hk : k = key
      · simp_all [get?]
      · rw [get?, if_neg hk] at h
        exact List.mem_cons_of_mem _ (ih h)

theorem get?_putAll_of_notMem {key : Text} {entries : List (Text × α)}
    (h : key ∉ entries.map Prod.fst) (l : Keyed α) :
    get? key (putAll l entries) = get? key l := by
  induction entries generalizing l with
  | nil => rfl
  | cons e rest ih =>
      rw [List.map_cons, List.mem_cons, not_or] at h
      rw [putAll_cons, ih h.2, get?_put_ne h.1]

theorem get?_putAll_of_mem {key : Text} {a : α} {entries : List (Text × α)}
    (hnodup : (entries.map Prod.fst).Nodup) (h : (key, a) ∈ entries) (l : Keyed α) :
    get? key (putAll l entries) = some a := by
  induction entries generalizing l with
  | nil => cases h
  | cons e rest ih =>
      obtain ⟨hnotMem, hnodup⟩ := List.nodup_cons.mp hnodup
      rcases List.mem_cons.mp h with rfl | h
      · rw [putAll_cons, get?_putAll_of_notMem hnotMem, get?_put_self]
      · rw [putAll_cons, ih hnodup h]

theorem put_of_notMem {key : Text} {l : Keyed α} (h : key ∉ l.keys) (a : α) :
    put key a l = l ++ [(key, a)] := by
  induction l with
  | nil => rfl
  | cons p rest ih =>
      rw [keys, List.map_cons, List.mem_cons, not_or] at h
      simp [put, Ne.symm h.1, ih h.2]

/-- Entries with keys of their own are put behind what is there. -/
theorem putAll_of_nodup {l : Keyed α} {entries : List (Text × α)}
    (h : (keys l ++ entries.map Prod.fst).Nodup) : putAll l entries = l ++ entries := by
  induction entries generalizing l with
  | nil => simp
  | cons e rest ih =>
      have hkey : e.1 ∉ keys l := fun he ↦
        (List.nodup_append.mp h).2.2 e.1 he e.1 List.mem_cons_self rfl
      rw [putAll_cons, put_of_notMem hkey, ih, List.append_assoc, List.singleton_append]
      simpa [keys] using h

theorem get?_eq_none_of_notMem {key : Text} {l : Keyed α} (h : key ∉ l.keys) :
    get? key l = none := by
  induction l with
  | nil => rfl
  | cons p l ih =>
      rw [keys, List.map_cons, List.mem_cons, not_or] at h
      rw [get?, if_neg (Ne.symm h.1), ih h.2]

theorem get?_eq_some_of_mem {l : Keyed α} (hnodup : l.keys.Nodup) {key : Text}
    {a : α} (h : (key, a) ∈ l) : get? key l = some a := by
  have hput := putAll_of_nodup (l := []) (by simpa [keys] using hnodup)
  have hget := get?_putAll_of_mem hnodup h []
  rwa [hput] at hget

theorem get?_eq_some_iff {l : Keyed α} (hnodup : l.keys.Nodup) {key : Text} {a : α} :
    get? key l = some a ↔ (key, a) ∈ l :=
  ⟨mem_of_get?_eq, get?_eq_some_of_mem hnodup⟩

/-- What is found under a key does not depend on the order of the entries. -/
theorem get?_eq_of_perm {l m : Keyed α} (hnodup : l.keys.Nodup) (h : l.Perm m) (key : Text) :
    get? key m = get? key l := by
  have hnodup' : m.keys.Nodup := (h.map Prod.fst).nodup_iff.mp hnodup
  ext a
  rw [get?_eq_some_iff hnodup', get?_eq_some_iff hnodup, h.mem_iff]

/-! ### Some of the keys -/

section

variable {p : Text → Bool} {key : Text}

theorem filter_put_of_neg (h : p key = false) (a : α) (l : Keyed α) :
    (put key a l).filter (fun e ↦ p e.1) = l.filter fun e ↦ p e.1 := by
  induction l with
  | nil => simp [put, h]
  | cons e rest ih =>
      obtain ⟨k, b⟩ := e
      by_cases hk : k = key
      · subst hk
        simp [put, h]
      · simp only [put, if_neg hk, List.filter_cons, ih]

theorem filter_put_of_pos (h : p key = true) (a : α) (l : Keyed α) :
    (put key a l).filter (fun e ↦ p e.1) = put key a (l.filter fun e ↦ p e.1) := by
  induction l with
  | nil => simp [put, h]
  | cons e rest ih =>
      obtain ⟨k, b⟩ := e
      by_cases hk : k = key
      · subst hk
        simp [put, h]
      · cases hp : p k with
        | true => simp [put, hk, hp, ih]
        | false => simp [put, hk, hp, ih]

/-- What is put under some of the keys does not depend on what is put under the others. -/
theorem filter_putAll (l : Keyed α) (entries : List (Text × α)) :
    (putAll l entries).filter (fun e ↦ p e.1) =
      putAll (l.filter fun e ↦ p e.1) (entries.filter fun e ↦ p e.1) := by
  induction entries generalizing l with
  | nil => rfl
  | cons e entries ih =>
      obtain ⟨k, a⟩ := e
      cases hp : p k with
      | true => simp [hp, ih, filter_put_of_pos hp]
      | false => simp [hp, ih, filter_put_of_neg hp]

theorem filter_key_eq {l : Keyed α} (hnodup : l.keys.Nodup) {a : α}
    (h : (key, a) ∈ l) : l.filter (fun e ↦ e.1 = key) = [(key, a)] := by
  induction l with
  | nil => cases h
  | cons e l ih =>
      obtain ⟨hnotMem, hnodup⟩ := List.nodup_cons.mp hnodup
      rcases List.mem_cons.mp h with rfl | h
      · have hnone : l.filter (fun e ↦ e.1 = key) = [] := by
          rw [List.filter_eq_nil_iff]
          intro e he heq
          exact hnotMem (List.mem_map.mpr ⟨e, he, by simpa using heq⟩)
        rw [List.filter_cons, hnone]
        simp
      · have hne : e.1 ≠ key := by
          rintro rfl
          exact hnotMem (List.mem_map.mpr ⟨_, h, rfl⟩)
        rw [List.filter_cons, ih hnodup h]
        simp [hne]

end

end Keyed

namespace Arguments

theorem segment?_of_isWord {key : Text} (hkey : key.IsWord) (value : Text) :
    segment? (key ++ '=' :: value) = if value = [] then none else some (key, value) := by
  have heq : Text.isWordChar '=' = false := by decide +kernel
  have htake : (key ++ '=' :: value).takeWhile Text.isWordChar = key := by
    rw [List.takeWhile_append_of_pos hkey.isWordChar]
    simp [heq]
  have hdrop : (key ++ '=' :: value).dropWhile Text.isWordChar = '=' :: value := by
    rw [List.dropWhile_append_of_pos hkey.isWordChar]
    simp [heq]
  rw [segment?, htake, hdrop]
  cases key with
  | nil => exact absurd rfl hkey.ne_nil
  | cons k key =>
      cases value with
      | nil => rfl
      | cons c value => rfl

theorem segment?_eq {key value : Text} (hkey : key.IsWord) (hvalue : value ≠ []) :
    segment? (key ++ '=' :: value) = some (key, value) :=
  (segment?_of_isWord hkey value).trans (if_neg hvalue)

theorem isWord_of_segment?_eq {t key value : Text} (h : segment? t = some (key, value)) :
    key.IsWord ∧ t = key ++ '=' :: value := by
  have hdivided : t.takeWhile Text.isWordChar ++ t.dropWhile Text.isWordChar = t :=
    List.takeWhile_append_dropWhile
  have hword : ∀ c ∈ t.takeWhile Text.isWordChar, Text.isWordChar c = true :=
    fun c hc ↦ List.mem_takeWhile_imp hc
  unfold segment? at h
  generalize t.takeWhile Text.isWordChar = name, t.dropWhile Text.isWordChar = rest
    at h hdivided hword
  split at h
  · cases h
  · next key c value hkey =>
      cases h
      exact ⟨⟨hkey, hword⟩, hdivided.symm⟩
  · cases h

theorem entries_append_cons (s t : Text) : entries (s ++ '&' :: t) = entries s ++ entries t := by
  rw [entries, Text.splitOn_append_cons, List.filterMap_append, entries, entries]

theorem entries_joinWith {ps : List Text} (h : ps ≠ []) :
    entries (Text.joinWith ['&'] ps) = ps.flatMap entries := by
  induction ps with
  | nil => exact absurd rfl h
  | cons p ps ih =>
      by_cases hps : ps = []
      · subst hps
        simp
      · rw [Text.joinWith_cons hps, List.append_assoc, List.singleton_append, List.flatMap_cons,
          entries_append_cons, ih hps]

theorem entries_of_notMem {t : Text} (h : '&' ∉ t) : entries t = (segment? t).toList := by
  rw [entries, Text.splitOn_of_notMem h]
  cases hs : segment? t <;> simp [hs]

theorem entries_word {key value : Text} (hkey : key.IsWord) (hvalue : value ≠ [])
    (hampersand : '&' ∉ value) : entries (key ++ '=' :: value) = [(key, value)] := by
  have hword : '&' ∉ key := hkey.isUndivided.ampersand_notMem
  rw [entries_of_notMem (by simp [hword, hampersand]), segment?_eq hkey hvalue]
  rfl

/-- Each segment of a query gives its own arguments; the question marks before the first
segment are left out. -/
theorem ofQuery_joinWith {ps : List Text} (h : ps ≠ []) :
    ofQuery (Text.joinWith ['&'] ps) =
      Keyed.putAll []
        (((ps.map Text.percentDecode).modifyHead (Text.stripLeft (· = '?'))).flatMap entries) := by
  have hne : (ps.map Text.percentDecode).modifyHead (Text.stripLeft (· = '?')) ≠ [] := by
    cases ps with
    | nil => exact absurd rfl h
    | cons p ps => simp
  rw [ofQuery, plainText, Text.percentDecode_joinWith, Text.stripLeft_joinWith (by decide),
    entries_joinWith hne]

/-! ### Separate segments -/

/-- What some segments of a query say, each by itself. -/
def ofSegments (segments : List Text) : Arguments :=
  segments.filterMap fun t ↦ segment? (Text.percentDecode t)

/-- Segments that are cut from each other as they are joined, with arguments under keys of
their own. -/
structure AreSeparate (segments : List Text) : Prop where
  ampersand_notMem : ∀ t ∈ segments, '&' ∉ Text.percentDecode t
  head_ne : ∀ t ∈ segments, (Text.percentDecode t).head? ≠ some '?'
  nodup : (ofSegments segments).keys.Nodup

instance (segments : List Text) : Decidable (AreSeparate segments) :=
  decidable_of_iff ((∀ t ∈ segments, '&' ∉ Text.percentDecode t) ∧
      (∀ t ∈ segments, (Text.percentDecode t).head? ≠ some '?') ∧
      (ofSegments segments).keys.Nodup)
    ⟨fun ⟨hampersand, hhead, hnodup⟩ ↦ ⟨hampersand, hhead, hnodup⟩,
      fun h ↦ ⟨h.ampersand_notMem, h.head_ne, h.nodup⟩⟩

theorem AreSeparate.ofQuery_eq {segments : List Text} (h : AreSeparate segments) :
    ofQuery (Text.joinWith ['&'] segments) = ofSegments segments := by
  have hentries : (segments.map Text.percentDecode).flatMap entries = ofSegments segments := by
    rw [List.flatMap_map, ofSegments, List.filterMap_eq_flatMap_toList]
    exact List.flatMap_congr fun t ht ↦ entries_of_notMem (h.ampersand_notMem t ht)
  cases segments with
  | nil => rfl
  | cons t segments =>
      have hfixed := Text.stripLeft_of_head?_ne (h.head_ne t List.mem_cons_self)
      have hhead : ((t :: segments).map Text.percentDecode).modifyHead
          (Text.stripLeft (· = '?')) = (t :: segments).map Text.percentDecode := by
        rw [List.map_cons, List.modifyHead_cons, hfixed]
      rw [ofQuery_joinWith (List.cons_ne_nil _ _), hhead, hentries,
        Keyed.putAll_of_nodup (by simpa [Keyed.keys] using h.nodup), List.nil_append]

/-- The arguments of a query with one word as the key of each are these arguments. -/
theorem ofQuery_joinWith_words {args : List (Text × Text)} {ps : List Text}
    (hwords : ∀ a ∈ args, a.1.IsWord) (hvalues : ∀ a ∈ args, a.2 ≠ [] ∧ '&' ∉ a.2)
    (hnodup : (args.map Prod.fst).Nodup)
    (hps : ps.map Text.percentDecode = args.map fun a ↦ a.1 ++ '=' :: a.2) :
    ofQuery (Text.joinWith ['&'] ps) = args := by
  have hsegments : ofSegments ps = args := by
    calc ofSegments ps = (ps.map Text.percentDecode).filterMap segment? := by
          rw [List.filterMap_map]; rfl
      _ = args.filterMap fun a ↦ segment? (a.1 ++ '=' :: a.2) := by
          rw [hps, List.filterMap_map]; rfl
      _ = args.filterMap some := List.filterMap_congr fun a ha ↦
          segment?_eq (hwords a ha) (hvalues a ha).1
      _ = args := List.filterMap_some
  have hdecoded : ∀ t ∈ ps, ∃ a ∈ args, a.1 ++ '=' :: a.2 = Text.percentDecode t := by
    intro t ht
    exact List.mem_map.mp (hps ▸ List.mem_map_of_mem ht)
  have hseparate : AreSeparate ps := by
    refine ⟨?_, ?_, hsegments ▸ hnodup⟩
    · intro t ht
      obtain ⟨a, ha, hat⟩ := hdecoded t ht
      rw [← hat]
      simp [(hwords a ha).isUndivided.ampersand_notMem, (hvalues a ha).2]
    · intro t ht
      obtain ⟨a, ha, hat⟩ := hdecoded t ht
      exact hat ▸ (hwords a ha).head?_append_ne _
  rw [hseparate.ofQuery_eq, hsegments]

end Arguments

end RecordQuery
