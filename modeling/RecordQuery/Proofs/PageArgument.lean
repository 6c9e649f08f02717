import RecordQuery.Proofs.Arguments
import RecordQuery.Proofs.Number.Whole
import RecordQuery.Proofs.Pages
import RecordQuery.Proofs.WellFormed

namespace RecordQuery

/-!
# Asking for a page

A page argument of basic digits is read as its number if that has 64 bits,
whatever zeros stand before it. Put at the end of a query that is accepted,
a page number asks for that page of the same request, whatever page the
query asked for before.
-/

/-! ## Numerals -/

/-- Blanks, a sign or none, basic digits but no more than are read, and blanks. -/
def Text.IsPageNumeral (t : Text) (n : Int) : Prop :=
  ∃ before sign negative ds after, (∀ c ∈ before, isBlank c = true) ∧
    (∀ c ∈ after, isBlank c = true) ∧ Numeral.IsSign sign negative ∧ ds ≠ [] ∧
    ds.length ≤ digitLimit ∧ (∀ d ∈ ds, d < 10) ∧
    t = before ++ (sign ++ ds.map Nat.digitChar) ++ after ∧
    n = if negative then -(ofDigits ds : Int) else ofDigits ds

theorem readPageInt_of_isPageNumeral {t : Text} {n : Int} (h : t.IsPageNumeral n) :
    readPageInt t = .ok (if fitsInt64 n then some n else none) := by
  obtain ⟨before, sign, negative, ds, after, hbefore, hafter, hsign, hne, hlimit, hlt, rfl, hn⟩ := h
  have hdigit : ∀ d < 10, Text.isBlank (Nat.digitChar d) = false ∧
      Text.isDigit (Nat.digitChar d) = true ∧
      (Text.digitValue? (Nat.digitChar d) = some 0 → Nat.digitChar d = '0') := by decide
  have hsignBlank : ∀ c ∈ sign, Text.isBlank c = false := by
    cases hsign with
    | none => exact nofun
    | plus | minus => exact List.forall_mem_singleton.mpr (by decide)
  have htrim : Text.trim (before ++ (sign ++ ds.map Nat.digitChar) ++ after) =
      sign ++ ds.map Nat.digitChar := by
    refine Text.trim_append_append hbefore (List.forall_mem_append.mpr ⟨hsignBlank, ?_⟩) hafter
    exact List.forall_mem_map.mpr fun d hd ↦ (hdigit d (hlt d hd)).1
  have hvalues := Text.digitValues?_map_digitChar hlt
  have hzeros : ∀ c ∈ ds.map Nat.digitChar, Text.digitValue? c = some 0 → c = '0' :=
    List.forall_mem_map.mpr fun d hd ↦ (hdigit d (hlt d hd)).2.2
  obtain ⟨d, ds, rfl⟩ := List.exists_cons_of_ne_nil hne
  have hfirst := (hdigit d (hlt d List.mem_cons_self)).2.1
  rw [readPageInt, htrim, List.map_cons]
  simp only [Numeral.takeSign_append hsign hfirst, Numeral.significant_append hsign hfirst]
  rw [← List.map_cons, hvalues]
  dsimp only
  rw [← hn]
  split
  · next hlong =>
      have hsize : ¬fitsInt64 n = true := by
        intro hfits
        have hlarge : Text.ofDigits (d :: ds) < 10 ^ int64Digits := lt_of_fitsInt64 (hn ▸ hfits)
        exact absurd (Text.length_dropZeros_le hvalues hlarge hzeros) (Nat.not_le.mpr hlong)
      rw [if_neg hsize]
  · rw [if_neg (Nat.not_lt.mpr hlimit)]

theorem Text.isPageNumeral_ofNat {n : Nat} (h : (ofNat n).length ≤ digitLimit) :
    IsPageNumeral (ofNat n) n := by
  obtain ⟨ds, hlt, hds, hn⟩ := exists_toDigits_eq_map (by decide : 1 < 10) n
  have hne := ofNat_ne_nil n
  rw [ofNat, hds] at h hne ⊢
  rw [List.length_map] at h
  refine ⟨[], [], false, ds, [], List.forall_mem_nil _, List.forall_mem_nil _, .none,
    fun hnil ↦ hne (by rw [hnil]; rfl), h, hlt, by simp, ?_⟩
  rw [if_neg Bool.false_ne_true]
  exact congrArg Nat.cast hn.symm

theorem readPageInt_ofNat {n : Nat} (h : (n : Int) ≤ int64Max) :
    readPageInt (Text.ofNat n) = .ok (some n) := by
  have hlength : (Text.ofNat n).length ≤ 19 :=
    Text.length_ofNat_le (by decide) (by simp only [int64Max] at h; omega)
  have hlimit : (Text.ofNat n).length ≤ digitLimit := Nat.le_trans hlength (by decide)
  rw [readPageInt_of_isPageNumeral (Text.isPageNumeral_ofNat hlimit), if_pos (fitsInt64_natCast h)]

/-! ## Asking for a page -/

namespace Pagination

theorem numberOf_eq {args : Arguments} {n : Nat} (h : (n : Int) ≤ int64Max)
    (hnumber : args.get? pageNumberKey = some (Text.ofNat n)) : numberOf args = .ok n := by
  simp [numberOf, hnumber, readPageInt_ofNat h]
  rfl

theorem ofArguments_of_parts {args : Arguments} {p : Pagination}
    (hnumber : numberOf args = .ok p.number) (hsize : sizeOf args = .ok ⟨p.size, p.size_pos⟩)
    (hoffset : (p.offset : Int) ≤ int64Max) : ofArguments args = .ok p := by
  simp only [ofArguments, hnumber, hsize]
  exact if_neg (Int.not_lt.mpr hoffset)

theorem sizeOf_of_ofArguments {args : Arguments} {p : Pagination} (h : ofArguments args = .ok p) :
    sizeOf args = .ok ⟨p.size, p.size_pos⟩ := by
  obtain ⟨number, -, h⟩ := Outcome.bind_eq_ok_iff.mp h
  obtain ⟨⟨size, hpos⟩, hsize, h⟩ := Outcome.bind_eq_ok_iff.mp h
  dsimp only at h
  split at h
  · cases h
  · cases h
    exact hsize

end Pagination

/-! ## Arguments that are looked up -/

theorem Pagination.ofArguments_congr {args args' : Arguments}
    (hnumber : args'.get? pageNumberKey = args.get? pageNumberKey)
    (hsize : args'.get? pageSizeKey = args.get? pageSizeKey) :
    ofArguments args' = ofArguments args := by
  simp only [ofArguments, numberOf, sizeOf, hnumber, hsize]

theorem Sorting.ofArguments_congr {args args' : Arguments}
    (hfield : args'.get? sortByKey = args.get? sortByKey)
    (hdirection : args'.get? sortDirectionKey = args.get? sortDirectionKey) (schema : Schema)
    (defaultField : Text) :
    ofArguments schema defaultField args' = ofArguments schema defaultField args := by
  simp only [ofArguments, directionOf, hfield, hdirection]

theorem Search.ofArguments_congr {args args' : Arguments}
    (htext : args'.get? searchKey = args.get? searchKey) (schema : Schema) :
    ofArguments schema args' = ofArguments schema args := by
  simp only [ofArguments, htext]

/-! ## One more argument -/

namespace Arguments

/-- A query with one more argument, which asks for a page. -/
def withPage (query : Text) (n : Nat) : Text :=
  query ++ '&' :: (pageNumberKey ++ '=' :: Text.ofNat n)

theorem ofQuery_withPage (query : Text) (n : Nat) :
    ofQuery (withPage query n) = Keyed.put pageNumberKey (Text.ofNat n) (ofQuery query) := by
  have hkey : pageNumberKey.IsWord := by decide +kernel
  have hdigits : ∀ d < 10, Nat.digitChar d ≠ '%' ∧ Nat.digitChar d ≠ '+' ∧
      Nat.digitChar d ≠ '&' := by decide
  have hnumber : ∀ c ∈ Text.ofNat n, c ≠ '%' ∧ c ≠ '+' ∧ c ≠ '&' := by
    intro c hc
    obtain ⟨d, hd, rfl⟩ := Text.exists_digitChar_of_mem_ofNat hc
    exact hdigits d hd
  have hliteral : Text.IsLiteral (pageNumberKey ++ '=' :: Text.ofNat n) := by
    rw [Text.isLiteral_append, Text.isLiteral_cons]
    exact ⟨hkey.isLiteral, by decide, fun c hc ↦ ⟨(hnumber c hc).1, (hnumber c hc).2.1⟩⟩
  have hampersand : '&' ∉ Text.ofNat n := fun hc ↦ (hnumber _ hc).2.2 rfl
  have hlast : entries (pageNumberKey ++ '=' :: Text.ofNat n) = [(pageNumberKey, Text.ofNat n)] :=
    entries_word hkey (Text.ofNat_ne_nil n) hampersand
  have hplain : plainText (withPage query n) =
      plainText query ++ '&' :: (pageNumberKey ++ '=' :: Text.ofNat n) := by
    rw [plainText, withPage, Text.percentDecode_append_ampersand,
      Text.percentDecode_of_isLiteral hliteral, Text.stripLeft_append_cons (by decide)]
    rfl
  have hentries : entries (plainText (withPage query n)) =
      entries (plainText query) ++ [(pageNumberKey, Text.ofNat n)] := by
    rw [hplain, entries_append_cons, hlast]
  rw [ofQuery, hentries, Keyed.putAll_append]
  rfl

end Arguments

namespace Specification

variable {schema : Schema} {defaultSort : Text} {registry : Registry} {args : Arguments}
  {query : Text} {s : Specification} {n : Nat}

theorem ofArguments_put (h : ofArguments schema defaultSort registry args = .ok s)
    (hnumber : (n : Int) ≤ int64Max) (hoffset : ((s.atPage n).pagination.offset : Int) ≤ int64Max) :
    ofArguments schema defaultSort registry (Keyed.put pageNumberKey (Text.ofNat n) args) =
      .ok (s.atPage n) := by
  let args' : Arguments := Keyed.put pageNumberKey (Text.ofNat n) args
  have hget : ∀ key, key ≠ pageNumberKey → args'.get? key = args.get? key :=
    fun key hne ↦ Keyed.get?_put_ne hne _ _
  obtain ⟨hpagination, hsort, hsearch, hfilters⟩ := ofArguments_eq_ok_iff.mp h
  have hsize : Pagination.sizeOf args' = .ok ⟨s.pagination.size, s.pagination.size_pos⟩ := by
    rw [← Pagination.sizeOf_of_ofArguments hpagination, Pagination.sizeOf, Pagination.sizeOf,
      hget _ (by decide)]
  have hpage : Pagination.ofArguments args' = .ok (s.atPage n).pagination :=
    Pagination.ofArguments_of_parts (Pagination.numberOf_eq hnumber (Keyed.get?_put_self _ _ _))
      hsize hoffset
  have hsort' : Sorting.ofArguments schema defaultSort args' = .ok s.sort :=
    (Sorting.ofArguments_congr (hget _ (by decide)) (hget _ (by decide)) _ _).trans hsort
  have hsearch' : Search.ofArguments schema args' = .ok s.search :=
    (Search.ofArguments_congr (hget _ (by decide)) _).trans hsearch
  have hfilters' : Filter.ofArguments schema registry args' = .ok s.filters := by
    have hothers : (args'.filter fun a ↦ a.1 ∉ reservedKeys) =
        args.filter fun a ↦ a.1 ∉ reservedKeys :=
      Keyed.filter_put_of_neg (p := fun key ↦ key ∉ reservedKeys) (by decide) _ args
    rw [← hfilters, Filter.ofArguments, Filter.ofArguments, hothers]
  exact ofArguments_eq_ok_iff.mpr ⟨hpage, hsort', hsearch', hfilters'⟩

/-- A page that can be asked for is asked for by one more argument. -/
theorem ofQuery_withPage (h : ofQuery schema defaultSort registry query = .ok s)
    (hnumber : (n : Int) ≤ int64Max) (hoffset : ((s.atPage n).pagination.offset : Int) ≤ int64Max) :
    ofQuery schema defaultSort registry (Arguments.withPage query n) = .ok (s.atPage n) := by
  rw [ofQuery, Arguments.ofQuery_withPage]
  exact ofArguments_put h hnumber hoffset

end Specification

end RecordQuery
