import RecordQuery.Proofs.Compilable
import RecordQuery.Proofs.Database.Pattern
import RecordQuery.Proofs.Database.Stored
import RecordQuery.Proofs.Value.Plain

namespace RecordQuery

/-!
# Searched texts

Records in memory are searched in the texts of their values. A database
searches the texts to which it casts its cells, and these are others for
truth values, for identifiers, for whole numbers with two places and for
moments without a fraction. Where the texts are the same, so is what is
found.
-/

open Outcome Text

/-! ## Two texts of one value -/

namespace Value

/-- A value that a column can hold. Whole numbers in a database have 64 bits. -/
def fitsCell : Value → Bool
  | int n => fitsInt64 n
  | list _ | tuple _ | dict _ => false
  | _ => true

/-- The text in which a value is searched in memory when it was read back from a database. -/
def readText? (v : Value) : Option Text :=
  if v.stored.isNull then none else v.stored.searchText.toOption

/-- The text in which a database searches the cell of a value. -/
def castText? (v : Value) : Option Text :=
  (Cell.ofValue v).toText?.map fun t ↦ Pattern.untilNul (basicLower t)

end Value

/-- A row of which columns can hold all values. -/
def Record.FitsColumns (table : Table) (r : Record) : Prop :=
  ∀ f ∈ table.schema.fields, (r.value f.name).fitsCell = true

instance {table : Table} {r : Record} : Decidable (r.FitsColumns table) :=
  inferInstanceAs (Decidable (∀ f ∈ table.schema.fields, _))

theorem Pattern.untilNul_basicLower {t : Text} (h : IsBasic t) :
    untilNul (basicLower t) = lower t := by
  rw [untilNul_eq fun hnul ↦ h.nul_notMem (nul_mem_basicLower_iff.mp hnul), lower_eq_basicLower h]

theorem Value.succeeds_plain_storedDecimal (x : Binary64) : Succeeds (storedDecimal x).plain := by
  cases x with
  | finite negative m q =>
      rw [storedDecimal]
      · cases (Binary64.finite negative m q).roundTo storedPlaces <;> exact ⟨_, rfl⟩
      · exact nofun
      · exact nofun
  | infinite negative => exact ⟨_, rfl⟩
  | nan => exact ⟨_, rfl⟩

theorem Value.succeeds_plain_stored {v : Value} (h : v.fitsCell = true) :
    Succeeds v.stored.plain := by
  cases v with
  | int n => exact ⟨_, plain_int (natAbs_lt_intBound h)⟩
  | decimal d =>
      rw [stored]
      split
      · exact ⟨_, rfl⟩
      · exact succeeds_plain_storedDecimal _
      · exact ⟨_, rfl⟩
  | float x =>
      rw [stored]
      split <;> exact ⟨_, rfl⟩
  | list | tuple | dict => cases h
  | _ => exact ⟨_, rfl⟩

theorem Test.holds_finds_stored {v : Value} (h : v.fitsCell = true) (o : Operator)
    (needle : Text) : (finds o needle).holds v.stored = .ok (v.readText?.any (o.finds needle)) := by
  obtain ⟨t, ht⟩ := Value.succeeds_plain_stored h
  cases hnull : v.stored.isNull with
  | true =>
      cases hv : v.stored with
      | null => simp [Value.readText?, hv, Value.isNull, holds]
      | _ => simp [hv, Value.isNull] at hnull
  | false =>
      rw [holds_finds hnull, Value.readText?, hnull, Value.searchText, ht]
      rfl

theorem Atom.decide_like_seen {needle : Text} (h : '\x00' ∉ needle) (o : Operator) (v : Value) :
    decide ((like o needle).holds (Cell.ofValue v) = some true) =
      (Cell.ofValue v).toText?.any fun t ↦
        o.finds (Pattern.seen (basicLower needle)) (Pattern.seen (basicLower t)) := by
  rw [holds]
  cases (Cell.ofValue v).toText? with
  | none => rfl
  | some t =>
      rw [Option.map_some, Option.any_some, Pattern.isLike_pattern_seen h]
      cases o.finds (Pattern.seen (basicLower needle)) (Pattern.seen (basicLower t)) <;> rfl

theorem Atom.decide_like {needle : Text} (h : needle.IsBasic) (o : Operator) (v : Value) :
    decide ((like o needle).holds (Cell.ofValue v) = some true) =
      v.castText?.any (o.finds (basicLower needle)) := by
  rw [decide_like_seen h.nul_notMem, Value.castText?, Option.any_map]
  congr 1
  funext t
  exact Pattern.finds_seen (isBasic_basicLower h) o _

/-! ## Filters and quick search -/

section

variable {table : Table} {r : Record}

/-- A filter by needles is compiled for every field, and selects what one of the needles selects. -/
theorem Filter.selects_like {name : Text} {f : Field} (hfield : table.schema.resolve? name = some f)
    {o : Operator} (ho : o.isTextual = true) (needles : List Text) {p : Record → Text → Bool}
    (h : ∀ r : Record, ∀ t ∈ needles,
      decide ((Atom.like o t).holds (Cell.ofValue (r.value f.name)) = some true) = p r t) :
    ∃ group, Filter.group table ⟨name, needles, o⟩ = .ok group ∧
      ∀ r, Clause.selects [group] r = needles.any (p r) := by
  have hgroup : Succeeds (Filter.group table ⟨name, needles, o⟩) :=
    (succeeds_group_iff_values (f := ⟨name, needles, o⟩) hfield).mpr
      fun t _ ↦ ⟨_, Operator.atoms_of_isTextual ho⟩
  obtain ⟨group, hgroup⟩ := hgroup
  refine ⟨group, hgroup, fun r ↦ selects_group hfield hgroup ?_⟩
  intro t ht atoms hatoms
  obtain rfl := Except.ok.inj ((Operator.atoms_of_isTextual ho).symm.trans hatoms)
  rw [Truth.decide_any, List.map_singleton, List.any_cons, List.any_nil, Bool.or_false, h r t ht]

/-- A filter by needles is compiled for every field, and finds them in the texts of its values in
memory and in the texts of its cells in a database. -/
theorem Filter.searched {name : Text} {f : Field} (hfield : table.schema.resolve? name = some f)
    (hr : r.FitsColumns table) {o : Operator} (ho : o.isTextual = true) {needles : List Text}
    (hneedles : ∀ t ∈ needles, t.IsBasic) :
    ∃ a group, alternative table.schema ⟨name, needles, o⟩ = .ok a ∧
      Filter.group table ⟨name, needles, o⟩ = .ok group ∧
      a.holds r.stored =
        .ok (needles.any fun t ↦ (r.value f.name).readText?.any (o.finds (basicLower t))) ∧
      Clause.selects [group] r =
        needles.any fun t ↦ (r.value f.name).castText?.any (o.finds (basicLower t)) := by
  have halternative : Succeeds (alternative table.schema ⟨name, needles, o⟩) :=
    (succeeds_alternative_iff_values (f := ⟨name, needles, o⟩) hfield).mpr
      fun t _ ↦ ⟨_, Operator.test_of_isTextual ho⟩
  obtain ⟨a, ha⟩ := halternative
  obtain ⟨group, hgroup, hselects⟩ := selects_like hfield ho needles
    fun r t ht ↦ Atom.decide_like (hneedles t ht) o (r.value f.name)
  refine ⟨a, group, ha, hgroup, ?_, hselects r⟩
  apply holds_alternative hfield ha
  intro t ht test htest
  obtain rfl := Except.ok.inj ((Operator.test_of_isTextual ho).symm.trans htest)
  rw [Record.value_stored, Test.holds_finds_stored (hr f (Schema.mem_of_resolve?_eq hfield)),
    lower_eq_basicLower (hneedles t ht)]

/-- Names that are looked up one after another, and what is asked of the fields they find. -/
theorem Schema.any_require {schema : Schema} {code : ErrorCode} {names : List Text}
    {fields : List Field} (h : names.mapM (schema.require code) = .ok fields) (p : Field → Bool) :
    fields.any p = names.any fun name ↦ (schema.resolve? name).any p := by
  rw [mapM_eq_ok_iff] at h
  induction h with
  | nil => rfl
  | @cons name f names fields hf _ ih =>
      have hfield : schema.resolve? name = some f := by
        unfold require at hf
        split at hf
        · next g hg => rw [hg, Except.ok.inj hf]
        · cases hf
      rw [List.any_cons, List.any_cons, ih, hfield, Option.any_some]

theorem Search.searched (hr : r.FitsColumns table) {q : Search} (hvalue : q.value.IsBasic)
    (hfields : ∀ name ∈ q.fields, ∃ f, table.schema.resolve? name = some f) :
    ∃ a group, q.alternative table.schema = .ok a ∧ q.group table = .ok group ∧
      a.holds r.stored = .ok (q.fields.any fun name ↦ (table.schema.resolve? name).any fun f ↦
        (r.value f.name).readText?.any (hasInfix (basicLower q.value))) ∧
      Clause.selects [group] r = q.fields.any fun name ↦ (table.schema.resolve? name).any fun f ↦
        (r.value f.name).castText?.any (hasInfix (basicLower q.value)) := by
  obtain ⟨fields, hrequire⟩ := Schema.succeeds_mapM_require .invalidSearchColumn hfields
  refine ⟨fields.map fun f ↦ ⟨f.name, .finds .contains (lower q.value)⟩,
    fields.map fun f ↦ ⟨⟨table.name, f⟩, .like .contains q.value⟩, ?_, ?_, ?_, ?_⟩
  · rw [alternative, hrequire]
    exact mapM_eq_ok_map fun f _ ↦ rfl
  · rw [group, hrequire]
    rfl
  · rw [← Schema.any_require hrequire, ← lower_eq_basicLower hvalue, Alternative.holds,
      anyM_eq_ok_any (q := fun b ↦
        (r.value b.field).readText?.any (hasInfix (lower q.value))), List.any_map]
    · rfl
    · intro b hb
      obtain ⟨f, hf, rfl⟩ := List.mem_map.mp hb
      obtain ⟨name, -, hname⟩ := exists_of_mem_mapM hrequire hf
      have hmem := Schema.mem_of_resolve?_eq (Schema.require_eq_ok_iff.mp hname)
      rw [Branch.holds, Record.value_stored, Test.holds_finds_stored (hr f hmem)]
      rfl
  · rw [← Schema.any_require hrequire, Clause.selects_singleton, Truth.decide_any, List.map_map,
      List.any_map]
    congr 1
    funext f
    exact Atom.decide_like hvalue .contains _

end

/-! ## Values with one text -/

theorem Text.point_mem_basicLower_iff {t : Text} : '.' ∈ basicLower t ↔ '.' ∈ t := by
  have hpoint : ∀ c, basicLowerChar c = '.' ↔ c = '.' := by
    intro c
    by_cases h : c.toNat < 128
    · exact forall_basic (P := fun c ↦ basicLowerChar c = '.' ↔ c = '.') (by decide) h
    · rw [basicLowerChar_eq_self h]
  induction t with
  | nil => rfl
  | cons c t ih =>
      rw [basicLower_cons, List.mem_cons, List.mem_cons]
      exact or_congr (by rw [eq_comm, hpoint, eq_comm]) ih

theorem Text.point_notMem_ofInt (n : Int) : '.' ∉ ofInt n := by
  have hdigits : ∀ d < 10, '.' ≠ Nat.digitChar d := by decide
  have hnat : ∀ n, '.' ∉ ofNat n := by
    intro n h
    obtain ⟨d, hd, hpoint⟩ := exists_digitChar_of_mem_toDigits (by decide) h
    exact hdigits d hd hpoint
  cases n with
  | ofNat n => exact hnat n
  | negSucc n =>
      rw [ofInt, List.mem_cons]
      rintro (h | h)
      · cases h
      · exact hnat _ h

/-- A number with two places is written with a point. -/
theorem Decimal.point_mem_text (negative : Bool) (n : Nat) :
    '.' ∈ Decimal.text ⟨negative, n, -2⟩ := by
  have hlength : 0 < (Text.ofNat n).length := List.length_pos_iff.mpr (ofNat_ne_nil n)
  unfold Decimal.text
  dsimp only
  generalize Text.ofNat n = ds at hlength ⊢
  have hplace : ((-2 : Int) ≤ 0 ∧ -6 < -2 + (ds.length : Int)) := by omega
  rw [if_pos hplace]
  split
  · simp
  · rw [if_neg (by omega)]
    simp

theorem Uuid.length_text (u : Uuid) : u.text.length = u.hex.length + 4 := by
  simp only [text, List.length_append, List.length_cons, List.length_take, List.length_drop]
  omega

theorem Uuid.isPlain_hex (u : Uuid) : u.hex.IsPlain :=
  isPlain_figures.of_subset u.hex_subset_figures

theorem Clock.text_true (c : Clock) : c.text true = c.text false ++ '.' :: padded 6 c.micro := by
  simp [text]

namespace Value

/-- Values that are cast to the texts in which they are searched in memory. -/
def castsAlike : Value → Bool
  | null | text _ | int _ | date _ => true
  | moment t => t.clock.micro ≠ 0
  | zoned t => t.clock.micro ≠ 0
  | _ => false

/-- The texts of a value in a database and in memory, where both are made of basic characters. -/
structure HasTexts (v : Value) (s t : Text) : Prop where
  toText?_eq : (Cell.ofValue v).toText? = some s
  isNull_eq : v.stored.isNull = false
  plain_eq : v.stored.plain = .ok t
  isBasic_cast : s.IsBasic
  isBasic_read : t.IsBasic

namespace HasTexts

variable {v : Value} {s t : Text}

theorem castText?_eq (h : HasTexts v s t) : v.castText? = some (basicLower s) := by
  rw [castText?, h.toText?_eq, Option.map_some, Pattern.untilNul_basicLower h.isBasic_cast,
    lower_eq_basicLower h.isBasic_cast]

theorem readText?_eq (h : HasTexts v s t) : v.readText? = some (basicLower t) := by
  rw [readText?, h.isNull_eq, searchText, h.plain_eq, ← lower_eq_basicLower h.isBasic_read]
  rfl

/-- Two texts in which the same needles are found are equal, for each of them is a needle. -/
theorem finds_agree_iff (h : HasTexts v s t) :
    (∀ needle, IsBasic needle → v.castText?.any (hasInfix (basicLower needle)) =
      v.readText?.any (hasInfix (basicLower needle))) ↔ v.castText? = v.readText? := by
  have hfold : ∀ u, basicLower (basicLower u) = basicLower u :=
    fun u ↦ (List.map_congr_left (Pattern.isFolded_basicLower u)).trans (List.map_id _)
  rw [h.castText?_eq, h.readText?_eq, Option.some.injEq]
  constructor
  · intro hagree
    have hs := hagree _ (isBasic_basicLower h.isBasic_cast)
    have ht := hagree _ (isBasic_basicLower h.isBasic_read)
    rw [hfold, Option.any_some, Option.any_some, Bool.eq_iff_iff, hasInfix_iff, hasInfix_iff]
      at hs ht
    have hst : basicLower s <:+: basicLower t := hs.mp (List.infix_refl _)
    have hts : basicLower t <:+: basicLower s := ht.mpr (List.infix_refl _)
    exact hst.eq_of_length (Nat.le_antisymm hst.length_le hts.length_le)
  · intro heq needle _
    rw [heq]

/-- The texts of what the clocks show. -/
theorem exists_of_wall {v : Value} (d : Date) (c : Clock)
    (hcell : Cell.ofValue v = .text (Cell.momentText ⟨d, c, none⟩))
    (hstored : v.stored = .moment ⟨d, c, none⟩) (halike : v.castsAlike = true ↔ c.micro ≠ 0) :
    ∃ s t, HasTexts v s t ∧ (basicLower s = basicLower t ↔ v.castsAlike = true) := by
  have hmoment : (Cell.momentText ⟨d, c, none⟩).IsPlain := by simp [Cell.momentText]
  refine ⟨Cell.momentText ⟨d, c, none⟩, Moment.text ' ' ⟨d, c, none⟩,
    ⟨by rw [hcell]; rfl, by rw [hstored]; rfl, by rw [hstored]; rfl, hmoment.isBasic,
      (Moment.isPlain_text _).isBasic⟩, ?_⟩
  rw [halike]
  by_cases hmicro : c.micro = 0
  · refine iff_of_false ?_ (not_not_intro hmicro)
    intro h
    have hlength := congrArg List.length h
    simp [basicLower, Cell.momentText, Moment.text, hmicro, Clock.text_true] at hlength
  · refine iff_of_true ?_ hmicro
    simp [Cell.momentText, Moment.text, hmicro]

/-- The texts of texts, whole numbers, dates, moments, truth values, identifiers and decimals
without a fraction. -/
theorem exists_of_hasType {type : FieldType} {v : Value} (hv : v.HasType type)
    (hfits : v.fitsCell = true) (htext : ∀ t, v = .text t → t.IsBasic) (hfloat : type ≠ .float)
    (hdecimal : ∀ d, v = .decimal d → ∃ n, Cell.ofDecimal d = .integer n) :
    ∃ s t, HasTexts v s t ∧ (basicLower s = basicLower t ↔ v.castsAlike = true) := by
  cases hv with
  | text t => exact ⟨t, t, ⟨rfl, rfl, rfl, htext t rfl, htext t rfl⟩, iff_of_true rfl rfl⟩
  | int n =>
      have hplain := (isPlain_ofInt n).isBasic
      exact ⟨ofInt n, ofInt n, ⟨rfl, rfl, plain_int (natAbs_lt_intBound hfits), hplain, hplain⟩,
        iff_of_true rfl rfl⟩
  | float h => exact absurd rfl hfloat
  | decimal d =>
      obtain ⟨n, hn⟩ := hdecimal d rfl
      have hstored : (decimal d).stored = .decimal ⟨n < 0, n.natAbs * 10 ^ 2, -2⟩ := by
        simp [stored, hn, storedPlaces]
      refine ⟨ofInt n, Decimal.text ⟨n < 0, n.natAbs * 10 ^ 2, -2⟩,
        ⟨by rw [Cell.ofValue, hn]; rfl, by rw [hstored]; rfl, by rw [hstored]; rfl,
          (isPlain_ofInt n).isBasic, (Decimal.isPlain_text _).isBasic⟩,
        iff_of_false ?_ Bool.false_ne_true⟩
      intro h
      have hpoint := Decimal.point_mem_text (n < 0) (n.natAbs * 10 ^ 2)
      rw [← point_mem_basicLower_iff, ← h, point_mem_basicLower_iff] at hpoint
      exact point_notMem_ofInt n hpoint
  | bool b =>
      cases b with
      | true => exact ⟨['1'], "True".toList, ⟨rfl, rfl, rfl, by decide, by decide⟩, by decide⟩
      | false => exact ⟨['0'], "False".toList, ⟨rfl, rfl, rfl, by decide, by decide⟩, by decide⟩
  | date d =>
      have hplain := d.isPlain_text.isBasic
      exact ⟨d.text, d.text, ⟨rfl, rfl, rfl, hplain, hplain⟩, iff_of_true rfl rfl⟩
  | moment t => exact exists_of_wall t.date t.clock rfl rfl (by simp [castsAlike])
  | zoned t => exact exists_of_wall t.date t.clock rfl rfl (by simp [castsAlike])
  | uuid u =>
      refine ⟨u.hex, u.text,
        ⟨rfl, rfl, rfl, u.isPlain_hex.isBasic, u.isPlain_text.isBasic⟩,
        iff_of_false ?_ Bool.false_ne_true⟩
      intro h
      have hlength := congrArg List.length h
      rw [basicLower, basicLower, List.length_map, List.length_map, u.length_text] at hlength
      omega

end HasTexts

end Value

/-! ## Agreement -/

section

variable {table : Table} {r : Record} {name : Text} {f : Field}

theorem Filter.agreesOn_of_texts_eq (hfield : table.schema.resolve? name = some f)
    (hr : r.FitsColumns table) (h : (r.value f.name).castText? = (r.value f.name).readText?)
    {o : Operator} (ho : o.isTextual = true) {needles : List Text}
    (hneedles : ∀ t ∈ needles, t.IsBasic) : AgreesOn table ⟨name, needles, o⟩ r := by
  obtain ⟨a, group, ha, hgroup, hread, hcast⟩ := searched hfield hr ho hneedles
  exact ⟨a, group, ha, hgroup, by rw [hread, hcast, h]⟩

/-- Where the same is found for every needle, the texts are the same. -/
theorem Filter.texts_eq_of_agreesOn (hfield : table.schema.resolve? name = some f)
    (hr : r.FitsColumns table) {s t : Text} (htexts : (r.value f.name).HasTexts s t)
    (h : ∀ needle : Text, needle.IsBasic → AgreesOn table ⟨name, [needle], .contains⟩ r) :
    (r.value f.name).castText? = (r.value f.name).readText? := by
  refine htexts.finds_agree_iff.mp fun needle hneedle ↦ ?_
  obtain ⟨a, group, ha, hgroup, hagree⟩ := h needle hneedle
  obtain ⟨b, terms, hb, hterms, hread, hcast⟩ := searched hfield hr (o := .contains) rfl
    (List.forall_mem_singleton.mpr hneedle)
  obtain rfl := Except.ok.inj (ha.symm.trans hb)
  obtain rfl := Except.ok.inj (hgroup.symm.trans hterms)
  rw [hread, hcast, Except.ok.injEq] at hagree
  simp only [List.any_cons, List.any_nil, Bool.or_false] at hagree
  exact hagree.symm

theorem Filter.agreesOn_iff_castsAlike (hfield : table.schema.resolve? name = some f)
    (hfits : r.FitsColumns table) (hr : r.value f.name = .null ∨ (r.value f.name).HasType f.type)
    (htext : ∀ t, r.value f.name = .text t → t.IsBasic) (hfloat : f.type ≠ .float)
    (hdecimal : ∀ d, r.value f.name = .decimal d → ∃ n, Cell.ofDecimal d = .integer n) :
    (∀ o : Operator, o.isTextual = true → ∀ needles : List Text, (∀ t ∈ needles, t.IsBasic) →
      AgreesOn table ⟨name, needles, o⟩ r) ↔ (r.value f.name).castsAlike = true := by
  rcases hr with hnull | htype
  · refine iff_of_true (fun o ho needles hneedles ↦ ?_) (by rw [hnull]; rfl)
    refine agreesOn_of_texts_eq hfield hfits ?_ ho hneedles
    rw [hnull]
    rfl
  · obtain ⟨s, t, htexts, halike⟩ := Value.HasTexts.exists_of_hasType htype
      (hfits f (Schema.mem_of_resolve?_eq hfield)) htext hfloat hdecimal
    have heq : (r.value f.name).castText? = (r.value f.name).readText? ↔
        (r.value f.name).castsAlike = true := by
      rw [htexts.castText?_eq, htexts.readText?_eq, Option.some.injEq, halike]
    rw [← heq]
    constructor
    · intro h
      exact texts_eq_of_agreesOn hfield hfits htexts fun needle hneedle ↦
        h .contains rfl [needle] (List.forall_mem_singleton.mpr hneedle)
    · intro h o ho needles hneedles
      exact agreesOn_of_texts_eq hfield hfits h ho hneedles

/-- What filters by needles and quick searches find in memory and in a database, in rows that a
table can hold, and where it is the same for all needles. -/
theorem Table.texts_searched {table : Table} {r : Record} (hr : r.FitsColumns table) :
    (∀ name f, table.schema.resolve? name = some f → ∀ o : Operator, o.isTextual = true →
      ∀ needles : List Text, (∀ t ∈ needles, t.IsBasic) →
      ∃ a group, Filter.alternative table.schema ⟨name, needles, o⟩ = .ok a ∧
        Filter.group table ⟨name, needles, o⟩ = .ok group ∧
        a.holds r.stored =
          .ok (needles.any fun t ↦ (r.value f.name).readText?.any (o.finds (basicLower t))) ∧
        Clause.selects [group] r =
          needles.any fun t ↦ (r.value f.name).castText?.any (o.finds (basicLower t))) ∧
    (∀ q : Search, q.value.IsBasic →
      (∀ name ∈ q.fields, ∃ f, table.schema.resolve? name = some f) →
      ∃ a group, q.alternative table.schema = .ok a ∧ q.group table = .ok group ∧
        a.holds r.stored =
          .ok (q.fields.any fun name ↦ (table.schema.resolve? name).any fun f ↦
            (r.value f.name).readText?.any (hasInfix (basicLower q.value))) ∧
        Clause.selects [group] r =
          q.fields.any fun name ↦ (table.schema.resolve? name).any fun f ↦
            (r.value f.name).castText?.any (hasInfix (basicLower q.value))) ∧
    ∀ name f, table.schema.resolve? name = some f →
      r.value f.name = .null ∨ (r.value f.name).HasType f.type →
      (∀ t, r.value f.name = .text t → t.IsBasic) → f.type ≠ .float →
      (∀ d, r.value f.name = .decimal d → ∃ n, Cell.ofDecimal d = .integer n) →
      ((∀ o : Operator, o.isTextual = true → ∀ needles : List Text, (∀ t ∈ needles, t.IsBasic) →
        Filter.AgreesOn table ⟨name, needles, o⟩ r) ↔ (r.value f.name).castsAlike = true) :=
  ⟨fun _ _ hfield _ ho _ hneedles ↦ Filter.searched hfield hr ho hneedles,
    fun _ hvalue hfields ↦ Search.searched hr hvalue hfields,
    fun _ _ hfield htype htext hfloat hdecimal ↦
      Filter.agreesOn_iff_castsAlike hfield hr htype htext hfloat hdecimal⟩

end

/-- A row with a name, in which needles are found, and a truth value, in which they are not. -/
theorem Table.texts_searched_partner :
    let row : Record := [("name".toList, .text "Ada".toList), ("is_partner".toList, .bool true)]
    (∃ a group, Filter.alternative Catalog.customers.schema
        ⟨"name".toList, ["x".toList, "DA".toList], .endsWith⟩ = .ok a ∧
      Filter.group Catalog.customers
        ⟨"name".toList, ["x".toList, "DA".toList], .endsWith⟩ = .ok group ∧
      a.holds row.stored = .ok true ∧ Clause.selects [group] row = true) ∧
    (∃ a group, Search.alternative Catalog.customers.schema ⟨"d".toList, ["name".toList]⟩ = .ok a ∧
      Search.group Catalog.customers ⟨"d".toList, ["name".toList]⟩ = .ok group ∧
      a.holds row.stored = .ok true ∧ Clause.selects [group] row = true) ∧
    ¬ ∀ o : Operator, o.isTextual = true → ∀ needles : List Text, (∀ t ∈ needles, t.IsBasic) →
      Filter.AgreesOn Catalog.customers ⟨"is_partner".toList, needles, o⟩ row := by
  intro row
  have hname : Catalog.customers.schema.resolve? "name".toList =
      some (Catalog.field "name" .text) := by decide +kernel
  have hpartner : Catalog.customers.schema.resolve? "is_partner".toList =
      some (Catalog.field "is_partner" .bool) := by decide +kernel
  have hrow : row.FitsColumns Catalog.customers := by decide +kernel
  obtain ⟨hfilters, hsearches, hagrees⟩ := texts_searched hrow
  refine ⟨?_, ?_, ?_⟩
  · obtain ⟨a, group, ha, hgroup, hread, hcast⟩ := hfilters _ _ hname .endsWith rfl
      ["x".toList, "DA".toList] (by decide)
    refine ⟨a, group, ha, hgroup, ?_, ?_⟩
    · rw [hread]
      decide +kernel
    · rw [hcast]
      decide +kernel
  · obtain ⟨a, group, ha, hgroup, hread, hcast⟩ := hsearches ⟨"d".toList, ["name".toList]⟩
      (by decide) (List.forall_mem_singleton.mpr ⟨_, hname⟩)
    refine ⟨a, group, ha, hgroup, ?_, ?_⟩
    · rw [hread]
      decide +kernel
    · rw [hcast]
      decide +kernel
  · intro h
    have halike := (hagrees _ _ hpartner (Or.inr (.bool true)) nofun (by decide) nofun).mp h
    cases halike

/-- A truth value is cast to a digit. -/
theorem Table.texts_searched_digit :
    let row : Record := [("is_partner".toList, .bool true)]
    let filter : Filter := ⟨"is_partner".toList, ["tru".toList], .startsWith⟩
    ∃ a group, filter.alternative Catalog.customers.schema = .ok a ∧
      filter.group Catalog.customers = .ok group ∧
      a.holds row.stored = .ok true ∧ Clause.selects [group] row = false := by
  intro row filter
  have hfield : Catalog.customers.schema.resolve? "is_partner".toList =
      some (Catalog.field "is_partner" .bool) := by decide +kernel
  have hneedles : ∀ t ∈ ["tru".toList], IsBasic t := by decide
  obtain ⟨a, group, ha, hgroup, hread, hcast⟩ :=
    Filter.searched (r := row) hfield (by decide +kernel) (o := .startsWith) rfl hneedles
  refine ⟨a, group, ha, hgroup, ?_, ?_⟩
  · rw [hread]
    decide +kernel
  · rw [hcast]
    decide +kernel

end RecordQuery
