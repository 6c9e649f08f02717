import RecordQuery.Proofs.Database.Placeholders
import RecordQuery.Proofs.Schema

namespace RecordQuery

/-!
# Requests of the same form

Two specifications are of the same form if they ask the same of the same
fields, with whatever values. They are written as the same text. There are
two things about a value that the text depends on: in an equality a day is
written as two bounds and a moment as one value, and a truth value is
written out.
-/

open Outcome

/-- Two values that make the same text in a filter on a field. -/
structure Field.ReadsAlike (f : Field) (o : Operator) (s t : Text) : Prop where
  isDateOnly : f.type = .datetime → o.isEquality = true →
    Literal.isDateOnly s = Literal.isDateOnly t
  read : f.type = .bool → o.isTextual = false → f.read s = f.read t

/-! ## Terms -/

namespace Field

variable {f : Field} {o : Operator} {s t : Text}

theorem ReadsAlike.dateOnly?_iff (h : f.ReadsAlike o s t) (htype : f.type = .datetime)
    (ho : o.isEquality = true) : Literal.dateOnly? s = none ↔ Literal.dateOnly? t = none := by
  have hday := h.isDateOnly htype ho
  unfold Literal.isDateOnly at hday
  rw [← Option.not_isSome_iff_eq_none, ← Option.not_isSome_iff_eq_none, hday]

theorem ne_bool_of_read (htype : f.type ≠ .bool) {v : Value} (h : f.read t = .ok v) (b : Bool) :
    v ≠ .bool b := by
  rintro rfl
  obtain hb | hb := hasType_of_read h
  · generalize f.type = type at htype hb
    cases hb
    exact htype rfl
  · cases hb

end Field

namespace Atom

variable {f : Field} {o : Operator} {s t : Text}

theorem ofValue_of_ne_bool {v : Value} (hv : ∀ b, v ≠ .bool b) (affirmed : Bool) :
    ofValue affirmed v = .compare (Comparison.ofEquality affirmed) v := by
  cases v with
  | bool b => exact absurd rfl (hv b)
  | _ => rfl

theorem eq_compare_of_ofComparison {c : Comparison} {v : Value} {a : Atom}
    (h : ofComparison c v = .ok a) : a = .compare c v := by
  cases v with
  | bool b => cases h
  | _ => exact (Except.ok.inj h).symm

theorem form_ofValue {affirmed : Bool} (ho : o.isTextual = false) (h : f.ReadsAlike o s t)
    {v w : Value} (hv : f.read s = .ok v) (hw : f.read t = .ok w) (c : Column) :
    (ofValue affirmed v).form c = (ofValue affirmed w).form c := by
  by_cases htype : f.type = .bool
  · have hvw : v = w := Except.ok.inj (hv.symm.trans ((h.read htype ho).trans hw))
    rw [hvw]
  · rw [ofValue_of_ne_bool (Field.ne_bool_of_read htype hv),
      ofValue_of_ne_bool (Field.ne_bool_of_read htype hw)]
    rfl

theorem form_ofEquality {affirmed : Bool} (ho : o.isEquality = true) (h : f.ReadsAlike o s t)
    {a b : Atom} (ha : ofEquality f affirmed s = .ok a) (hb : ofEquality f affirmed t = .ok b)
    (c : Column) : a.form c = b.form c := by
  have htextual : o.isTextual = false := by
    cases o with
    | equals | notEquals => rfl
    | _ => cases ho
  -- both values are days or both are not, so the second is read in the way of the first
  cases f.equality s with
  | lastDay _ _ _ hatom => cases (hatom affirmed).symm.trans ha
  | folded htext _ hatom =>
      cases (hatom affirmed).symm.trans ha
      cases f.equality t with
      | folded _ _ hatom =>
          cases (hatom affirmed).symm.trans hb
          rfl
      | day htype => cases htext.symm.trans htype
      | lastDay htype => cases htext.symm.trans htype
      | read htype => exact absurd htext htype
  | day htype hd _ _ hatom =>
      cases (hatom affirmed).symm.trans ha
      cases f.equality t with
      | folded htext => cases htext.symm.trans htype
      | day _ _ _ _ hatom =>
          cases (hatom affirmed).symm.trans hb
          cases affirmed <;> rfl
      | lastDay _ _ _ hatom => cases (hatom affirmed).symm.trans hb
      | read _ hmoment =>
          cases hd.symm.trans ((h.dateOnly?_iff htype ho).mpr (hmoment htype))
  | read htype hmoment _ hatom =>
      obtain ⟨v, hv, rfl⟩ := map_eq_ok_iff.mp ((hatom affirmed).symm.trans ha)
      cases f.equality t with
      | folded htext => exact absurd htext htype
      | day htype hd => cases hd.symm.trans ((h.dateOnly?_iff htype ho).mp (hmoment htype))
      | lastDay _ _ _ hatom => cases (hatom affirmed).symm.trans hb
      | read _ _ _ hatom =>
          obtain ⟨w, hw, rfl⟩ := map_eq_ok_iff.mp ((hatom affirmed).symm.trans hb)
          exact form_ofValue htextual h hv hw c

theorem form_like (o : Operator) (s t : Text) (c : Column) :
    (like o s).form c = (like o t).form c := by
  simp only [form, pieces, likePieces, List.map_append, List.map_cons, Piece.erased]

/-- An operator makes terms of the same form from values that read alike. -/
theorem forms_ofOperator (h : f.ReadsAlike o s t) {as bs : List Atom}
    (hs : ofOperator f o s = .ok as) (ht : ofOperator f o t = .ok bs) (c : Column) :
    as.map (form c) = bs.map (form c) := by
  have hequality : ∀ affirmed a b, o.isEquality = true → ofEquality f affirmed s = .ok a →
      ofEquality f affirmed t = .ok b → a.form c = b.form c :=
    fun _ _ _ ho ha hb ↦ form_ofEquality ho h ha hb c
  have hordering : o.isOrdering = true → as.map (form c) = bs.map (form c) := by
    intro ho
    rw [Operator.atoms_of_isOrdering ho, bind_eq_ok_iff] at hs ht
    obtain ⟨v, -, hs⟩ := hs
    obtain ⟨w, -, ht⟩ := ht
    obtain ⟨a, ha, hs⟩ := bind_eq_ok_iff.mp hs
    obtain ⟨b, hb, ht⟩ := bind_eq_ok_iff.mp ht
    cases hs
    cases ht
    rw [eq_compare_of_ofComparison ha, eq_compare_of_ofComparison hb]
    rfl
  cases o with
  | equals =>
      obtain ⟨a, ha, rfl⟩ := map_eq_ok_iff.mp hs
      obtain ⟨b, hb, rfl⟩ := map_eq_ok_iff.mp ht
      simp only [List.map_cons, List.map_nil, hequality true a b rfl ha hb]
  | notEquals =>
      obtain ⟨a, ha, rfl⟩ := map_eq_ok_iff.mp hs
      obtain ⟨b, hb, rfl⟩ := map_eq_ok_iff.mp ht
      simp only [List.map_cons, List.map_nil, hequality false a b rfl ha hb]
  | contains | startsWith | endsWith =>
      cases hs
      cases ht
      exact congrArg ([·]) (form_like _ s t c)
  | greaterThan | greaterOrEqual | lessThan | lessOrEqual => exact hordering rfl

end Atom

/-! ## Filters and searches -/

/-- Filters that ask the same of the same field, with values that read alike. -/
structure Filter.SameForm (schema : Schema) (f g : Filter) : Prop where
  field : schema.resolve? f.field = schema.resolve? g.field
  operator : f.operator = g.operator
  values : ∀ field ∈ schema.resolve? f.field,
    List.Forall₂ (field.ReadsAlike f.operator) f.values g.values

theorem Filter.forms_group {table : Table} {f g : Filter} (h : f.SameForm table.schema g)
    {group group' : List Term} (hf : f.group table = .ok group) (hg : g.group table = .ok group') :
    group.map Term.form = group'.map Term.form := by
  obtain ⟨field, hfield, hf⟩ := bind_eq_ok_iff.mp hf
  have hresolve := Schema.require_eq_ok_iff.mp hfield
  have hvalues := h.values field hresolve
  rw [group_eq (h.field ▸ hresolve), ← h.operator, map_eq_ok_iff] at hg
  obtain ⟨atoms, hatoms, hf⟩ := bind_eq_ok_iff.mp hf
  obtain ⟨atoms', hatoms', rfl⟩ := hg
  cases hf
  have hforms := map_eq_of_mapM_eq_ok (List.map (Atom.form ⟨table.name, field⟩)) hvalues
    (fun _ _ _ _ hread has hbs ↦ Atom.forms_ofOperator hread has hbs _) hatoms hatoms'
  have hterm : ∀ as : List Atom, (as.map (Term.mk ⟨table.name, field⟩)).map Term.form =
      as.map (Atom.form ⟨table.name, field⟩) := fun as ↦ List.map_map
  rw [hterm, hterm, List.map_flatten, List.map_flatten, hforms]

/-- Searches in the same columns. -/
def Search.SameForm (schema : Schema) (p q : Search) : Prop :=
  List.Forall₂ (fun a b ↦ schema.resolve? a = schema.resolve? b) p.fields q.fields

theorem Search.forms_group {table : Table} {p q : Search} (h : p.SameForm table.schema q)
    {group group' : List Term} (hp : p.group table = .ok group) (hq : q.group table = .ok group') :
    group.map Term.form = group'.map Term.form := by
  obtain ⟨fields, hfields, hp⟩ := bind_eq_ok_iff.mp hp
  obtain ⟨fields', hfields', hq⟩ := bind_eq_ok_iff.mp hq
  cases hp
  cases hq
  have hsame := map_eq_of_mapM_eq_ok id h
    (fun a b f g hab hf hg ↦ Option.some.inj <|
      (Schema.require_eq_ok_iff.mp hf).symm.trans (hab.trans (Schema.require_eq_ok_iff.mp hg)))
    hfields hfields'
  rw [List.map_id, List.map_id] at hsame
  rw [hsame, List.map_map, List.map_map]
  exact List.map_congr_left fun f _ ↦ Atom.form_like .contains p.value q.value ⟨table.name, f⟩

/-! ## Specifications -/

/-- Specifications that ask the same of the same fields, with values that read alike. -/
structure Specification.SameForm (schema : Schema) (s t : Specification) : Prop where
  filters : List.Forall₂ (Filter.SameForm schema) s.filters t.filters
  search : Option.Rel (Search.SameForm schema) s.search t.search
  sortField : schema.resolve? s.sort.field = schema.resolve? t.sort.field
  direction : s.sort.direction = t.sort.direction

namespace Specification

variable {table : Table} {s t : Specification}

theorem forms_clause (h : s.SameForm table.schema t) {c d : Clause}
    (hc : s.clause table = .ok c) (hd : t.clause table = .ok d) :
    c.map (List.map Term.form) = d.map (List.map Term.form) := by
  obtain ⟨groups, hgroups, hc⟩ := bind_eq_ok_iff.mp hc
  obtain ⟨groups', hgroups', hd⟩ := bind_eq_ok_iff.mp hd
  have hfilters := map_eq_of_mapM_eq_ok (List.map Term.form) h.filters
    (fun _ _ _ _ hform hf hg ↦ Filter.forms_group hform hf hg) hgroups hgroups'
  have hsearch := h.search
  generalize s.search = p, t.search = q at hsearch hc hd
  cases hsearch with
  | none =>
      cases hc
      cases hd
      exact hfilters
  | some hform =>
      obtain ⟨group, hp, hc⟩ := bind_eq_ok_iff.mp hc
      obtain ⟨group', hq, hd⟩ := bind_eq_ok_iff.mp hd
      cases hc
      cases hd
      rw [List.map_append, List.map_append, hfilters, List.map_singleton, List.map_singleton,
        Search.forms_group hform hp hq]

end Specification

/-! ## Columns -/

theorem Schema.mem_of_require_eq {schema : Schema} {code : ErrorCode} {name : Text} {f : Field}
    (h : schema.require code name = .ok f) : f ∈ schema.fields :=
  mem_of_resolve?_eq (require_eq_ok_iff.mp h)

section

variable {table : Table}

theorem Filter.isOf_group {f : Filter} {group : List Term} (h : f.group table = .ok group) :
    ∀ t ∈ group, t.column.IsOf table := by
  obtain ⟨field, hfield, h⟩ := bind_eq_ok_iff.mp h
  obtain ⟨atoms, -, h⟩ := bind_eq_ok_iff.mp h
  cases h
  intro t ht
  obtain ⟨a, -, rfl⟩ := List.mem_map.mp ht
  exact ⟨rfl, Schema.mem_of_require_eq hfield⟩

theorem Search.isOf_group {q : Search} {group : List Term} (h : q.group table = .ok group) :
    ∀ t ∈ group, t.column.IsOf table := by
  obtain ⟨fields, hfields, h⟩ := bind_eq_ok_iff.mp h
  cases h
  intro t ht
  obtain ⟨f, hf, rfl⟩ := List.mem_map.mp ht
  obtain ⟨name, -, hname⟩ := exists_of_mem_mapM hfields hf
  exact ⟨rfl, Schema.mem_of_require_eq hname⟩

theorem Specification.isOf_clause {s : Specification} {c : Clause}
    (h : s.clause table = .ok c) : ∀ group ∈ c, ∀ t ∈ group, t.column.IsOf table := by
  obtain ⟨groups, hgroups, h⟩ := bind_eq_ok_iff.mp h
  have hfilters : ∀ group ∈ groups, ∀ t ∈ group, t.column.IsOf table := by
    intro group hgroup
    obtain ⟨f, -, hf⟩ := exists_of_mem_mapM hgroups hgroup
    exact Filter.isOf_group hf
  generalize s.search = q at h
  cases q with
  | none =>
      cases h
      exact hfilters
  | some q =>
      obtain ⟨group, hgroup, h⟩ := bind_eq_ok_iff.mp h
      cases h
      rw [List.forall_mem_append, List.forall_mem_singleton]
      exact ⟨hfilters, Search.isOf_group hgroup⟩

theorem Sorting.isOf_terms {s : Sorting} {ts : List OrderTerm} (h : s.terms table = .ok ts) :
    ∀ t ∈ ts, t.column.IsOf table := by
  obtain ⟨f, hf, h⟩ := bind_eq_ok_iff.mp h
  have hmem := Schema.mem_of_require_eq hf
  cases hkey : table.schema.identifier? with
  | none =>
      rw [hkey] at h
      cases h
      rw [List.forall_mem_singleton]
      exact ⟨rfl, hmem⟩
  | some key =>
      have hkeyMem : key ∈ table.schema.fields := List.mem_of_find?_eq_some hkey
      simp only [hkey] at h
      split at h
      · cases h
        rw [List.forall_mem_singleton]
        exact ⟨rfl, hmem⟩
      · cases h
        rw [List.forall_mem_cons, List.forall_mem_singleton]
        exact ⟨⟨rfl, hmem⟩, rfl, hkeyMem⟩

end

/-- An order has no values to be bound. -/
theorem OrderTerm.placeholder_notMem_text {table : Table}
    (hnames : ∀ name ∈ table.names, '?' ∉ name) {t : OrderTerm} (h : t.column.IsOf table) :
    '?' ∉ t.text := by
  have hsub := h.names_subset
  rw [List.cons_subset, List.cons_subset] at hsub
  have hdirection : '?' ∉ directionText t.direction ∧ '?' ∉ nullsText t.direction := by
    cases t.direction <;> decide
  have hdot : '?' ≠ '.' := by decide
  unfold text Column.text
  split <;>
    simp only [List.mem_append, List.mem_cons, List.not_mem_nil, hnames _ hsub.1,
      hnames _ hsub.2.1, hdirection, hdot, or_self, not_false_eq_true]

namespace Specification

theorem terms_eq {table : Table} {s t : Specification} (h : s.SameForm table.schema t)
    {ts us : List OrderTerm} (hs : s.sort.terms table = .ok ts) (ht : t.sort.terms table = .ok us) :
    ts = us := by
  obtain ⟨f, hf, hs⟩ := bind_eq_ok_iff.mp hs
  obtain ⟨g, hg, ht⟩ := bind_eq_ok_iff.mp ht
  rw [Schema.require_eq_ok_iff] at hf hg
  have hfg : f = g := Option.some.inj (hf.symm.trans (h.sortField.trans hg))
  subst hfg
  rw [h.direction] at hs
  exact Except.ok.inj (hs.symm.trans ht)

/-- What a client sends is not in the text of a statement: requests of the same form are the same
text, which is written from names of the table and a question mark for every value to be bound, in
the order of these values. -/
theorem text_hides_values (table : Table) :
    (∀ s t : Specification, s.SameForm table.schema t →
      (∀ c d, s.clause table = .ok c → t.clause table = .ok d →
        c.text = d.text ∧ c.params.length = d.params.length ∧
          c.pieces.map Piece.erased = d.pieces.map Piece.erased) ∧
      ∀ ts us, s.sort.terms table = .ok ts → t.sort.terms table = .ok us →
        ts.map OrderTerm.text = us.map OrderTerm.text) ∧
    ∀ s : Specification,
      (∀ c, s.clause table = .ok c →
        c.pieces.flatMap Piece.text = c.text ∧ c.pieces.flatMap Piece.values = c.params ∧
          (∀ p ∈ c.pieces, p.IsOf table.names) ∧
          ((∀ name ∈ table.names, '?' ∉ name) → c.text.count '?' = c.params.length)) ∧
      ∀ ts, s.sort.terms table = .ok ts → (∀ name ∈ table.names, '?' ∉ name) →
        ∀ t ∈ ts, '?' ∉ t.text := by
  refine ⟨fun s t hform ↦ ⟨?_, ?_⟩, fun s ↦ ⟨?_, ?_⟩⟩
  · intro c d hc hd
    have hforms := forms_clause hform hc hd
    have hpieces : c.pieces.map Piece.erased = d.pieces.map Piece.erased := by
      rw [Clause.map_erased_pieces, Clause.map_erased_pieces, hforms]
    obtain ⟨htext, hlength⟩ := Piece.text_eq_of_erased_eq hpieces
    rw [Clause.flatMap_text_pieces, Clause.flatMap_text_pieces] at htext
    rw [Clause.flatMap_values_pieces, Clause.flatMap_values_pieces] at hlength
    exact ⟨htext, hlength, hpieces⟩
  · intro ts us hts hus
    rw [terms_eq hform hts hus]
  · intro c hc
    have hpieces := Clause.isOf_pieces (isOf_clause hc)
    refine ⟨c.flatMap_text_pieces, c.flatMap_values_pieces, hpieces, ?_⟩
    intro hnames
    rw [← c.flatMap_text_pieces, ← c.flatMap_values_pieces]
    exact Piece.count_flatMap_text hnames hpieces
  · intro ts hts hnames t ht
    exact OrderTerm.placeholder_notMem_text hnames (Sorting.isOf_terms hts t ht)

/-- A quote that would end a literal, and a question mark, where a name is asked for. -/
theorem text_hides_values_quote :
    let asks (t : Text) : Specification := ⟨Pagination.standard, ⟨"id".toList, .ascending⟩,
      some ⟨t, ["email".toList]⟩, [⟨"name".toList, [t], .notEquals⟩]⟩
    (asks "x' OR '1'='1".toList).SameForm Catalog.customers.schema (asks "?".toList) ∧
      ∃ c d, (asks "x' OR '1'='1".toList).clause Catalog.customers = .ok c ∧
        (asks "?".toList).clause Catalog.customers = .ok d ∧ c.params ≠ d.params ∧
        c.text = d.text ∧ c.text.count '?' = c.params.length := by
  intro asks
  have hreads : ∀ f ∈ Catalog.customers.schema.resolve? "name".toList,
      f.ReadsAlike .notEquals "x' OR '1'='1".toList "?".toList := by
    have hfield : Catalog.customers.schema.resolve? "name".toList =
        some (Catalog.field "name" .text) := by decide +kernel
    intro f hf
    cases hfield.symm.trans hf
    exact ⟨nofun, nofun⟩
  have hform : (asks "x' OR '1'='1".toList).SameForm Catalog.customers.schema
      (asks "?".toList) :=
    ⟨.cons ⟨rfl, rfl, fun f hf ↦ .cons (hreads f hf) .nil⟩ .nil, .some (.cons rfl .nil), rfl, rfl⟩
  obtain ⟨hsame, hwritten⟩ := text_hides_values Catalog.customers
  have hclause : ∀ t : Text, ∃ c, (asks t).clause Catalog.customers = .ok c ∧
      c.params = [.text (Text.lower t), .text (Pattern.escaped t)] := fun t ↦ ⟨_, rfl, rfl⟩
  obtain ⟨c, hc, hcparams⟩ := hclause "x' OR '1'='1".toList
  obtain ⟨d, hd, hdparams⟩ := hclause "?".toList
  refine ⟨hform, c, d, hc, hd, ?_, ((hsame _ _ hform).1 c d hc hd).1, ?_⟩
  · have hlower : Text.lower "x' OR '1'='1".toList ≠ Text.lower "?".toList := by decide
    rw [hcparams, hdparams]
    exact fun h ↦ hlower (Value.text.inj (List.cons.inj h).1)
  · exact ((hwritten _).1 c hc).2.2.2 (by decide)

end Specification

end RecordQuery
