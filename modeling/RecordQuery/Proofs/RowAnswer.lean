import RecordQuery.Proofs.Database.Listing
import RecordQuery.Proofs.Number.Range
import RecordQuery.Proofs.WrittenValue
import RecordQuery.Service

namespace RecordQuery

/-!
# The answer to a request for one row

A customer is asked for by a text behind the path of the list. The answer is
the row with the number that the text is read as, or that there is no such
row; nothing else can happen, whatever the text is.
-/

/-! ## Rows of customers -/

/-- A row that the table of the customers can hold: its identifier has 64 bits, and its credit
limit ten digits before the point. -/
structure Record.IsCustomer (r : Record) : Prop where
  isTyped : r.IsTyped Catalog.customers.schema
  id : ∃ n, r.value "id".toList = .int n ∧ fitsInt64 n = true
  creditLimit : ∀ d, r.value "credit_limit".toList = .decimal d → d.magnitude < 10 ^ 10

namespace Record.IsCustomer

variable {r : Record} {n : Int}

theorem exists_id (h : r.IsCustomer) : ∃ n, r.value "id".toList = .int n :=
  h.id.imp fun _ hn ↦ hn.1

theorem fitsInt64_of_id (h : r.IsCustomer) (hn : r.value "id".toList = .int n) :
    fitsInt64 n = true := by
  obtain ⟨m, hm, hfits⟩ := h.id
  cases hm.symm.trans hn
  exact hfits

end Record.IsCustomer

theorem Value.HasType.hasForm_stored {type : FieldType} {v : Value} (h : v.HasType type)
    (htype : type.isExact = true) : v.stored.toWire.hasForm = true := by
  cases h with
  | text | int | bool | date | moment | zoned => rfl
  | float | decimal | uuid => cases htype

/-- The only numbers of a customer that are sent as binary numbers are credit limits. -/
theorem Record.IsCustomer.hasForm_stored {r : Record} (h : r.IsCustomer) :
    r.stored.hasForm Service.customerSchema = true := by
  have htypes : ∀ f ∈ Catalog.customers.schema.fields,
      f.type.isExact = true ∨ f.type = .decimal ∧ f.name = "credit_limit".toList := by
    decide +kernel
  rw [hasForm, wireEntries, List.all_map, List.all_eq_true]
  intro f hf
  rw [Function.comp_apply, value_stored]
  rcases h.isTyped f hf with hnull | hv
  · rw [hnull]
    rfl
  · rcases htypes f hf with hexact | ⟨hdecimal, hname⟩
    · exact hv.hasForm_stored hexact
    · rw [hdecimal, hname] at hv
      rw [hname]
      generalize hvalue : r.value "credit_limit".toList = v at hv
      cases hv with
      | decimal d =>
          have hlt : d.magnitude < 2 ^ 100 := (h.creditLimit d hvalue).trans (by norm_num)
          exact Value.hasForm_stored_decimal hlt

/-! ## Rows by their identifiers -/

namespace Repository

variable {r : Repository} {rows : List Record} {key : Field} {name : Text} {n : Int}

/-- Where rows differ in their identifiers, a row is found by its own. -/
theorem find?_eq_some_iff (hints : ∀ row ∈ rows, ∃ m, row.value name = .int m)
    (hids : rows.Pairwise fun a b ↦ a.value name ≠ b.value name) {row : Record} :
    rows.find? (fun row ↦ Cell.ofValue (row.value name) = .integer n) = some row ↔
      row ∈ rows ∧ row.value name = .int n := by
  have hcell : ∀ row ∈ rows,
      Cell.ofValue (row.value name) = .integer n ↔ row.value name = .int n := by
    intro row hrow
    obtain ⟨m, hm⟩ := hints row hrow
    rw [hm, Cell.ofValue, Cell.integer.injEq, Value.int.injEq]
  constructor
  · intro h
    have hmem := List.mem_of_find?_eq_some h
    have hfound := List.find?_some h
    exact ⟨hmem, (hcell row hmem).mp (of_decide_eq_true hfound)⟩
  · rintro ⟨hrow, hn⟩
    obtain ⟨other, hother⟩ : ∃ other,
        rows.find? (fun row ↦ Cell.ofValue (row.value name) = .integer n) = some other := by
      rw [← Option.isSome_iff_exists, List.find?_isSome]
      exact ⟨row, hrow, decide_eq_true ((hcell row hrow).mpr hn)⟩
    have hmem := List.mem_of_find?_eq_some hother
    have hfound := List.find?_some hother
    have hvalue := (hcell other hmem).mp (of_decide_eq_true hfound)
    rw [hother, List.inj_on_of_nodup_map (List.pairwise_map.mpr hids) hmem hrow
      (hvalue.trans hn.symm)]

theorem get_eq (hkey : r.table.schema.identifier? = some key) (hfits : fitsInt64 n = true) :
    r.get n = .ok ((r.rows.find? fun row ↦ Cell.ofValue (row.value key.name) = .integer n).map
      Record.stored) := by
  rw [get, if_pos hfits, hkey]

section

variable (hkey : r.table.schema.identifier? = some key)
  (hints : ∀ row ∈ r.rows, ∃ m, row.value key.name = .int m)
  (hids : r.rows.Pairwise fun a b ↦ a.value key.name ≠ b.value key.name)
  (hfits : fitsInt64 n = true)
include hkey hints hids hfits

theorem get_eq_some {row : Record} (hrow : row ∈ r.rows) (hn : row.value key.name = .int n) :
    r.get n = .ok (some row.stored) := by
  rw [get_eq hkey hfits, (find?_eq_some_iff hints hids).mpr ⟨hrow, hn⟩]
  rfl

theorem get_eq_none (hnone : ∀ row ∈ r.rows, row.value key.name ≠ .int n) :
    r.get n = .ok none := by
  rw [get_eq hkey hfits, Except.ok.injEq, Option.map_eq_none_iff,
    Option.eq_none_iff_forall_ne_some]
  intro row hrow
  obtain ⟨hmem, hn⟩ := (find?_eq_some_iff hints hids).mp hrow
  exact hnone row hmem hn

end

end Repository

/-! ## From the path to the row -/

namespace Route

theorem after?_append (a t : Text) : after? a (a ++ t) = some t := by
  induction a with
  | nil => cases t <;> rfl
  | cons c a ih => rw [List.cons_append, after?, if_pos rfl, ih]

/-- A text without slashes that is not empty names a customer. -/
theorem ofPath?_customer {t : Text} (hne : t ≠ []) (hslash : '/' ∉ t) :
    ofPath? ("/api/customers/".toList ++ t) = some (.customer t) := by
  have hlanding : isAt "/" ("/api/customers/".toList ++ t) = false := by simp [isAt]
  have hhealth : isAt "/health" ("/api/customers/".toList ++ t) = false := by simp [isAt]
  have hlist : isAt "/api/customers" ("/api/customers/".toList ++ t) = false := by simp [isAt]
  rw [ofPath?, hlanding, hhealth, hlist, after?_append]
  simp [hne, hslash]

end Route

namespace Service

variable {engine : Engine} {rows : List Record} {t : Text} {n : Int}

theorem identifier?_customers : customerSchema.identifier? = some (Catalog.key "id") := by
  decide +kernel

theorem isWholeNumeral_of_read (h : (Catalog.key "id").read t = .ok (.int n)) :
    IsWholeNumeral (Literal.withPoints (Text.trim t)) n ∧ fitsInt64 n = true := by
  obtain ⟨⟨hnumeral, -, hfits⟩, -⟩ := (((Catalog.key "id").read_int_iff rfl t).1 n).mp h
  exact ⟨hnumeral, hfits⟩

/-- The numeral of a number that is too large is not read as any number. -/
theorem read_ne_of_isWholeNumeral (h : IsWholeNumeral (Literal.withPoints (Text.trim t)) n)
    (hwide : fitsInt64 n = false) (m : Int) : (Catalog.key "id").read t ≠ .ok (.int m) := by
  intro hm
  obtain ⟨hnumeral, hfits⟩ := isWholeNumeral_of_read hm
  have hmn : some m = some n :=
    (readInt?_eq_some_iff.mpr hnumeral).symm.trans (readInt?_eq_some_iff.mpr h)
  rw [Option.some.inj hmn, hwide] at hfits
  cases hfits

theorem read_ofInt (h : fitsInt64 n = true) :
    (Catalog.key "id").read (Text.ofInt n) = .ok (.int n) := by
  have hblank : ∀ c ∈ Text.ofInt n, Text.isBlank c = false :=
    Text.forall_mem_of_subset_figures (by decide) (Text.ofInt_subset_figures n)
  have htrim : Text.trim ([] ++ Text.ofInt n ++ []) = Text.ofInt n :=
    Text.trim_append_append nofun hblank nofun
  rw [List.nil_append, List.append_nil] at htrim
  have hwritten : (Value.int n).written = .ok (Text.trim (Text.ofInt n)) := by
    rw [htrim]
    exact Value.plain_int (Value.natAbs_lt_intBound h)
  exact Field.read_eq_ok_iff.mpr (Literal.read_of_trim (.int h) hwritten)

/-- A request to read is never a preflight. -/
theorem answerFirst_of_get {r : Request} (h : r.method = "GET".toList) :
    answerFirst engine rows r = answer engine rows r := by
  have hmethod : r.method ≠ "OPTIONS".toList := by
    rw [h]
    decide
  unfold answerFirst
  split
  · rw [if_neg hmethod]
  · rfl

theorem respond_of_getRow {r : Request} (hmethod : r.method = "GET".toList)
    (hpath : Route.ofPath? r.path = some (.customer t)) {status : Nat} {body : Body}
    (h : getRow engine rows t = .ok (status, body)) :
    respond engine rows r = ⟨status, body, some r.id, none⟩ := by
  have hanswer : answer engine rows r = .ok (status, body) := by
    rw [answer, hpath]
    dsimp only
    rw [if_pos hmethod, answerRoute, h]
  rw [respond, answerFirst_of_get hmethod, hanswer]

section

variable (hrows : ∀ r ∈ rows, r.IsCustomer)
  (hids : rows.Pairwise fun a b ↦ a.value "id".toList ≠ b.value "id".toList)
include hrows hids

theorem getRow_eq_found (ht : (Catalog.key "id").read t = .ok (.int n)) {r : Record}
    (hr : r ∈ rows) (hn : r.value "id".toList = .int n) :
    getRow engine rows t = .ok (200, .object (r.stored.toWire customerSchema)) := by
  have hget : (repository engine rows).get n = .ok (some r.stored) :=
    Repository.get_eq_some identifier?_customers (fun row h ↦ (hrows row h).exists_id) hids
      (isWholeNumeral_of_read ht).2 hr hn
  rw [getRow, identifier?_customers]
  dsimp only
  rw [Field.read_eq_ok_iff.mp ht]
  dsimp only
  rw [hget]
  change (if r.stored.hasForm customerSchema = true then _ else _) = _
  rw [if_pos (hrows r hr).hasForm_stored]
  rfl

/-- A text that is read as the identifier of no row, or not at all. -/
theorem getRow_eq_missing (h : ∀ n, (Catalog.key "id").read t = .ok (.int n) →
    ∀ r ∈ rows, r.value "id".toList ≠ .int n) : getRow engine rows t = .ok recordNotFound := by
  rw [getRow, identifier?_customers]
  dsimp only
  split
  · next n hn =>
      have ht : (Catalog.key "id").read t = .ok (.int n) := Field.read_eq_ok_iff.mpr hn
      have hget : (repository engine rows).get n = .ok none :=
        Repository.get_eq_none identifier?_customers (fun row h ↦ (hrows row h).exists_id) hids
          (isWholeNumeral_of_read ht).2 (h n ht)
      rw [hget]
      rfl
  · rfl

end

/-- The entries of the object that a row is sent as. -/
theorem toWire_stored_customer {r : Record} (hn : r.value "id".toList = .int n) :
    let entry (name : String) : Value × Value :=
      (.text name.toList, (r.value name.toList).stored.toWire)
    r.stored.toWire customerSchema = .dict [entry "name", entry "code", entry "email",
      entry "status", entry "employees", entry "credit_limit", entry "is_partner",
      entry "signed_on", (.text "id".toList, .int n), entry "created_at", entry "updated_at"] := by
  have hid : (r.value "id".toList).stored.toWire = .int n := by rw [hn]; rfl
  rw [Record.toWire, Record.wireEntries]
  simp only [Record.value_stored, ← hid]
  rfl

/-- A text that is read as the identifier of a row is answered with that row, field by field, and
every other one with the message that there is no such record: one that cannot be read, one of a
number that is too large, and one of a number that no row has. The decimal digits of an identifier
name its row. -/
theorem respond_customer (engine : Engine) {rows : List Record} (hrows : ∀ r ∈ rows, r.IsCustomer)
    (hids : rows.Pairwise fun a b ↦ a.value "id".toList ≠ b.value "id".toList)
    (query : Text) (headers : List (Text × Text)) :
    let request (t : Text) : Request :=
      ⟨"GET".toList, "/api/customers/".toList ++ t, query, headers⟩
    let entry (r : Record) (name : String) : Value × Value :=
      (.text name.toList, (r.value name.toList).stored.toWire)
    let found (t : Text) (r : Record) (n : Int) : Response :=
      ⟨200, .object (.dict [entry r "name", entry r "code", entry r "email", entry r "status",
          entry r "employees", entry r "credit_limit", entry r "is_partner", entry r "signed_on",
          (.text "id".toList, .int n), entry r "created_at", entry r "updated_at"]),
        some (request t).id, none⟩
    let missing (t : Text) : Response :=
      ⟨404, detail "Record not found".toList, some (request t).id, none⟩
    (∀ t, t ≠ [] → '/' ∉ t →
      (∀ n, (Catalog.key "id").read t = .ok (.int n) → ∀ r ∈ rows, r.value "id".toList = .int n →
        respond engine rows (request t) = found t r n) ∧
      (∀ e, (Catalog.key "id").read t = .error e → respond engine rows (request t) = missing t) ∧
      (∀ n, IsWholeNumeral (Literal.withPoints (Text.trim t)) n → fitsInt64 n = false →
        respond engine rows (request t) = missing t) ∧
      (∀ n, (Catalog.key "id").read t = .ok (.int n) →
        (∀ r ∈ rows, r.value "id".toList ≠ .int n) → respond engine rows (request t) = missing t) ∧
      ((respond engine rows (request t)).status = 200 ∨
        (respond engine rows (request t)).status = 404)) ∧
    ∀ r ∈ rows, ∀ n, r.value "id".toList = .int n →
      respond engine rows (request (Text.ofInt n)) = found (Text.ofInt n) r n := by
  intro request entry found missing
  have hfound : ∀ {t n r}, t ≠ [] → '/' ∉ t → (Catalog.key "id").read t = .ok (.int n) →
      r ∈ rows → r.value "id".toList = .int n →
        respond engine rows (request t) = found t r n := by
    intro t n r hne hslash ht hr hn
    have hrow : getRow engine rows t = .ok (200, .object (r.stored.toWire customerSchema)) :=
      getRow_eq_found hrows hids ht hr hn
    rw [toWire_stored_customer hn] at hrow
    exact respond_of_getRow rfl (Route.ofPath?_customer hne hslash) hrow
  have hmissing : ∀ {t}, t ≠ [] → '/' ∉ t → (∀ n, (Catalog.key "id").read t = .ok (.int n) →
      ∀ r ∈ rows, r.value "id".toList ≠ .int n) → respond engine rows (request t) = missing t :=
    fun hne hslash h ↦ respond_of_getRow rfl (Route.ofPath?_customer hne hslash)
      (getRow_eq_missing hrows hids h)
  constructor
  · intro t hne hslash
    refine ⟨?_, ?_, ?_, ?_, ?_⟩
    · intro n ht r hr hn
      exact hfound hne hslash ht hr hn
    · intro e he
      apply hmissing hne hslash
      intro n ht
      cases he.symm.trans ht
    · intro n hnumeral hwide
      apply hmissing hne hslash
      intro m hm
      exact absurd hm (read_ne_of_isWholeNumeral hnumeral hwide m)
    · intro n ht hnone
      apply hmissing hne hslash
      intro m hm
      cases (ht.symm.trans hm : (.ok (.int n) : Outcome Value) = .ok (.int m))
      exact hnone
    · by_cases h : ∃ n, (Catalog.key "id").read t = .ok (.int n) ∧
          ∃ r ∈ rows, r.value "id".toList = .int n
      · obtain ⟨n, ht, r, hr, hn⟩ := h
        exact Or.inl (congrArg Response.status (hfound hne hslash ht hr hn))
      · refine Or.inr (congrArg Response.status (hmissing hne hslash ?_))
        intro n ht r hr hn
        exact h ⟨n, ht, r, hr, hn⟩
  · intro r hr n hn
    have hfits : fitsInt64 n = true := (hrows r hr).fitsInt64_of_id hn
    have hslash : '/' ∉ Text.ofInt n :=
      fun h ↦ absurd (Text.ofInt_subset_figures n h) (by decide)
    exact hfound (Text.ofInt_ne_nil n) hslash (read_ofInt hfits) hr hn

/-- Two customers, one with the least number of 64 bits: a sign, a zero, a separator and blanks do
not hide an identifier, and what is no number of 64 bits is not found. -/
theorem respond_customer_signed :
    let ada := Catalog.customer 7 "Ada" "C-7" .null
    let bo := Catalog.customer (-2 ^ 63) "Bo" "C-8" (.text "bo@b".toList)
    let request (t : String) : Request :=
      ⟨"GET".toList, "/api/customers/".toList ++ t.toList, [], []⟩
    let found (id : Int) (name code : String) (email : Value) : Response :=
      ⟨200, .object (.object [("name", .text name.toList), ("code", .text code.toList),
          ("email", email), ("status", .text "Active".toList), ("employees", .int 7),
          ("credit_limit", .float (.finite false (100 * 2 ^ 46) (-46))), ("is_partner", .bool true),
          ("signed_on", .text "2024-02-29".toList), ("id", .int id),
          ("created_at", .text "2024-02-29T00:00:00".toList),
          ("updated_at", .text "2024-02-29T00:00:00".toList)]),
        some .generated, none⟩
    let missing : Response := ⟨404, detail "Record not found".toList, some .generated, none⟩
    respond .standard [ada, bo] (request " +0_7\n") = found 7 "Ada" "C-7" .null ∧
      respond .standard [ada, bo] (request "-9223372036854775808") =
        found (-9223372036854775808) "Bo" "C-8" (.text "bo@b".toList) ∧
      respond .standard [ada, bo] (request "9223372036854775808") = missing ∧
      respond .standard [ada, bo] (request "seven") = missing := by
  intro ada bo request found missing
  have htyped : ∀ r ∈ [ada, bo], r.IsTyped Catalog.customers.schema := by decide +kernel
  have hlimit : ∀ d, Value.decimal (Decimal.ofInt 100) = .decimal d → d.magnitude < 10 ^ 10 := by
    rintro d ⟨⟩
    norm_num [Decimal.magnitude, Decimal.ofInt]
  have hrows : ∀ r ∈ [ada, bo], r.IsCustomer := by
    rw [List.forall_mem_cons, List.forall_mem_singleton] at htyped ⊢
    exact ⟨⟨htyped.1, ⟨7, rfl, rfl⟩, hlimit⟩, ⟨htyped.2, ⟨-2 ^ 63, rfl, rfl⟩, hlimit⟩⟩
  have hids : [ada, bo].Pairwise fun a b ↦ a.value "id".toList ≠ b.value "id".toList := by
    have hvalues : ([.int 7, .int (-2 ^ 63)] : List Value).Pairwise (· ≠ ·) := by simp
    exact List.pairwise_map.mp hvalues
  obtain ⟨hnamed, hdigits⟩ := respond_customer .standard hrows hids [] []
  have hseven : (Catalog.key "id").read " +0_7\n".toList = .ok (.int 7) := rfl
  have hwide : IsWholeNumeral "9223372036854775808".toList (2 ^ 63) :=
    readInt?_eq_some_iff.mp (by decide +kernel)
  refine ⟨?_, ?_, ?_, ?_⟩
  · exact (hnamed _ (by decide) (by decide)).1 7 hseven ada List.mem_cons_self rfl
  · exact hdigits bo (List.mem_cons_of_mem ada List.mem_cons_self) (-2 ^ 63) rfl
  · exact (hnamed _ (by decide) (by decide)).2.2.1 (2 ^ 63) hwide rfl
  · exact (hnamed _ (by decide) (by decide)).2.1 _ rfl

end Service

end RecordQuery
