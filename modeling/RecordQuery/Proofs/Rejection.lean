import RecordQuery.Catalog
import RecordQuery.Proofs.Arguments
import RecordQuery.Proofs.Outcome
import RecordQuery.Proofs.Text.Digit
import RecordQuery.Specification.OfArguments

namespace RecordQuery

/-!
# Rejected queries

A query is read, or one of its arguments is rejected. There is one way out
besides: a page number or a page size with few digits after the zeros at
its start, but with so many zeros that it is not read as a number.
-/

open Outcome

def Fault.IsRejection (e : Fault) : Prop := ∃ q, e = .rejected q

def QueryError.IsOfFilter (q : QueryError) : Prop :=
  q.code = .malformedFilterValue ∨ q.code = .unresolvedFilterField

/-- A filter is rejected, for its values and operator or for its field. -/
def Fault.IsOfFilter (e : Fault) : Prop := ∃ q, e = .rejected q ∧ q.IsOfFilter

theorem Fault.IsOfFilter.isRejection {e : Fault} (h : e.IsOfFilter) : e.IsRejection := by
  obtain ⟨q, hq, -⟩ := h
  exact ⟨q, hq⟩

theorem faultsIn_reject {α : Type} (q : QueryError) :
    FaultsIn Fault.IsRejection (reject q : Outcome α) := .of_error ⟨q, rfl⟩

/-! ## Page arguments -/

/-- A number with few digits after its zeros that is written with more digits than are read. -/
def Text.IsOverlong (t : Text) : Prop :=
  (significant (Text.trim t)).length ≤ int64Digits ∧
    ∃ ds, Text.digitValues? (Numeral.takeSign (Text.trim t)).2 = some ds ∧ digitLimit < ds.length

/-- Nothing but the limit of digits stops a page argument from being read or rejected. -/
theorem readPageInt_eq_error_iff {t : Text} {e : Fault} :
    readPageInt t = .error e ↔ e = .tooManyDigits ∧ t.IsOverlong := by
  unfold readPageInt Text.IsOverlong
  dsimp only
  split
  · next d ds hds =>
      simp only [hds, Option.some.injEq, exists_eq_left']
      by_cases hlong : int64Digits < (significant (Text.trim t)).length
      · rw [if_pos hlong]
        simp [Nat.not_le.mpr hlong]
      · rw [if_neg hlong]
        by_cases hlimit : digitLimit < (d :: ds).length
        · rw [if_pos hlimit, Except.error.injEq, eq_comm]
          exact (and_iff_left ⟨Nat.not_lt.mp hlong, hlimit⟩).symm
        · rw [if_neg hlimit]
          exact ⟨nofun, fun h ↦ absurd h.2.2 hlimit⟩
  · next hno =>
      refine ⟨nofun, ?_⟩
      rintro ⟨-, -, ds, hds, hlimit⟩
      cases ds with
      | nil => exact absurd hlimit (by decide)
      | cons d ds => exact absurd hds (hno d ds)

/-- A computation is rejected or, if something holds, stopped by the limit of digits. -/
structure FaultsAt {α : Type} (overlong : Prop) (x : Outcome α) : Prop where
  faultsIn : FaultsIn (fun e ↦ e.IsRejection ∨ e = .tooManyDigits) x
  eq_error_iff : x = .error .tooManyDigits ↔ overlong

namespace FaultsAt

variable {α β : Type}

theorem of_faultsIn {x : Outcome α} (h : FaultsIn Fault.IsRejection x) : FaultsAt False x where
  faultsIn := fun e he ↦ Or.inl (h e he)
  eq_error_iff := by
    refine ⟨fun he ↦ ?_, False.elim⟩
    obtain ⟨q, hq⟩ := h _ he
    cases hq

theorem bind {p q : Prop} {x : Outcome α} {f : α → Outcome β} (hx : FaultsAt p x)
    (hf : ∀ a, FaultsAt q (f a)) : FaultsAt (p ∨ (∃ a, x = .ok a) ∧ q) (x >>= f) where
  faultsIn := hx.faultsIn.bind fun a _ ↦ (hf a).faultsIn
  eq_error_iff := by
    rw [← hx.eq_error_iff]
    cases x with
    | error e =>
        change Except.error e = _ ↔ _
        simp
    | ok a =>
        change f a = _ ↔ _
        simp [(hf a).eq_error_iff]

/-- What comes after the page arguments is rejected at most. -/
theorem bind_of_faultsIn {p : Prop} {x : Outcome α} {f : α → Outcome β} (hx : FaultsAt p x)
    (hf : ∀ a, FaultsIn Fault.IsRejection (f a)) : FaultsAt p (x >>= f) := by
  simpa using hx.bind fun a ↦ of_faultsIn (hf a)

end FaultsAt

theorem faultsAt_readPageInt (t : Text) : FaultsAt t.IsOverlong (readPageInt t) where
  faultsIn := fun _ he ↦ Or.inr (readPageInt_eq_error_iff.mp he).1
  eq_error_iff := readPageInt_eq_error_iff.trans (and_iff_right rfl)

namespace Pagination

theorem faultsAt_numberOf (args : Arguments) :
    FaultsAt (∃ t ∈ args.get? pageNumberKey, t.IsOverlong) (numberOf args) := by
  unfold numberOf
  cases args.get? pageNumberKey with
  | none => simpa using FaultsAt.of_faultsIn (.of_ok firstNumber)
  | some t =>
      simp only [Option.mem_some_iff, exists_eq_left']
      apply (faultsAt_readPageInt t).bind_of_faultsIn
      rintro (_ | n)
      · exact faultsIn_reject _
      · dsimp only
        split
        · exact .of_ok _
        · exact faultsIn_reject _

theorem faultsAt_sizeOf (args : Arguments) :
    FaultsAt (∃ t ∈ args.get? pageSizeKey, t.IsOverlong) (sizeOf args) := by
  unfold sizeOf
  cases args.get? pageSizeKey with
  | none =>
      simpa using FaultsAt.of_faultsIn
        (.of_ok (⟨standardSize, standardSize_pos⟩ : {n : Nat // 0 < n}))
  | some t =>
      simp only [Option.mem_some_iff, exists_eq_left']
      apply (faultsAt_readPageInt t).bind_of_faultsIn
      rintro (_ | n)
      · exact faultsIn_reject _
      · dsimp only
        split
        · exact .of_ok _
        · exact faultsIn_reject _

/-- The page number, or behind a page number that is read the page size, is overlong. -/
def IsOverlong (args : Arguments) : Prop :=
  (∃ t ∈ args.get? pageNumberKey, t.IsOverlong) ∨
    (∃ n, numberOf args = .ok n) ∧ ∃ t ∈ args.get? pageSizeKey, t.IsOverlong

theorem faultsAt_ofArguments (args : Arguments) :
    FaultsAt (IsOverlong args) (ofArguments args) := by
  apply (faultsAt_numberOf args).bind
  intro number
  apply (faultsAt_sizeOf args).bind_of_faultsIn
  intro size
  dsimp only
  split
  · exact faultsIn_reject _
  · exact .of_ok _

end Pagination

/-! ## Order and quick search -/

theorem Sorting.faultsIn_ofArguments (schema : Schema) (defaultField : Text) (args : Arguments) :
    FaultsIn Fault.IsRejection (ofArguments schema defaultField args) := by
  have hdirection : FaultsIn Fault.IsRejection (directionOf args) := by
    unfold directionOf
    split
    · exact .of_ok _
    · split
      · exact .of_ok _
      · exact faultsIn_reject _
  unfold ofArguments
  dsimp only
  split
  · exact faultsIn_reject _
  · exact hdirection.map _

namespace Search

theorem faultsIn_columns (schema : Schema) (found columnNames : List Text) :
    FaultsIn Fault.IsRejection (columns schema found columnNames) := by
  induction columnNames generalizing found with
  | nil => exact .of_ok found
  | cons column rest ih =>
      rw [columns]
      split
      · exact faultsIn_reject _
      · exact ih _

theorem faultsIn_ofText (schema : Schema) (t : Text) :
    FaultsIn Fault.IsRejection (ofText schema t) := by
  unfold ofText
  split
  · split
    · exact faultsIn_reject _
    · exact .of_ok _
  · split
    · exact faultsIn_reject _
    · split
      · exact faultsIn_reject _
      · exact (faultsIn_columns schema [] _).map _

theorem faultsIn_ofArguments (schema : Schema) (args : Arguments) :
    FaultsIn Fault.IsRejection (ofArguments schema args) := by
  unfold ofArguments
  split
  · exact .of_ok none
  · exact (faultsIn_ofText schema _).map some

end Search

/-! ## Filters -/

theorem faultsIn_rejectFilter {α : Type} {q : QueryError} (h : q.IsOfFilter) :
    FaultsIn Fault.IsOfFilter (reject q : Outcome α) := .of_error ⟨q, rfl, h⟩

/-- A literal of a field is rejected under the name of the field. -/
def Field.IsMisread (f : Field) (e : Fault) : Prop :=
  ∃ kind, e = .rejected (.badLiteral f.name kind)

theorem Field.IsMisread.isOfFilter {f : Field} {e : Fault} (h : f.IsMisread e) : e.IsOfFilter := by
  obtain ⟨kind, hkind⟩ := h
  exact ⟨_, hkind, Or.inl rfl⟩

/-- A literal of any length and alphabet is read or rejected. -/
theorem Field.faultsIn_read (f : Field) (t : Text) : FaultsIn f.IsMisread (f.read t) := by
  unfold read
  split
  · exact .of_ok _
  · next kind _ => exact .of_error ⟨kind, rfl⟩

namespace Filter

theorem faultsIn_readAll (f : Field) (ts : List Text) :
    FaultsIn f.IsMisread (readAll f ts) := by
  induction ts with
  | nil => exact .of_ok []
  | cons t ts ih =>
      apply (f.faultsIn_read t).bind
      intro v _
      exact ih.bind fun vs _ ↦ .of_ok (v :: vs)

theorem faultsIn_ofArgument (schema : Schema) (registry : Registry) (name t : Text) :
    FaultsIn Fault.IsOfFilter (ofArgument schema registry name t) := by
  unfold ofArgument
  split
  · exact faultsIn_rejectFilter (Or.inl rfl)
  · split
    · exact faultsIn_rejectFilter (Or.inl rfl)
    · split
      · exact faultsIn_rejectFilter (Or.inl rfl)
      · split
        · exact faultsIn_rejectFilter (Or.inr rfl)
        · dsimp only
          split
          · exact .of_ok _
          · exact ((faultsIn_readAll _ _).mono fun _ ↦ Field.IsMisread.isOfFilter).map _

theorem faultsIn_ofArguments (schema : Schema) (registry : Registry) (args : Arguments) :
    FaultsIn Fault.IsOfFilter (ofArguments schema registry args) :=
  FaultsIn.mapM fun a _ ↦ faultsIn_ofArgument schema registry a.1 a.2

end Filter

/-! ## Queries -/

namespace Specification

theorem faultsAt_ofQuery (schema : Schema) (defaultSort : Text) (registry : Registry)
    (query : Text) : FaultsAt (Pagination.IsOverlong (Arguments.ofQuery query))
      (ofQuery schema defaultSort registry query) := by
  apply (Pagination.faultsAt_ofArguments _).bind_of_faultsIn
  intro pagination
  apply (Sorting.faultsIn_ofArguments schema defaultSort _).bind
  intro sort _
  apply (Search.faultsIn_ofArguments schema _).bind
  intro search _
  have hfilters := Filter.faultsIn_ofArguments schema registry (Arguments.ofQuery query)
  exact (hfilters.mono fun _ ↦ Fault.IsOfFilter.isRejection).bind fun filters _ ↦ .of_ok _

/-- A query is read or one of its arguments is rejected, and whatever its texts are, nothing else
happens unless a page argument is overlong. -/
theorem ofQuery_rejected_or_overlong (schema : Schema) (defaultSort : Text) (registry : Registry)
    (query : Text) :
    ((∃ s, ofQuery schema defaultSort registry query = .ok s) ∨
        (∃ q, ofQuery schema defaultSort registry query = .error (.rejected q)) ∨
        ofQuery schema defaultSort registry query = .error .tooManyDigits) ∧
      (ofQuery schema defaultSort registry query = .error .tooManyDigits ↔
        Pagination.IsOverlong (Arguments.ofQuery query)) := by
  have hfaults := faultsAt_ofQuery schema defaultSort registry query
  refine ⟨?_, hfaults.eq_error_iff⟩
  cases h : ofQuery schema defaultSort registry query with
  | ok s => exact Or.inl ⟨s, rfl⟩
  | error e =>
      right
      rcases hfaults.faultsIn e h with ⟨q, rfl⟩ | rfl
      · exact Or.inl ⟨q, rfl⟩
      · exact Or.inr rfl

end Specification

/-! ## Zeros before a page number -/

namespace Text

/-- Nine, written with some zeros before it. -/
def nineAfter (zeros : Nat) : Text := List.replicate zeros '0' ++ ['9']

theorem eq_of_mem_nineAfter {n : Nat} {c : Char} (h : c ∈ nineAfter n) : c = '0' ∨ c = '9' := by
  rcases List.mem_append.mp h with hc | hc
  · exact Or.inl (List.eq_of_mem_replicate hc)
  · exact Or.inr (List.mem_singleton.mp hc)

theorem digitValues?_nineAfter (n : Nat) :
    digitValues? (nineAfter n) = some (List.replicate n 0 ++ [9]) :=
  digitValues?_append_eq_some_iff.mpr ⟨_, _, digitValues?_replicate_zero n, rfl, rfl⟩

theorem takeSign_nineAfter (n : Nat) : Numeral.takeSign (nineAfter n) = (false, nineAfter n) := by
  cases n <;> rfl

theorem significant_nineAfter (n : Nat) : significant (nineAfter n) = ['9'] := by
  have hsigns : stripLeft (fun c ↦ c = '+' || c = '-') (nineAfter n) = nineAfter n := by
    cases n <;> rfl
  rw [significant, hsigns, stripLeft, nineAfter, List.dropWhile_append_of_pos]
  · rfl
  · intro c hc
    rw [List.eq_of_mem_replicate hc]
    rfl

theorem isOverlong_nineAfter {n : Nat} (h : digitLimit ≤ n) : IsOverlong (nineAfter n) := by
  have htrim : trim (nineAfter n) = nineAfter n := by
    apply trim_of_forall
    intro c hc
    rcases eq_of_mem_nineAfter hc with rfl | rfl <;> decide
  rw [IsOverlong, htrim, significant_nineAfter, takeSign_nineAfter]
  refine ⟨by decide, _, digitValues?_nineAfter n, ?_⟩
  rw [List.length_append, List.length_replicate]
  exact Nat.lt_succ_of_le h

end Text

namespace Specification

theorem ofQuery_nineAfter (schema : Schema) (defaultSort : Text) (registry : Registry) {n : Nat}
    (h : digitLimit ≤ n) :
    ofQuery schema defaultSort registry ("pageNumber=".toList ++ Text.nineAfter n) =
      .error .tooManyDigits := by
  have hliteral : Text.IsLiteral ("pageNumber=".toList ++ Text.nineAfter n) := by
    refine Text.isLiteral_append.mpr ⟨by decide, fun c hc ↦ ?_⟩
    rcases Text.eq_of_mem_nineAfter hc with rfl | rfl <;> decide
  have hargs : Arguments.ofQuery
      (Text.joinWith ['&'] ["pageNumber=".toList ++ Text.nineAfter n]) =
        [(pageNumberKey, Text.nineAfter n)] := by
    apply Arguments.ofQuery_joinWith_words
    · simpa using (by decide +kernel : pageNumberKey.IsWord)
    · simp [Text.nineAfter]
    · simp
    · rw [List.map_singleton, Text.percentDecode_of_isLiteral hliteral]
      rfl
  rw [Text.joinWith_singleton] at hargs
  rw [(faultsAt_ofQuery schema defaultSort registry _).eq_error_iff, hargs]
  exact Or.inl ⟨_, rfl, Text.isOverlong_nineAfter h⟩

/-- Page nine of the customers, with so many zeros that it is neither read nor rejected. -/
theorem ofQuery_nineAfter_customers :
    ofQuery Catalog.customers.schema "id".toList Registry.standard
      ("pageNumber=".toList ++ Text.nineAfter 4300) = .error .tooManyDigits :=
  ofQuery_nineAfter _ _ _ (Nat.le_refl _)

end Specification

end RecordQuery
