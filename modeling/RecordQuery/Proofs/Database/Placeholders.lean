import Mathlib.Data.List.Forall2
import RecordQuery.Database.Selection
import RecordQuery.Proofs.Database.FilterValues
import RecordQuery.Proofs.Literal
import RecordQuery.Proofs.Operator

namespace RecordQuery

/-!
# The text of a clause and its values

A clause is written down from words of its own, the names of a table and
of its columns, and places for values, each a question mark. What a client
sends under a field is bound at such a place. It does not get into the
text, unless it is a truth value, which is written as a digit, and it does
not change the text but by the choice between a day and a moment.
-/

open Outcome

/-- A piece of a written clause: words, the name of a table or a column, or the place of a
value. -/
inductive Piece where
  | words (t : Text)
  | name (t : Text)
  | place (v : Value)

namespace Piece

def text : Piece → Text
  | words t | name t => t
  | place _ => ['?']

def values : Piece → List Value
  | place v => [v]
  | words _ | name _ => []

/-- The piece without the value that is bound in it. -/
def erased : Piece → Piece
  | place _ => place .null
  | p => p

theorem text_erased (p : Piece) : p.erased.text = p.text := by cases p <;> rfl

theorem length_values_erased (p : Piece) : p.erased.values.length = p.values.length := by
  cases p <;> rfl

/-- Pieces that are the same but for their values make the same text for as many values. -/
theorem text_eq_of_erased_eq {ps qs : List Piece} (h : ps.map erased = qs.map erased) :
    ps.flatMap text = qs.flatMap text ∧
      (ps.flatMap values).length = (qs.flatMap values).length := by
  have htext : ∀ ps : List Piece, (ps.map erased).flatMap text = ps.flatMap text := by
    simp only [List.flatMap_map, text_erased, implies_true]
  have hlength : ∀ ps : List Piece,
      ((ps.map erased).flatMap values).length = (ps.flatMap values).length := by
    simp only [List.flatMap_map, List.length_flatMap, length_values_erased, implies_true]
  rw [← htext, ← htext qs, ← hlength, ← hlength qs, h]
  exact ⟨rfl, rfl⟩

/-- A piece of a statement about a table: its words have no question mark, and its names are
some that are given. -/
def IsOf (allowed : List Text) : Piece → Prop
  | words t => '?' ∉ t
  | name t => t ∈ allowed
  | place _ => True

theorem IsOf.mono {allowed allowed' : List Text} {p : Piece} (h : p.IsOf allowed)
    (hsub : allowed ⊆ allowed') : p.IsOf allowed' := by
  cases p with
  | words | place => exact h
  | name => exact hsub h

/-- Among names without a question mark every question mark is a place. -/
theorem count_flatMap_text {allowed : List Text} (hallowed : ∀ t ∈ allowed, '?' ∉ t)
    {ps : List Piece} (h : ∀ p ∈ ps, p.IsOf allowed) :
    (ps.flatMap text).count '?' = (ps.flatMap values).length := by
  induction ps with
  | nil => rfl
  | cons p ps ih =>
      obtain ⟨hp, hps⟩ := List.forall_mem_cons.mp h
      have hcount : p.text.count '?' = p.values.length := by
        cases p with
        | words t => exact List.count_eq_zero.mpr hp
        | name t => exact List.count_eq_zero.mpr (hallowed t hp)
        | place v => exact List.count_singleton_self
      rw [List.flatMap_cons, List.flatMap_cons, List.count_append, List.length_append, hcount,
        ih hps]

end Piece

/-! ## Words around pieces -/

theorem flatMap_intercalate {α β : Type} (g : α → List β) (sep : List α) (pss : List (List α)) :
    (sep.intercalate pss).flatMap g = (sep.flatMap g).intercalate (pss.map (List.flatMap g)) := by
  induction pss with
  | nil => rfl
  | cons ps pss ih =>
      cases pss with
      | nil => simp
      | cons qs pss =>
          rw [List.map_cons] at ih
          rw [List.intercalate_cons_cons, List.map_cons, List.map_cons, List.intercalate_cons_cons,
            List.flatMap_append, List.flatMap_append, ih]

theorem Text.joinWith_eq_intercalate (sep : Text) (ps : List Text) :
    joinWith sep ps = sep.intercalate ps := by
  induction ps with
  | nil => rfl
  | cons p ps ih =>
      cases ps with
      | nil => simp
      | cons q ps => rw [joinWith, List.intercalate_cons_cons, ih, List.append_assoc]

theorem mem_intercalate {α : Type} {sep : List α} {pss : List (List α)} {a : α}
    (h : a ∈ sep.intercalate pss) : a ∈ sep ∨ ∃ ps ∈ pss, a ∈ ps := by
  induction pss with
  | nil => cases h
  | cons ps pss ih =>
      cases pss with
      | nil => exact .inr ⟨ps, List.mem_cons_self, by simpa using h⟩
      | cons qs pss =>
          rw [List.intercalate_cons_cons, List.mem_append, List.mem_append] at h
          rcases h with (h | h) | h
          · exact .inr ⟨ps, List.mem_cons_self, h⟩
          · exact .inl h
          · obtain hsep | ⟨rs, hrs, hmem⟩ := ih h
            · exact .inl hsep
            · exact .inr ⟨rs, List.mem_cons_of_mem ps hrs, hmem⟩

namespace Clause

section

variable {α β : Type} (word : Text → List α)

/-- A group among others, for any way of writing words. -/
def enclose : List (List α) → List α
  | [ps] => ps
  | group => word ['('] ++ (word " OR ".toList).intercalate group ++ word [')']

/-- What stands around and between the terms of a clause, for any way of writing words. -/
def layout (groups : List (List (List α))) : List α :=
  if groups.any List.isEmpty then word "0 = 1".toList
  else
    match groups with
    | [] => word ['1']
    | [group] => (word " OR ".toList).intercalate group
    | groups => (word " AND ".toList).intercalate (groups.map (enclose word))

theorem flatMap_enclose (g : α → List β) (group : List (List α)) :
    (enclose word group).flatMap g =
      enclose (fun t ↦ (word t).flatMap g) (group.map (List.flatMap g)) := by
  rcases group with _ | ⟨ps, _ | ⟨qs, rest⟩⟩
  · simp [enclose]
  · rfl
  · simp only [enclose, List.flatMap_append, flatMap_intercalate, List.map_cons]

/-- Rewriting every piece of a clause leaves its layout as it is. -/
theorem flatMap_layout (g : α → List β) (groups : List (List (List α))) :
    (layout word groups).flatMap g =
      layout (fun t ↦ (word t).flatMap g) (groups.map (List.map (List.flatMap g))) := by
  have hempty : (groups.map (List.map (List.flatMap g))).any List.isEmpty =
      groups.any List.isEmpty := by
    simp [List.any_map, Function.comp_def]
  unfold layout
  rw [hempty]
  split
  · rfl
  · rcases groups with _ | ⟨group, _ | ⟨other, rest⟩⟩
    · rfl
    · exact flatMap_intercalate g _ group
    · simp only [flatMap_intercalate, List.map_cons, List.map_map, flatMap_enclose,
        Function.comp_def]

end

end Clause

/-! ## Pieces of terms -/

/-- The names that a statement about a table may have in it. -/
def Table.names (t : Table) : List Text := t.name :: t.schema.fields.map Field.column

namespace Column

structure IsOf (table : Table) (c : Column) : Prop where
  table_eq : c.table = table.name
  mem : c.field ∈ table.schema.fields

theorem IsOf.names_subset {table : Table} {c : Column} (h : c.IsOf table) :
    [c.table, c.field.column] ⊆ table.names := by
  rw [List.cons_subset, List.cons_subset]
  exact ⟨h.table_eq ▸ List.mem_cons_self,
    List.mem_cons_of_mem _ (List.mem_map_of_mem h.mem), List.nil_subset _⟩

def pieces (c : Column) : List Piece := [.name c.table, .words ['.'], .name c.field.column]

/-- The pieces of the column as a text. -/
def textPieces (c : Column) : List Piece :=
  if c.field.type = .text then c.pieces
  else .words "CAST(".toList :: c.pieces ++ [.words " AS VARCHAR)".toList]

end Column

namespace Atom

def boundPieces (ps : List Piece) (o : Comparison) (v : Value) : List Piece :=
  ps ++ [.words (' ' :: o.symbol ++ [' ']), .place v]

def rangePieces (c : Column) (start finish : Moment) : List Piece :=
  boundPieces c.pieces .greaterOrEqual (.moment start) ++
    .words " AND ".toList :: boundPieces c.pieces .less (.moment finish)

def likePieces (c : Column) (o : Operator) (needle : Text) : List Piece :=
  .words "(lower(".toList :: c.textPieces ++
    [.words (") LIKE ".toList ++ (if (wildcards o).1 then "'%' || ".toList else []) ++
      "lower(".toList),
    .place (.text (Pattern.escaped needle)),
    .words (')' :: (if (wildcards o).2 then " || '%'".toList else []) ++ " ESCAPE '/')".toList)]

def pieces (c : Column) : Atom → List Piece
  | isNull => c.pieces ++ [.words " IS NULL".toList]
  | isBool affirmed b =>
    c.pieces ++ [.words (' ' :: (Comparison.ofEquality affirmed).symbol ++ ' ' :: boolText b)]
  | isText affirmed t =>
    boundPieces (.words "lower(".toList :: c.pieces ++ [.words [')']])
      (Comparison.ofEquality affirmed) (.text t)
  | compare o v => boundPieces c.pieces o v
  | within affirmed start finish =>
    if affirmed then rangePieces c start finish
    else .words "NOT (".toList :: (rangePieces c start finish ++ [.words [')']])
  | like o needle => likePieces c o needle

/-- What stays of a term without the values that are bound in it. -/
def form (c : Column) (a : Atom) : List Piece := (a.pieces c).map Piece.erased

theorem flatMap_text_pieces (c : Column) (a : Atom) :
    (a.pieces c).flatMap Piece.text = a.text c := by
  have hcolumn : c.pieces.flatMap Piece.text = c.text := by
    simp [Column.pieces, Column.text, Piece.text]
  have hbound : ∀ ps o v, (boundPieces ps o v).flatMap Piece.text =
      bound (ps.flatMap Piece.text) o := by
    simp [boundPieces, bound, Piece.text]
  cases a with
  | isNull => simp [pieces, text, hcolumn, Piece.text]
  | isBool affirmed b => simp [pieces, text, hcolumn, Piece.text]
  | isText affirmed t => simp [pieces, text, hbound, hcolumn, Piece.text]
  | compare o v => simp [pieces, text, hbound, hcolumn]
  | within affirmed start finish =>
      have hrange : (rangePieces c start finish).flatMap Piece.text =
          bound c.text .greaterOrEqual ++ " AND ".toList ++ bound c.text .less := by
        rw [rangePieces, List.flatMap_append, List.flatMap_cons, hbound, hbound, hcolumn,
          Piece.text, List.append_assoc]
      cases affirmed with
      | true => exact hrange
      | false =>
          rw [pieces, if_neg Bool.false_ne_true, List.flatMap_cons, List.flatMap_append, hrange]
          rfl
  | like o needle =>
      have htext : c.textPieces.flatMap Piece.text = c.asText := by
        unfold Column.textPieces Column.asText
        split <;> simp [hcolumn, Piece.text]
      have hmark : "lower(".toList ++ ['?', ')'] = "lower(?)".toList := by decide
      change (likePieces c o needle).flatMap Piece.text = likeText c o
      unfold likePieces likeText
      -- no word is looked into but the one that holds the place
      generalize "lower(".toList = opening, "lower(?)".toList = marked at hmark ⊢
      generalize "(lower(".toList = start, ") LIKE ".toList = like, " ESCAPE '/')".toList = finish
      generalize "'%' || ".toList = before, " || '%'".toList = behind
      subst hmark
      simp [htext, Piece.text]

theorem flatMap_values_pieces (c : Column) (a : Atom) :
    (a.pieces c).flatMap Piece.values = a.params := by
  have hcolumn : c.pieces.flatMap Piece.values = [] := rfl
  have htext : c.textPieces.flatMap Piece.values = [] := by
    unfold Column.textPieces
    split <;> rfl
  cases a with
  | isNull | isBool | isText | compare => rfl
  | within affirmed start finish => cases affirmed <;> rfl
  | like o needle =>
      simp only [pieces, likePieces, params, List.cons_append, List.flatMap_cons,
        List.flatMap_append, List.flatMap_nil, htext, Piece.values, List.nil_append,
        List.append_nil]

theorem isOf_pieces (c : Column) (a : Atom) :
    ∀ p ∈ a.pieces c, p.IsOf [c.table, c.field.column] := by
  have hwords : ∀ t : Text, '?' ∉ t → Piece.IsOf [c.table, c.field.column] (.words t) :=
    fun _ h ↦ h
  have hcolumn : ∀ p ∈ c.pieces, p.IsOf [c.table, c.field.column] := by
    simp [Column.pieces, Piece.IsOf]
  have hbound : ∀ ps, (∀ p ∈ ps, p.IsOf [c.table, c.field.column]) → ∀ o v,
      ∀ p ∈ boundPieces ps o v, p.IsOf [c.table, c.field.column] := by
    intro ps hps o v
    rw [boundPieces, List.forall_mem_append, List.forall_mem_cons, List.forall_mem_singleton]
    refine ⟨hps, hwords _ ?_, trivial⟩
    cases o <;> decide
  cases a with
  | isNull =>
      rw [pieces, List.forall_mem_append, List.forall_mem_singleton]
      exact ⟨hcolumn, hwords _ (by decide)⟩
  | isBool affirmed b =>
      rw [pieces, List.forall_mem_append, List.forall_mem_singleton]
      refine ⟨hcolumn, hwords _ ?_⟩
      cases affirmed <;> cases b <;> decide
  | isText affirmed t =>
      refine hbound _ ?_ _ _
      rw [List.cons_append, List.forall_mem_cons, List.forall_mem_append,
        List.forall_mem_singleton]
      exact ⟨hwords _ (by decide), hcolumn, hwords _ (by decide)⟩
  | compare o v => exact hbound _ hcolumn o v
  | within affirmed start finish =>
      have hrange : ∀ p ∈ rangePieces c start finish, p.IsOf [c.table, c.field.column] := by
        rw [rangePieces, List.forall_mem_append, List.forall_mem_cons]
        exact ⟨hbound _ hcolumn _ _, hwords _ (by decide), hbound _ hcolumn _ _⟩
      cases affirmed with
      | true => exact hrange
      | false =>
          rw [pieces, if_neg Bool.false_ne_true, List.forall_mem_cons, List.forall_mem_append,
            List.forall_mem_singleton]
          exact ⟨hwords _ (by decide), hrange, hwords _ (by decide)⟩
  | like o needle =>
      have htext : ∀ p ∈ c.textPieces, p.IsOf [c.table, c.field.column] := by
        unfold Column.textPieces
        split
        · exact hcolumn
        · rw [List.cons_append, List.forall_mem_cons, List.forall_mem_append,
            List.forall_mem_singleton]
          exact ⟨hwords _ (by decide), hcolumn, hwords _ (by decide)⟩
      rw [pieces, likePieces, List.cons_append, List.forall_mem_cons, List.forall_mem_append,
        List.forall_mem_cons, List.forall_mem_cons, List.forall_mem_singleton]
      refine ⟨hwords _ (by decide), htext, hwords _ ?_, trivial, hwords _ ?_⟩
      · cases o <;> decide
      · cases o <;> decide

end Atom

def Term.pieces (t : Term) : List Piece := t.atom.pieces t.column

/-- What stays of a term without the values that are bound in it. -/
def Term.form (t : Term) : List Piece := t.pieces.map Piece.erased

/-! ## Pieces of clauses -/

namespace Clause

def pieces (c : Clause) : List Piece :=
  layout (fun t ↦ [Piece.words t]) (c.map (List.map Term.pieces))

theorem flatMap_text_pieces (c : Clause) : c.pieces.flatMap Piece.text = c.text := by
  have hgroups : (c.map (List.map Term.pieces)).map (List.map (List.flatMap Piece.text)) =
      c.map (List.map Term.text) := by
    simp [Function.comp_def, Term.pieces, Atom.flatMap_text_pieces, Term.text]
  have hempty : (c.map (List.map Term.text)).any List.isEmpty = c.isNever := by
    simp [List.any_map, Function.comp_def, isNever]
  have hword : (fun t : Text ↦ [Piece.words t].flatMap Piece.text) = id :=
    funext fun t ↦ List.append_nil t
  have hgroup : ∀ group : List Term,
      " OR ".toList.intercalate (group.map Term.text) = groupText group := fun group ↦
    (Text.joinWith_eq_intercalate _ _).symm
  rw [pieces, flatMap_layout, hgroups, hword]
  unfold layout text
  rw [hempty]
  split
  · rfl
  · rcases c with _ | ⟨group, _ | ⟨other, rest⟩⟩
    · rfl
    · exact hgroup group
    · have henclosed : ∀ group : List Term, enclose id (group.map Term.text) = enclosed group := by
        rintro (_ | ⟨t, _ | ⟨u, rest⟩⟩)
        · rfl
        · rfl
        · exact congrArg (fun t ↦ '(' :: t ++ [')']) (hgroup (t :: u :: rest))
      simp only [List.map_cons, List.map_map, Function.comp_def, henclosed,
        Text.joinWith_eq_intercalate, id]

/-- The values of a clause are those of its terms in the order in which these are written. -/
theorem flatMap_values_pieces (c : Clause) : c.pieces.flatMap Piece.values = c.params := by
  have hgroups : (c.map (List.map Term.pieces)).map (List.map (List.flatMap Piece.values)) =
      c.map (List.map fun t ↦ t.atom.params) := by
    simp [Function.comp_def, Term.pieces, Atom.flatMap_values_pieces]
  have hempty : (c.map (List.map fun t ↦ t.atom.params)).any List.isEmpty = c.isNever := by
    simp [List.any_map, Function.comp_def, isNever]
  have hnil : ∀ vss : List (List Value), [].intercalate vss = vss.flatten := by
    intro vss
    induction vss with
    | nil => rfl
    | cons vs vss ih =>
        cases vss with
        | nil => simp
        | cons ws vss =>
            rw [List.intercalate_cons_cons, ih, List.append_nil]
            rfl
  have henclose : ∀ vss : List (List Value), enclose (fun _ ↦ []) vss = vss.flatten := by
    rintro (_ | ⟨vs, _ | ⟨ws, vss⟩⟩)
    · rfl
    · simp [enclose]
    · simp only [enclose, hnil, List.nil_append, List.append_nil]
  rw [pieces, flatMap_layout, hgroups]
  change layout (fun _ ↦ []) _ = _
  unfold layout params
  rw [hempty]
  split
  · rfl
  · rcases c with _ | ⟨group, _ | ⟨other, rest⟩⟩
    · rfl
    · simp [hnil, List.flatMap_def]
    · simp only [List.map_cons, henclose, hnil, List.flatMap_def, List.map_flatten,
        List.flatten_flatten, List.map_map, Function.comp_def]

/-- Erasing the values of a clause is erasing those of its terms. -/
theorem map_erased_pieces (c : Clause) : c.pieces.map Piece.erased =
    layout (fun t ↦ [Piece.words t]) (c.map (List.map Term.form)) := by
  have herase : (List.flatMap fun p : Piece ↦ [p.erased]) = List.map Piece.erased :=
    funext fun _ ↦ List.map_eq_flatMap.symm
  have hgroups : (c.map (List.map Term.pieces)).map
      (List.map (List.flatMap fun p ↦ [p.erased])) = c.map (List.map Term.form) := by
    rw [herase, List.map_map]
    simp only [Function.comp_def, List.map_map]
    rfl
  rw [List.map_eq_flatMap, pieces, flatMap_layout, hgroups]
  rfl

/-- What holds of words without a question mark and of the pieces of the terms holds of a
clause. -/
theorem forall_mem_layout {α : Type} {word : Text → List α} {P : α → Prop}
    (hword : ∀ t, '?' ∉ t → ∀ a ∈ word t, P a) {groups : List (List (List α))}
    (h : ∀ group ∈ groups, ∀ ps ∈ group, ∀ a ∈ ps, P a) : ∀ a ∈ layout word groups, P a := by
  have hjoin : ∀ (t : Text) (pss : List (List α)), '?' ∉ t → (∀ ps ∈ pss, ∀ a ∈ ps, P a) →
      ∀ a ∈ (word t).intercalate pss, P a := by
    intro t pss ht hpss a ha
    obtain hsep | ⟨ps, hps, hmem⟩ := mem_intercalate ha
    · exact hword t ht a hsep
    · exact hpss ps hps a hmem
  have hgroup : ∀ group ∈ groups, ∀ a ∈ (word " OR ".toList).intercalate group, P a :=
    fun group hmem ↦ hjoin _ group (by decide) (h group hmem)
  have henclosed : ∀ ps ∈ groups.map (enclose word), ∀ a ∈ ps, P a := by
    intro ps hps
    obtain ⟨group, hmem, rfl⟩ := List.mem_map.mp hps
    unfold enclose
    split
    · exact h _ hmem _ List.mem_cons_self
    · rw [List.forall_mem_append, List.forall_mem_append]
      exact ⟨⟨hword _ (by decide), hgroup _ hmem⟩, hword _ (by decide)⟩
  unfold layout
  split
  · exact hword _ (by decide)
  · split
    · exact hword _ (by decide)
    · exact hgroup _ List.mem_cons_self
    · exact hjoin _ _ (by decide) henclosed

/-- A clause about columns of a table is written from the names of that table. -/
theorem isOf_pieces {table : Table} {c : Clause}
    (h : ∀ group ∈ c, ∀ t ∈ group, t.column.IsOf table) : ∀ p ∈ c.pieces, p.IsOf table.names := by
  apply forall_mem_layout
  · intro t ht p hp
    rw [List.mem_singleton.mp hp]
    exact ht
  · intro group hgroup ps hps p hp
    obtain ⟨terms, hterms, rfl⟩ := List.mem_map.mp hgroup
    obtain ⟨t, ht, rfl⟩ := List.mem_map.mp hps
    exact (Atom.isOf_pieces t.column t.atom p hp).mono (h terms hterms t ht).names_subset

end Clause

end RecordQuery
