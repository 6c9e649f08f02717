import Mathlib.Data.List.Perm.Basic
import RecordQuery.Runs.Lemmas

namespace RecordQuery.Outcome

/-!
# Outcomes

How computations that may fail are put together: when a sequence of them
succeeds, which faults it can have, and when two sequences come out alike.
-/

variable {α β γ δ : Type}

theorem bind_eq_ok_iff {x : Outcome α} {f : α → Outcome β} {b : β} :
    (x >>= f) = .ok b ↔ ∃ a, x = .ok a ∧ f a = .ok b := by
  constructor
  · exact Runs.ok_bind_eq
  · rintro ⟨a, rfl, hb⟩
    exact hb

theorem bind_eq_error_iff {x : Outcome α} {f : α → Outcome β} {e : Fault} :
    (x >>= f) = .error e ↔ x = .error e ∨ ∃ a, x = .ok a ∧ f a = .error e := by
  cases x <;> simp [bind, Except.bind]

theorem map_eq_ok_iff {ε : Type} {x : Except ε α} {f : α → β} {b : β} :
    x.map f = .ok b ↔ ∃ a, x = .ok a ∧ f a = b := by
  cases x with
  | error e => simp [Except.map]
  | ok a => simp [Except.map]

theorem map_eq_error_iff {ε : Type} {x : Except ε α} {f : α → β} {e : ε} :
    x.map f = .error e ↔ x = .error e := by
  cases x <;> simp [Except.map]

theorem mapM_eq_ok_iff {f : α → Outcome β} {as : List α} {bs : List β} :
    as.mapM f = .ok bs ↔ List.Forall₂ (fun a b ↦ f a = .ok b) as bs := by
  induction as generalizing bs with
  | nil => simp [pure, Except.pure, eq_comm]
  | cons a as ih =>
      rw [List.mapM_cons, bind_eq_ok_iff]
      constructor
      · rintro ⟨b, hb, h⟩
        obtain ⟨rest, hrest, h⟩ := bind_eq_ok_iff.mp h
        cases h
        exact .cons hb (ih.mp hrest)
      · intro h
        cases h with
        | cons hb hrest => exact ⟨_, hb, bind_eq_ok_iff.mpr ⟨_, ih.mpr hrest, rfl⟩⟩

theorem exists_of_mapM_eq_ok {f : α → Outcome β} {as : List α} {bs : List β}
    (h : as.mapM f = .ok bs) {a : α} (ha : a ∈ as) : ∃ b ∈ bs, f a = .ok b := by
  have h₂ := mapM_eq_ok_iff.mp h
  clear h
  induction h₂ with
  | nil => cases ha
  | cons hb _ ih =>
      rcases List.mem_cons.mp ha with rfl | ha
      · exact ⟨_, List.mem_cons_self, hb⟩
      · obtain ⟨c, hc, hac⟩ := ih ha
        exact ⟨c, List.mem_cons_of_mem _ hc, hac⟩

theorem exists_of_mem_mapM {f : α → Outcome β} {as : List α} {bs : List β}
    (h : as.mapM f = .ok bs) {b : β} (hb : b ∈ bs) : ∃ a ∈ as, f a = .ok b := by
  have h₂ := mapM_eq_ok_iff.mp h
  clear h
  induction h₂ with
  | nil => cases hb
  | cons ha _ ih =>
      rcases List.mem_cons.mp hb with rfl | hb
      · exact ⟨_, List.mem_cons_self, ha⟩
      · obtain ⟨a, has, hab⟩ := ih hb
        exact ⟨a, List.mem_cons_of_mem _ has, hab⟩

/-- Computations that all succeed give the same results in any order. -/
theorem exists_mapM_of_perm {f : α → Outcome β} {as as' : List α} (h : as.Perm as') {bs : List β}
    (hbs : as.mapM f = .ok bs) : ∃ bs', as'.mapM f = .ok bs' ∧ bs.Perm bs' := by
  obtain ⟨bs', hbs', hperm⟩ := List.perm_comp_forall₂ h.symm (mapM_eq_ok_iff.mp hbs)
  exact ⟨bs', mapM_eq_ok_iff.mpr hbs', hperm.symm⟩

theorem mapM_eq_ok_map {f : α → Outcome β} {g : α → β} {as : List α}
    (h : ∀ a ∈ as, f a = .ok (g a)) : as.mapM f = .ok (as.map g) := by
  rw [mapM_eq_ok_iff, List.forall₂_map_right_iff, List.forall₂_same]
  exact h

/-- Two sequences of computations end with results that look the same if each pair of them
does. -/
theorem map_eq_of_mapM_eq_ok {R : α → β → Prop} {f : α → Outcome γ} {g : β → Outcome γ}
    (view : γ → δ) {as : List α} {bs : List β} (h : List.Forall₂ R as bs)
    (hview : ∀ a b c d, R a b → f a = .ok c → g b = .ok d → view c = view d) {cs ds : List γ}
    (hf : as.mapM f = .ok cs) (hg : bs.mapM g = .ok ds) : cs.map view = ds.map view := by
  rw [mapM_eq_ok_iff] at hf hg
  induction h generalizing cs ds with
  | nil =>
      cases hf
      cases hg
      rfl
  | cons hab _ ih =>
      cases hf with
      | cons hc hcs =>
          cases hg with
          | cons hd hds =>
              rw [List.map_cons, List.map_cons, hview _ _ _ _ hab hc hd, ih hcs hds]

theorem allM_eq_true_iff {p : α → Outcome Bool} {as : List α} :
    as.allM p = .ok true ↔ ∀ a ∈ as, p a = .ok true := by
  induction as with
  | nil => simp [pure, Except.pure]
  | cons a as ih =>
      rw [List.allM_cons, List.forall_mem_cons, bind_eq_ok_iff, ← ih]
      constructor
      · rintro ⟨b, hb, h⟩
        cases b with
        | true => exact ⟨hb, h⟩
        | false => cases h
      · rintro ⟨ha, h⟩
        exact ⟨true, ha, h⟩

theorem allM_eq_ok_all {p : α → Outcome Bool} {q : α → Bool} {as : List α}
    (h : ∀ a ∈ as, p a = .ok (q a)) : as.allM p = .ok (as.all q) := by
  induction as with
  | nil => rfl
  | cons a as ih =>
      obtain ⟨ha, has⟩ := List.forall_mem_cons.mp h
      rw [List.allM_cons, ha, List.all_cons]
      cases q a with
      | true => exact ih has
      | false => rfl

/-- What comes behind checks that succeed is reached if they all hold. -/
theorem allM_append {p : α → Outcome Bool} {q : α → Bool} {as bs : List α}
    (h : ∀ a ∈ as, p a = .ok (q a)) :
    (as ++ bs).allM p = if as.all q then bs.allM p else .ok false := by
  induction as with
  | nil => rfl
  | cons a as ih =>
      obtain ⟨ha, has⟩ := List.forall_mem_cons.mp h
      rw [List.cons_append, List.allM_cons, ha, List.all_cons]
      cases q a with
      | true => exact ih has
      | false => rfl

theorem anyM_eq_ok_any {p : α → Outcome Bool} {q : α → Bool} {as : List α}
    (h : ∀ a ∈ as, p a = .ok (q a)) : as.anyM p = .ok (as.any q) := by
  induction as with
  | nil => rfl
  | cons a as ih =>
      obtain ⟨ha, has⟩ := List.forall_mem_cons.mp h
      rw [List.anyM_cons, ha, List.any_cons]
      cases q a with
      | true => rfl
      | false => exact ih has

/-! ## Success -/

/-- A computation ends with a result. -/
def Succeeds (x : Outcome α) : Prop := ∃ a, x = .ok a

theorem succeeds_ok (a : α) : Succeeds (.ok a : Outcome α) := ⟨a, rfl⟩

theorem not_succeeds_error (e : Fault) : ¬ Succeeds (.error e : Outcome α) := nofun

instance (x : Outcome α) : Decidable (Succeeds x) :=
  match x with
  | .ok a => isTrue (succeeds_ok a)
  | .error e => isFalse (not_succeeds_error e)

theorem succeeds_map_iff {x : Outcome α} {f : α → β} : Succeeds (x.map f) ↔ Succeeds x := by
  cases x with
  | error e => exact iff_of_false (not_succeeds_error e) (not_succeeds_error e)
  | ok a => exact iff_of_true (succeeds_ok (f a)) (succeeds_ok a)

theorem succeeds_bind_iff {x : Outcome α} {f : α → Outcome β} :
    Succeeds (x >>= f) ↔ ∃ a, x = .ok a ∧ Succeeds (f a) := by
  simp only [Succeeds, bind_eq_ok_iff]
  exact exists_comm.trans (exists_congr fun a ↦ exists_and_left)

theorem succeeds_mapM_iff {f : α → Outcome β} {as : List α} :
    Succeeds (as.mapM f) ↔ ∀ a ∈ as, Succeeds (f a) := by
  constructor
  · rintro ⟨bs, hbs⟩ a ha
    obtain ⟨b, -, hb⟩ := exists_of_mapM_eq_ok hbs ha
    exact ⟨b, hb⟩
  · intro h
    induction as with
    | nil => exact succeeds_ok []
    | cons a as ih =>
        obtain ⟨⟨b, hb⟩, has⟩ := List.forall_mem_cons.mp h
        obtain ⟨bs, hbs⟩ := ih has
        exact ⟨b :: bs, mapM_eq_ok_iff.mpr (.cons hb (mapM_eq_ok_iff.mp hbs))⟩

/-! ## Faults -/

/-- Every fault that a computation can end with is one of some faults. -/
def FaultsIn (P : Fault → Prop) (x : Outcome α) : Prop := ∀ e, x = .error e → P e

namespace FaultsIn

variable {P : Fault → Prop}

theorem of_ok (a : α) : FaultsIn P (.ok a : Outcome α) := nofun

theorem of_error {e : Fault} (h : P e) : FaultsIn P (.error e : Outcome α) := by
  rintro _ ⟨⟩
  exact h

theorem mono {Q : Fault → Prop} {x : Outcome α} (hx : FaultsIn P x) (h : ∀ e, P e → Q e) :
    FaultsIn Q x := fun e he ↦ h e (hx e he)

theorem bind {x : Outcome α} {f : α → Outcome β} (hx : FaultsIn P x)
    (hf : ∀ a, x = .ok a → FaultsIn P (f a)) : FaultsIn P (x >>= f) := by
  cases x with
  | error e => exact of_error (hx e rfl)
  | ok a => exact hf a rfl

theorem map {x : Outcome α} (hx : FaultsIn P x) (f : α → β) : FaultsIn P (x.map f) := by
  cases x with
  | error e => exact of_error (hx e rfl)
  | ok a => exact of_ok (f a)

theorem mapM {f : α → Outcome β} {as : List α} (h : ∀ a ∈ as, FaultsIn P (f a)) :
    FaultsIn P (as.mapM f) := by
  induction as with
  | nil => exact of_ok []
  | cons a as ih =>
      rw [List.mapM_cons]
      apply bind (h a List.mem_cons_self)
      intro b _
      exact bind (ih fun c hc ↦ h c (List.mem_cons_of_mem a hc)) fun bs _ ↦ of_ok (b :: bs)

end FaultsIn

/-- What has no fault to end with succeeds. -/
theorem succeeds_iff_faultsIn {x : Outcome α} : Succeeds x ↔ FaultsIn (fun _ ↦ False) x := by
  cases x with
  | error e => exact iff_of_false (not_succeeds_error e) fun h ↦ h e rfl
  | ok a => exact iff_of_true (succeeds_ok a) (.of_ok a)

/-- A query argument is not among the causes of a failure. -/
def IsNotRejected (x : Outcome α) : Prop := FaultsIn (fun e ↦ ∀ q, e ≠ .rejected q) x

/-! ## Computations that come out alike -/

/-- Two computations end with the same fault, or both with a result, and these are related. -/
inductive Alike (R : α → β → Prop) : Outcome α → Outcome β → Prop
  | error (e : Fault) : Alike R (.error e) (.error e)
  | ok {a : α} {b : β} (h : R a b) : Alike R (.ok a) (.ok b)

namespace Alike

variable {R : α → β → Prop} {S : γ → δ → Prop}

theorem mono {R' : α → β → Prop} {x : Outcome α} {y : Outcome β} (h : Alike R x y)
    (hR : ∀ a b, R a b → R' a b) : Alike R' x y := by
  cases h with
  | error e => exact .error e
  | ok h => exact .ok (hR _ _ h)

theorem bind {x : Outcome α} {y : Outcome β} {f : α → Outcome γ} {g : β → Outcome δ}
    (h : Alike R x y) (hf : ∀ a b, R a b → Alike S (f a) (g b)) :
    Alike S (x >>= f) (y >>= g) := by
  cases h with
  | error e => exact .error e
  | ok h => exact hf _ _ h

theorem map {x : Outcome α} {y : Outcome β} {f : α → γ} {g : β → δ} (h : Alike R x y)
    (hf : ∀ a b, R a b → S (f a) (g b)) : Alike S (x.map f) (y.map g) := by
  cases h with
  | error e => exact .error e
  | ok h => exact .ok (hf _ _ h)

theorem bind_right {x : Outcome α} {y : Outcome β} {g : β → Outcome δ} {S : α → δ → Prop}
    (h : Alike R x y) (hg : ∀ a b, R a b → Alike S (.ok a) (g b)) : Alike S x (y >>= g) := by
  cases h with
  | error e => exact .error e
  | ok h => exact hg _ _ h

theorem map_left {x : Outcome α} {y : Outcome β} {f : α → γ} {S : γ → β → Prop}
    (h : Alike R x y) (hf : ∀ a b, R a b → S (f a) b) : Alike S (x.map f) y := by
  cases h with
  | error e => exact .error e
  | ok h => exact .ok (hf _ _ h)

theorem map_right {x : Outcome α} {y : Outcome β} {g : β → δ} {S : α → δ → Prop}
    (h : Alike R x y) (hg : ∀ a b, R a b → S a (g b)) : Alike S x (y.map g) := by
  cases h with
  | error e => exact .error e
  | ok h => exact .ok (hg _ _ h)

theorem of_same {x : Outcome γ} {f : γ → α} {g : γ → β} (h : ∀ c, x = .ok c → R (f c) (g c)) :
    Alike R (x.map f) (x.map g) := by
  cases x with
  | error e => exact .error e
  | ok c => exact .ok (h c rfl)

theorem mapM {f : γ → Outcome α} {g : γ → Outcome β} {cs : List γ}
    (h : ∀ c ∈ cs, Alike R (f c) (g c)) :
    Alike (List.Forall₂ R) (cs.mapM f) (cs.mapM g) := by
  induction cs with
  | nil => exact .ok .nil
  | cons c cs ih =>
      rw [List.mapM_cons, List.mapM_cons]
      apply (h c List.mem_cons_self).bind
      intro a b hab
      apply (ih fun d hd ↦ h d (List.mem_cons_of_mem c hd)).bind
      intro as bs habs
      exact .ok (.cons hab habs)

end Alike

end RecordQuery.Outcome
