import RecordQuery.Operator
import RecordQuery.Proofs.Arguments
import RecordQuery.Proofs.Outcome
import RecordQuery.Proofs.Text.LetterCase

namespace RecordQuery

/-!
# Registrations

A registry answers with what was registered last under a code, the blanks
around it and letter case not counting. Each registry has a history of its
own: that of a copy begins with the history of the registry it was made of,
and what is registered in the one afterwards does not reach the other.
-/

open Outcome

/-- Operators and the codes under which they were registered, the latest behind the others. -/
abbrev Registrations := List (Text × Operator)

namespace Registrations

/-- The operator that was registered last under a code. -/
def latest? (h : Registrations) (code : Text) : Option Operator :=
  (h.filter fun e ↦ normalName e.1 = normalName code).getLast?.map Prod.snd

/-- The operator that a registration asks for: none under a blank code, and none by a name that no
operator has. -/
def accepted? (code operator : Text) : Option Operator :=
  if normalName code = [] then none else Operator.ofName? operator

def register (h : Registrations) (code operator : Text) : Registrations :=
  match accepted? code operator with
  | some o => h ++ [(code, o)]
  | none => h

def registerAll (h : Registrations) (entries : List (Text × Text)) : Registrations :=
  entries.foldl (fun h e ↦ h.register e.1 e.2) h

variable {code operator : Text} {o : Operator}

@[simp] theorem latest?_nil (code : Text) : latest? [] code = none := rfl

theorem latest?_append_singleton (h : Registrations) (code other : Text) (o : Operator) :
    latest? (h ++ [(code, o)]) other =
      if normalName other = normalName code then some o else h.latest? other := by
  rw [latest?, List.filter_append]
  split
  · next heq => simp [heq]
  · next hne => simp [latest?, Ne.symm hne]

theorem accepted?_eq_some_iff : accepted? code operator = some o ↔
    normalName code ≠ [] ∧ Operator.ofName? operator = some o := by
  rw [accepted?]
  split
  · next hcode => simp [hcode]
  · next hcode => simp [hcode]

theorem register_of_none (h : Registrations) (hnone : accepted? code operator = none) :
    h.register code operator = h := by rw [register, hnone]

theorem register_of_some (h : Registrations) (hsome : accepted? code operator = some o) :
    h.register code operator = h ++ [(code, o)] := by rw [register, hsome]

end Registrations

namespace Registry

open Registrations

variable {r r' : Registry} {h : Registrations} {code operator : Text} {o : Operator}

/-! ## One registration -/

theorem register_of_accepted (r : Registry) (hsome : accepted? code operator = some o) :
    r.register code operator = .ok ⟨r.codes.put (normalName code) o⟩ := by
  obtain ⟨hcode, ho⟩ := accepted?_eq_some_iff.mp hsome
  rw [register, if_neg (by simpa using hcode), ho]

theorem succeeds_register_iff (r : Registry) : Succeeds (r.register code operator) ↔
    normalName code ≠ [] ∧ ∃ o, Operator.ofName? operator = some o := by
  rw [register]
  by_cases hcode : normalName code = []
  · rw [if_pos (by simpa using hcode)]
    exact iff_of_false (not_succeeds_error _) fun h ↦ h.1 hcode
  · rw [if_neg (by simpa using hcode)]
    cases Operator.ofName? operator with
    | none => exact iff_of_false (not_succeeds_error _) (by simp)
    | some o => exact iff_of_true (succeeds_ok _) ⟨hcode, o, rfl⟩

theorem not_succeeds_register (r : Registry) (hnone : accepted? code operator = none) :
    ¬ Succeeds (r.register code operator) := by
  rw [succeeds_register_iff]
  rintro ⟨hcode, o, ho⟩
  rw [accepted?_eq_some_iff.mpr ⟨hcode, ho⟩] at hnone
  cases hnone

/-! ## Copies -/

/-- Codes stand in a registry as they are compared, and each of them once. -/
structure IsNormal (r : Registry) : Prop where
  isCode : ∀ key ∈ r.codes.keys, key ≠ [] ∧ normalName key = key
  nodup : r.codes.keys.Nodup

theorem isNormal_empty : IsNormal empty := ⟨nofun, List.nodup_nil⟩

theorem IsNormal.put (hr : r.IsNormal) (hcode : normalName code ≠ []) (o : Operator) :
    IsNormal ⟨r.codes.put (normalName code) o⟩ := by
  refine ⟨?_, Keyed.nodup_keys_put hr.nodup _ _⟩
  have hkey : normalName code ≠ [] ∧ normalName (normalName code) = normalName code :=
    ⟨hcode, normalName_normalName code⟩
  intro key hmem
  rw [Keyed.keys_put] at hmem
  split at hmem
  · exact hr.isCode key hmem
  · rcases List.mem_append.mp hmem with hmem | hmem
    · exact hr.isCode key hmem
    · rwa [List.mem_singleton.mp hmem]

/-- Codes that are as they are compared are registered as they are. -/
theorem registerAll_names {entries : Registrations}
    (hentries : ∀ e ∈ entries, e.1 ≠ [] ∧ normalName e.1 = e.1) (r : Registry) :
    r.registerAll (entries.map fun e ↦ (e.1, e.2.name)) = .ok ⟨r.codes.putAll entries⟩ := by
  induction entries generalizing r with
  | nil => rfl
  | cons e entries ih =>
      obtain ⟨⟨hne, hnormal⟩, hentries⟩ := List.forall_mem_cons.mp hentries
      -- the code is trimmed and put in lower case once more, which leaves it as it is
      have hsome : accepted? e.1 e.2.name = some e.2 :=
        accepted?_eq_some_iff.mpr ⟨hnormal.symm ▸ hne, Operator.ofName?_name e.2⟩
      rw [List.map_cons, registerAll, register_of_accepted r hsome, hnormal]
      exact ih hentries _

/-- To register the codes of a registry anew gives the same registry. -/
theorem IsNormal.copy_eq_self (hr : r.IsNormal) : r.copy = .ok r := by
  have hentries : ∀ e ∈ r.codes, e.1 ≠ [] ∧ normalName e.1 = e.1 :=
    fun e he ↦ hr.isCode e.1 (List.mem_map_of_mem he)
  have hcodes : Keyed.putAll [] r.codes = r.codes := Keyed.putAll_of_nodup (l := []) hr.nodup
  rw [copy, registerAll_names hentries, empty, hcodes]

/-! ## Histories -/

/-- The codes of a registry are as they are compared, and it answers from a history. -/
structure Follows (r : Registry) (h : Registrations) : Prop extends IsNormal r where
  resolve?_eq : ∀ code, r.resolve? code = h.latest? code

theorem follows_empty : Follows empty [] := ⟨isNormal_empty, fun _ ↦ rfl⟩

theorem Follows.put (hr : r.Follows h) (hsome : accepted? code operator = some o) :
    Follows ⟨r.codes.put (normalName code) o⟩ (h.register code operator) := by
  refine ⟨hr.toIsNormal.put (accepted?_eq_some_iff.mp hsome).1 o, fun other ↦ ?_⟩
  rw [register_of_some h hsome, latest?_append_singleton, ← hr.resolve?_eq, resolve?, resolve?,
    Keyed.get?_put]

theorem Follows.register (hr : r.Follows h) (code operator : Text) :
    Follows ((r.register code operator).toOption.getD r) (h.register code operator) := by
  cases haccepted : accepted? code operator with
  | none =>
      rw [register_of_none h haccepted]
      cases hregister : r.register code operator with
      | ok r' => exact absurd ⟨r', hregister⟩ (not_succeeds_register r haccepted)
      | error e => exact hr
  | some o =>
      rw [register_of_accepted r haccepted]
      exact hr.put haccepted

theorem Follows.registerAll {entries : List (Text × Text)} (hr : r.Follows h)
    (hr' : r.registerAll entries = .ok r') : r'.Follows (h.registerAll entries) := by
  induction entries generalizing r h with
  | nil =>
      cases hr'
      exact hr
  | cons e entries ih =>
      obtain ⟨code, operator⟩ := e
      have hone := hr.register code operator
      rw [Registry.registerAll] at hr'
      split at hr'
      · next hregister =>
          rw [hregister] at hone
          exact ih hone hr'
      · cases hr'

theorem registerAll_standardCodes :
    empty.registerAll (standardCodes.map fun e ↦ (e.1, e.2.name)) = .ok standard := by
  decide +kernel

end Registry

/-- The histories of a registry in use and of one kept aside. -/
structure Histories where
  current : Registrations
  kept : Registrations

namespace Histories

def step (hs : Histories) : Registries.Step → Histories
  | .register code operator => ⟨hs.current.register code operator, hs.kept⟩
  | .copy => ⟨hs.current, hs.current⟩
  | .swap => ⟨hs.kept, hs.current⟩

def run (hs : Histories) (steps : List Registries.Step) : Histories := steps.foldl step hs

end Histories

namespace Registries

/-- Each of two registries answers from its own history. -/
structure Follows (rs : Registries) (hs : Histories) : Prop where
  current : rs.current.Follows hs.current
  kept : rs.kept.Follows hs.kept

variable {rs : Registries} {hs : Histories}

theorem Follows.step_copy (h : rs.Follows hs) : rs.step .copy = .ok ⟨rs.current, rs.current⟩ := by
  rw [step, h.current.copy_eq_self]
  rfl

theorem Follows.step (h : rs.Follows hs) (s : Step) :
    Follows ((rs.step s).toOption.getD rs) (hs.step s) := by
  cases s with
  | register code operator =>
      have hcurrent := h.current.register code operator
      rw [Registries.step]
      cases hregister : rs.current.register code operator with
      | ok r => exact ⟨by rwa [hregister] at hcurrent, h.kept⟩
      | error e => exact ⟨by rwa [hregister] at hcurrent, h.kept⟩
  | copy =>
      rw [h.step_copy]
      exact ⟨h.current, h.current⟩
  | swap => exact ⟨h.kept, h.current⟩

theorem Follows.run (h : rs.Follows hs) (steps : List Step) :
    (rs.run steps).Follows (hs.run steps) := by
  induction steps generalizing rs hs with
  | nil => exact h
  | cons s steps ih => exact ih (h.step s)

theorem kept_run_register (rs : Registries) (entries : List (Text × Text)) :
    (rs.run (entries.map fun e ↦ .register e.1 e.2)).kept = rs.kept := by
  induction entries generalizing rs with
  | nil => rfl
  | cons e entries ih =>
      rw [List.map_cons, run_cons, ih, step]
      cases rs.current.register e.1 e.2 <;> rfl

/-- Whatever was done before with two registries, each answers with what was registered last in its
own history, and it is left as it is by registrations in the other and by such as fail. A copy has
the codes of its original. -/
theorem run_resolve? {r k : Registry} {own others : List (Text × Text)}
    (hr : Registry.empty.registerAll own = .ok r) (hk : Registry.empty.registerAll others = .ok k)
    (steps : List Step) :
    let rs := run ⟨r, k⟩ steps
    let hs := Histories.run ⟨.registerAll [] own, .registerAll [] others⟩ steps
    (∀ code, rs.current.resolve? code = hs.current.latest? code ∧
      rs.kept.resolve? code = hs.kept.latest? code) ∧
    (∀ code operator,
      (Succeeds (rs.step (.register code operator)) ↔
        normalName code ≠ [] ∧ ∃ o, Operator.ofName? operator = some o) ∧
      (¬ Succeeds (rs.step (.register code operator)) → rs.run [.register code operator] = rs)) ∧
    (∀ entries : List (Text × Text),
      (rs.run (entries.map fun e ↦ .register e.1 e.2)).kept = rs.kept) ∧
    rs.step .copy = .ok ⟨rs.current, rs.current⟩ ∧ rs.step .swap = .ok ⟨rs.kept, rs.current⟩ := by
  intro rs hs
  have hfollows : rs.Follows hs :=
    Follows.run ⟨Registry.follows_empty.registerAll hr, Registry.follows_empty.registerAll hk⟩ steps
  refine ⟨fun code ↦ ⟨hfollows.current.resolve?_eq code, hfollows.kept.resolve?_eq code⟩,
    fun code operator ↦ ⟨?_, fun hfails ↦ ?_⟩, rs.kept_run_register, hfollows.step_copy, rfl⟩
  · rw [step, succeeds_map_iff, Registry.succeeds_register_iff]
  · rw [run_cons, run_nil]
    cases hstep : rs.step (.register code operator) with
    | ok rs' => exact absurd ⟨rs', hstep⟩ hfails
    | error e => rfl

/-- A code that is longer in lower case, one that is blank, one for no operator, and codes that are
registered again in a copy. -/
theorem run_resolve?_copied :
    let own := Registry.standardCodes.map fun e ↦ (e.1, e.2.name)
    let steps : List Step := [.register " İS".toList "Equals".toList,
      .register "\t ".toList "Equals".toList, .register "gt".toList "Larger".toList, .copy,
      .register "i\u0307s".toList "Contains".toList, .register "GT ".toList "LessThan".toList,
      .swap]
    Registry.empty.registerAll own = .ok Registry.standard ∧
      Registry.empty.registerAll [] = .ok Registry.empty ∧
      let rs := run ⟨Registry.standard, Registry.empty⟩ steps
      rs.current.resolve? "İs".toList = some .equals ∧
        rs.kept.resolve? "İs".toList = some .contains ∧
        rs.current.resolve? "Gt".toList = some .greaterThan ∧
        rs.kept.resolve? "Gt".toList = some .lessThan ∧
        rs.kept.resolve? "like".toList = some .contains ∧
        ¬ Succeeds (rs.step (.register "\u3000".toList "Equals".toList)) ∧
        rs.step .copy = .ok ⟨rs.current, rs.current⟩ := by
  intro own steps
  have hempty : Registry.empty.registerAll [] = .ok Registry.empty := rfl
  refine ⟨Registry.registerAll_standardCodes, hempty, ?_⟩
  obtain ⟨hresolve, hregister, -, hcopy, -⟩ :=
    run_resolve? Registry.registerAll_standardCodes hempty steps
  refine ⟨(hresolve _).1.trans ?_, (hresolve _).2.trans ?_, (hresolve _).1.trans ?_,
    (hresolve _).2.trans ?_, (hresolve _).2.trans ?_, ?_, hcopy⟩
  · decide +kernel
  · decide +kernel
  · decide +kernel
  · decide +kernel
  · decide +kernel
  · rw [(hregister _ _).1]
    exact fun h ↦ h.1 (by decide)

end Registries

end RecordQuery
