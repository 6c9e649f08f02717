import RecordQuery.Proofs.Outcome

namespace RecordQuery.Runs

/-!
# How a sort can fail

A sort asks for the order of pairs of items and does nothing else that
could fail: whatever ends it is a fault of one of these questions.
-/

open Outcome

variable {α : Type} {P : Fault → Prop}

/-! ## Searching -/

theorem faultsIn_at {items : List α} {q : α → Outcome Bool} (hq : ∀ a ∈ items, FaultsIn P (q a))
    (i : Nat) : FaultsIn P (at? items q i) := by
  unfold at?
  split
  · next a ha => exact hq a (List.mem_of_getElem? ha)
  · exact .of_ok false

theorem faultsIn_bisect {q : Question} (hq : ∀ i, FaultsIn P (q i)) (lo hi : Nat) :
    FaultsIn P (bisect q lo hi) := by
  fun_induction bisect q lo hi with
  | case1 lo hi _ ihUpper ihLower =>
      apply (hq _).bind
      intro b _
      cases b with
      | true => exact ihUpper
      | false => exact ihLower
  | case2 lo _ _ => exact .of_ok lo

theorem faultsIn_stride {q : Question} (hq : ∀ i, FaultsIn P (q i)) (limit last next : Nat) :
    FaultsIn P (stride q limit last next) := by
  fun_induction stride q limit last next with
  | case1 last next _ ih =>
      apply (hq _).bind
      intro b _
      cases b with
      | true => exact ih
      | false => exact .of_ok _
  | case2 => exact .of_ok _

theorem faultsIn_gallop {q : Question} (hq : ∀ i, FaultsIn P (q i)) (size hint : Nat) :
    FaultsIn P (gallop q size hint) := by
  apply (hq _).bind
  intro b _
  cases b with
  | true =>
      apply (faultsIn_stride (fun i ↦ hq _) _ _ _).bind
      intro bounds _
      exact faultsIn_bisect hq _ _
  | false =>
      apply (faultsIn_stride (fun i ↦ (hq _).map _) _ _ _).bind
      intro bounds _
      exact faultsIn_bisect hq _ _

/-! ## Merging -/

/-- A question about two items of a list fails with some of the faults only. -/
def FaultsOn (P : Fault → Prop) (before : Before α) (l : List α) : Prop :=
  ∀ a ∈ l, ∀ b ∈ l, FaultsIn P (before a b)

variable {before : Before α} {l : List α}

namespace Merge

theorem faultsIn_streak (m : Merge α) {items : List α} {q : α → Outcome Bool}
    (hq : ∀ a ∈ items, FaultsIn P (q a)) : FaultsIn P (m.streak items q) := by
  unfold streak
  split
  · exact (faultsIn_gallop (faultsIn_at fun a ha ↦ hq a (List.mem_reverse.mp ha)) _ _).map _
  · exact faultsIn_gallop (faultsIn_at hq) _ _

theorem faultsIn_unless_ended (m : Merge α) {next : Outcome (List α × Nat)}
    (h : FaultsIn P next) :
    FaultsIn P (if m.hasEnded = true then pure m.finish else next) := by
  split
  · exact .of_ok _
  · exact h

theorem subset_of_items_subset {m : Merge α} (h : m.items ⊆ l) : m.left ⊆ l ∧ m.right ⊆ l := by
  rw [items, List.append_subset, List.append_subset] at h
  exact h.2

/-- What is left of the two runs are items of them, step after step. -/
theorem faultsIn_single_streaks (hl : FaultsOn P before l) (fuel : Nat) :
    (∀ m, m.items ⊆ l → FaultsIn P (single before fuel m)) ∧
      ∀ m, m.items ⊆ l → FaultsIn P (streaks before fuel m) := by
  induction fuel with
  | zero =>
      constructor <;> intro m _
      · rw [single]
        exact .of_ok _
      · rw [streaks]
        exact .of_ok _
  | succ fuel ih =>
      obtain ⟨ihSingle, ihStreaks⟩ := ih
      constructor <;> intro m hm <;> obtain ⟨hleft, hright⟩ := subset_of_items_subset hm
      · rw [single]
        split
        · next x _ y _ hx hy =>
            rw [hx] at hleft
            rw [hy] at hright
            apply (hl y (hright List.mem_cons_self) x (hleft List.mem_cons_self)).bind
            intro b _
            have hm' := List.Subset.trans (items_advance (b != m.backward) m).subset hm
            refine faultsIn_unless_ended _ ?_
            split
            · exact ihStreaks _ hm'
            · exact ihSingle _ hm'
        · exact .of_ok _
      · rw [streaks]
        split
        · exact .of_ok _
        · next y _ hy =>
            have hyl : y ∈ l := by
              rw [hy] at hright
              exact hright List.mem_cons_self
            apply (faultsIn_streak _ fun x hx ↦ (hl y hyl x (hleft hx)).map _).bind
            intro leftStreak _
            have h₁ : (takeLeft leftStreak
                { m with patience := max 1 (m.patience - 1) }).items ⊆ l :=
              List.Subset.trans
                (items_takeLeft leftStreak { m with patience := max 1 (m.patience - 1) }).subset hm
            refine faultsIn_unless_ended _ ?_
            have h₂ := List.Subset.trans (items_takeRight 1 _).subset h₁
            refine faultsIn_unless_ended _ ?_
            split
            · exact .of_ok _
            · next x _ hx =>
                obtain ⟨hleft₂, hright₂⟩ := subset_of_items_subset h₂
                rw [hx] at hleft₂
                have hxl : x ∈ l := hleft₂ List.mem_cons_self
                apply (faultsIn_streak _ fun y hy ↦ hl y (hright₂ hy) x hxl).bind
                intro rightStreak _
                have h₃ := List.Subset.trans (items_takeRight rightStreak _).subset h₂
                refine faultsIn_unless_ended _ ?_
                have h₄ := List.Subset.trans (items_takeLeft 1 _).subset h₃
                refine faultsIn_unless_ended _ ?_
                split
                · exact ihStreaks _ h₄
                · exact ihSingle _ h₄

theorem faultsIn_run (hl : FaultsOn P before l) {a b : List α} (ha : a ⊆ l) (hb : b ⊆ l)
    (patience : Nat) : FaultsIn P (run before patience a b) := by
  refine faultsIn_unless_ended _ ((faultsIn_single_streaks hl _).1 _ ?_)
  split
  · refine List.Subset.trans (items_takeRight 1 _).subset ?_
    exact List.append_subset.mpr ⟨List.nil_subset l, List.append_subset.mpr ⟨ha, hb⟩⟩
  · refine List.Subset.trans (items_takeLeft 1 _).subset ?_
    refine List.append_subset.mpr ⟨List.nil_subset l, List.append_subset.mpr ⟨?_, ?_⟩⟩
    · exact List.Subset.trans (List.reverse_perm a).subset ha
    · exact List.Subset.trans (List.reverse_perm b).subset hb

end Merge

theorem faultsIn_merge (hl : FaultsOn P before l) {a b : List α} (ha : a ⊆ l) (hb : b ⊆ l)
    (patience : Nat) : FaultsIn P (merge before patience a b) := by
  unfold merge
  split
  · exact .of_ok _
  · next y rest =>
      have hy : y ∈ l := hb List.mem_cons_self
      apply (faultsIn_gallop (faultsIn_at fun x hx ↦ (hl y hy x (ha hx)).map _) _ _).bind
      intro start _
      dsimp only
      split
      · exact .of_ok _
      · next x hx =>
          have hdrop : a.drop start ⊆ l := List.Subset.trans (List.drop_subset _ _) ha
          have hxl : x ∈ l := hdrop (List.mem_of_getLast? hx)
          apply (faultsIn_gallop (faultsIn_at fun y hy ↦ hl y (hb hy) x hxl) _ _).bind
          intro stop _
          split
          · exact .of_ok _
          · refine FaultsIn.bind ?_ fun merged _ ↦ .of_ok _
            exact Merge.faultsIn_run hl hdrop (List.Subset.trans (List.take_subset _ _) hb) _

theorem merge_subset {a b : List α} {patience : Nat} {r : List α × Nat}
    (h : merge before patience a b = .ok r) (ha : a ⊆ l) (hb : b ⊆ l) : r.1 ⊆ l :=
  List.Subset.trans (merge_perm h).subset (List.append_subset.mpr ⟨ha, hb⟩)

/-! ## Finding runs and collecting them -/

theorem faultsIn_continuation (hl : FaultsOn P before l) (falling : Bool) {last : α}
    (hlast : last ∈ l) {items : List α} (hitems : items ⊆ l) :
    FaultsIn P (continuation before falling last items) := by
  induction items generalizing last with
  | nil => exact .of_ok 0
  | cons a rest ih =>
      obtain ⟨ha, hrest⟩ := List.cons_subset.mp hitems
      apply (hl a ha last hlast).bind
      intro b _
      split
      · exact (ih ha hrest).bind fun n _ ↦ .of_ok _
      · exact .of_ok 0

theorem faultsIn_front (hl : FaultsOn P before l) {items : List α} (hitems : items ⊆ l) :
    FaultsIn P (front before items) := by
  unfold front
  split
  · next a b rest =>
      obtain ⟨ha, hrest⟩ := List.cons_subset.mp hitems
      obtain ⟨hb, hrest⟩ := List.cons_subset.mp hrest
      apply (hl b hb a ha).bind
      intro falling _
      exact (faultsIn_continuation hl _ hb hrest).bind fun n _ ↦ .of_ok _
  · exact .of_ok _

theorem faultsIn_insert (hl : FaultsOn P before l) {run : List α} (hrun : run ⊆ l) {a : α}
    (ha : a ∈ l) : FaultsIn P (insert before run a) :=
  (faultsIn_bisect (faultsIn_at fun x hx ↦ (hl a ha x (hrun hx)).map _) _ _).bind
    fun _ _ ↦ .of_ok _

theorem faultsIn_foldlM_insert (hl : FaultsOn P before l) {items run : List α}
    (hitems : items ⊆ l) (hrun : run ⊆ l) : FaultsIn P (items.foldlM (insert before) run) := by
  induction items generalizing run with
  | nil => exact .of_ok run
  | cons a rest ih =>
      obtain ⟨ha, hrest⟩ := List.cons_subset.mp hitems
      rw [List.foldlM_cons]
      apply (faultsIn_insert hl hrun ha).bind
      intro next hnext
      exact ih hrest
        (List.Subset.trans (insert_perm hnext).subset (List.cons_subset.mpr ⟨ha, hrun⟩))

namespace Collection

theorem faultsIn_settle (hl : FaultsOn P before l) (depth patience : Nat) {run : List α}
    (hrun : run ⊆ l) {ps : List (Pending α)} (hps : items ps ⊆ l) :
    FaultsIn P (settle before depth patience run ps) := by
  induction ps generalizing patience run with
  | nil => exact .of_ok _
  | cons p rest ih =>
      obtain ⟨hrest, hp⟩ := List.append_subset.mp (items_cons p rest ▸ hps)
      rw [settle]
      split
      · apply (faultsIn_merge hl hp hrun _).bind
        intro merged hmerged
        exact ih _ (merge_subset hmerged hp hrun) hrest
      · exact .of_ok _

theorem faultsIn_add (hl : FaultsOn P before l) (total : Nat) (run : List α)
    {c : Collection α} (hc : items c.pending ⊆ l) : FaultsIn P (c.add before total run) := by
  unfold add
  split
  · exact .of_ok _
  · next last rest hpending =>
      obtain ⟨hrest, hlast⟩ := List.append_subset.mp (items_cons last rest ▸ hpending ▸ hc)
      exact (faultsIn_settle hl _ _ hlast hrest).bind fun d _ ↦ .of_ok _

theorem faultsIn_mergeAll (hl : FaultsOn P before l) (patience fuel : Nat)
    {ps : List (Pending α)} (hps : items ps ⊆ l) :
    FaultsIn P (mergeAll before patience fuel ps) := by
  fun_induction mergeAll before patience fuel ps with
  | case1 => exact .of_ok _
  | case2 => exact .of_ok _
  | case3 => exact .of_ok _
  | case4 _ _ b a ih =>
      simp only [items_cons, List.append_subset] at hps
      obtain ⟨⟨_, ha⟩, hb⟩ := hps
      apply (faultsIn_merge hl ha hb _).bind
      intro merged hmerged
      refine ih _ _ ?_
      simp only [items_cons, items_nil, List.nil_append]
      exact merge_subset hmerged ha hb
  | case5 _ _ c b a rest _ ih =>
      simp only [items_cons, List.append_subset] at hps
      obtain ⟨⟨⟨hrest, ha⟩, hb⟩, hc⟩ := hps
      apply (faultsIn_merge hl ha hb _).bind
      intro merged hmerged
      refine ih _ _ ?_
      simp only [items_cons, List.append_subset]
      exact ⟨⟨hrest, merge_subset hmerged ha hb⟩, hc⟩
  | case6 _ _ c b a rest _ ih =>
      simp only [items_cons, List.append_subset] at hps
      obtain ⟨⟨⟨hrest, ha⟩, hb⟩, hc⟩ := hps
      apply (faultsIn_merge hl hb hc _).bind
      intro merged hmerged
      refine ih _ _ ?_
      simp only [items_cons, List.append_subset]
      exact ⟨⟨hrest, ha⟩, merge_subset hmerged hb hc⟩

theorem faultsIn_gather (hl : FaultsOn P before l) (total least fuel : Nat) {items : List α}
    (hitems : items ⊆ l) {c : Collection α} (hc : Collection.items c.pending ⊆ l) :
    FaultsIn P (gather before total least fuel items c) := by
  fun_induction gather before total least fuel items c with
  | case1 => exact .of_ok _
  | case2 => exact .of_ok _
  | case3 fuel items c _ ih =>
      apply (faultsIn_front hl hitems).bind
      intro front hfront
      obtain ⟨hrun, hrest⟩ := List.append_subset.mp
        (List.Subset.trans (front_perm hfront).subset hitems)
      have htake := List.Subset.trans (List.take_subset (least - front.1.length) _) hrest
      apply (faultsIn_foldlM_insert hl htake hrun).bind
      intro run hinsert
      have hrun := List.Subset.trans (foldlM_insert_perm hinsert).subset
        (List.append_subset.mpr ⟨hrun, htake⟩)
      apply (faultsIn_add hl total run hc).bind
      intro d hadd
      exact ih _ _ _ (List.Subset.trans (List.drop_subset _ _) hrest)
        (List.Subset.trans (add_perm hadd).subset (List.append_subset.mpr ⟨hc, hrun⟩))

end Collection

/-- A sort fails with nothing but what the comparison of two of its items can fail with. -/
theorem faultsIn_sort {items : List α} (h : FaultsOn P before items) :
    FaultsIn P (sort before items) := by
  have hitems := List.Subset.refl items
  apply (Collection.faultsIn_gather h _ _ _ hitems (List.nil_subset _)).bind
  intro c hc
  exact Collection.faultsIn_mergeAll h _ _ (by simpa using (Collection.gather_perm hc).subset)

end RecordQuery.Runs
