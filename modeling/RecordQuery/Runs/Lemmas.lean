import RecordQuery.Runs.Sort

namespace RecordQuery.Runs

/-!
# What a sort keeps

Whatever the answers to its questions are, a sort that comes to an end has
kept every item, and no item twice: its result is a permutation.
-/

variable {α : Type}

theorem ok_bind_eq {ε β γ : Type} {x : Except ε β} {f : β → Except ε γ} {c : γ}
    (h : (x >>= f) = .ok c) : ∃ b, x = .ok b ∧ f b = .ok c := by
  cases x with
  | error e => cases h
  | ok b => exact ⟨b, rfl, h⟩

namespace Merge

def items (m : Merge α) : List α := m.done ++ (m.left ++ m.right)

theorem items_takeLeft (count : Nat) (m : Merge α) : (m.takeLeft count).items.Perm m.items := by
  have h : ((m.left.take count).reverse ++ m.done).Perm (m.done ++ m.left.take count) :=
    List.perm_append_comm.trans (List.Perm.append_left _ (List.reverse_perm _))
  have h₁ := h.append_right (m.left.drop count ++ m.right)
  simp only [items, takeLeft]
  refine h₁.trans ?_
  rw [List.append_assoc, ← List.append_assoc (m.left.take count), List.take_append_drop]

theorem items_takeRight (count : Nat) (m : Merge α) : (m.takeRight count).items.Perm m.items := by
  have h : ((m.right.take count).reverse ++ m.done).Perm (m.done ++ m.right.take count) :=
    List.perm_append_comm.trans (List.Perm.append_left _ (List.reverse_perm _))
  have h₁ := h.append_right (m.left ++ m.right.drop count)
  simp only [items, takeRight]
  refine h₁.trans ?_
  rw [List.append_assoc]
  refine List.Perm.append_left _ ?_
  have h₂ : (m.right.take count ++ (m.left ++ m.right.drop count)).Perm
      (m.left ++ (m.right.take count ++ m.right.drop count)) := by
    rw [← List.append_assoc, ← List.append_assoc]
    exact List.perm_append_comm.append_right _
  rwa [List.take_append_drop] at h₂

theorem finish_perm (m : Merge α) : m.finish.1.Perm m.items := by
  have h : (m.done.reverse ++ (m.left ++ m.right)).Perm m.items :=
    (List.reverse_perm _).append_right _
  have h₁ : (m.done.reverse ++ (m.right ++ m.left)).Perm m.items :=
    ((List.reverse_perm _).append List.perm_append_comm)
  cases hb : m.backward
  · simpa [finish, hb] using h₁
  · simpa [finish, hb] using (List.reverse_perm _).trans h

theorem items_advance (rightWins : Bool) (m : Merge α) :
    (m.advance rightWins).items.Perm m.items := by
  cases rightWins
  · exact items_takeLeft 1 m
  · exact items_takeRight 1 m

/-- After every step a merge is over or goes on. -/
theorem perm_of_ended {m : Merge α} {l : List α} (hm : m.items.Perm l)
    {next : Outcome (List α × Nat)} {r : List α × Nat}
    (hnext : next = .ok r → r.1.Perm l)
    (h : (if m.hasEnded = true then pure m.finish else next) = .ok r) : r.1.Perm l := by
  split at h
  · cases h
    exact (finish_perm m).trans hm
  · exact hnext h

theorem perm_of_single_streaks (before : Before α) (fuel : Nat) :
    (∀ m r, single before fuel m = .ok r → r.1.Perm m.items) ∧
      (∀ m r, streaks before fuel m = .ok r → r.1.Perm m.items) := by
  induction fuel with
  | zero =>
      constructor <;> intro m r h
      · rw [single] at h; cases h; exact finish_perm m
      · rw [streaks] at h; cases h; exact finish_perm m
  | succ fuel ih =>
      obtain ⟨ihSingle, ihStreaks⟩ := ih
      constructor <;> intro m r h
      · rw [single] at h
        split at h
        · obtain ⟨b, -, h⟩ := ok_bind_eq h
          have hm := items_advance (b != m.backward) m
          refine perm_of_ended hm (fun h ↦ ?_) h
          split at h
          · exact (ihStreaks _ _ h).trans hm
          · exact (ihSingle _ _ h).trans hm
        · cases h; exact finish_perm m
      · rw [streaks] at h
        split at h
        · cases h; exact finish_perm m
        · obtain ⟨leftStreak, -, h⟩ := ok_bind_eq h
          have h₁ : (Merge.takeLeft leftStreak
              { m with patience := max 1 (m.patience - 1) }).items.Perm m.items :=
            items_takeLeft leftStreak { m with patience := max 1 (m.patience - 1) }
          refine perm_of_ended h₁ (fun h ↦ ?_) h
          have h₂ := (items_takeRight 1 _).trans h₁
          refine perm_of_ended h₂ (fun h ↦ ?_) h
          split at h
          · cases h; exact (finish_perm _).trans h₂
          · obtain ⟨rightStreak, -, h⟩ := ok_bind_eq h
            have h₃ := (items_takeRight rightStreak _).trans h₂
            refine perm_of_ended h₃ (fun h ↦ ?_) h
            have h₄ := (items_takeLeft 1 _).trans h₃
            refine perm_of_ended h₄ (fun h ↦ ?_) h
            split at h
            · exact (ihStreaks _ _ h).trans h₄
            · exact (ihSingle _ _ h).trans h₄

end Merge

theorem Merge.run_perm {before : Before α} {patience : Nat} {a b : List α}
    {r : List α × Nat} (h : Merge.run before patience a b = .ok r) : r.1.Perm (a ++ b) := by
  let start : Merge α :=
    if a.length ≤ b.length then Merge.takeRight 1 ⟨false, a, b, [], 0, 0, patience⟩
    else Merge.takeLeft 1 ⟨true, a.reverse, b.reverse, [], 0, 0, patience⟩
  have hstart : start.items.Perm (a ++ b) := by
    simp only [start]
    split
    · exact Merge.items_takeRight 1 ⟨false, a, b, [], 0, 0, patience⟩
    · refine (Merge.items_takeLeft 1 ⟨true, a.reverse, b.reverse, [], 0, 0, patience⟩).trans ?_
      exact (List.reverse_perm a).append (List.reverse_perm b)
  exact Merge.perm_of_ended hstart
    (fun h ↦ ((Merge.perm_of_single_streaks before _).1 _ _ h).trans hstart) h

theorem merge_perm {before : Before α} {patience : Nat} {a b : List α} {r : List α × Nat}
    (h : merge before patience a b = .ok r) : r.1.Perm (a ++ b) := by
  unfold merge at h
  split at h
  · cases h; simp
  · next y ys =>
    obtain ⟨start, -, h⟩ := ok_bind_eq h
    dsimp only at h
    split at h
    · cases h; exact List.Perm.refl _
    · obtain ⟨stop, -, h⟩ := ok_bind_eq h
      split at h
      · cases h; exact List.Perm.refl _
      · obtain ⟨⟨merged, rest⟩, hm, h⟩ := ok_bind_eq h
        cases h
        have hp := Merge.run_perm hm
        have h₁ := (hp.append_left (a.take start)).append_right ((y :: ys).drop stop)
        have h₂ : a.take start ++ (a.drop start ++ (y :: ys).take stop) ++ (y :: ys).drop stop =
            a ++ (y :: ys) := by
          rw [← List.append_assoc, List.take_append_drop, List.append_assoc,
            List.take_append_drop]
        exact h₂ ▸ h₁

theorem front_perm {before : Before α} {l : List α} {r : List α × List α}
    (h : front before l = .ok r) : (r.1 ++ r.2).Perm l := by
  unfold front at h
  split at h
  · next a b rest =>
    obtain ⟨falling, -, h⟩ := ok_bind_eq h
    obtain ⟨size, -, h⟩ := ok_bind_eq h
    cases h
    have h₁ := List.take_append_drop (size + 2) (a :: b :: rest)
    cases falling
    · simp
    · have h₂ := (List.reverse_perm ((a :: b :: rest).take (size + 2))).append_right
        ((a :: b :: rest).drop (size + 2))
      rw [h₁] at h₂
      exact h₂
  · cases h; simp

theorem insert_perm {before : Before α} {run r : List α} {a : α}
    (h : insert before run a = .ok r) : r.Perm (a :: run) := by
  obtain ⟨place, -, h⟩ := ok_bind_eq h
  cases h
  have h₁ : (run.take place ++ a :: run.drop place).Perm
      (a :: (run.take place ++ run.drop place)) := List.perm_middle
  rwa [List.take_append_drop] at h₁

theorem foldlM_insert_perm {before : Before α} {items run r : List α}
    (h : items.foldlM (insert before) run = .ok r) : r.Perm (run ++ items) := by
  induction items generalizing run with
  | nil => cases h; simp
  | cons a rest ih =>
      rw [List.foldlM_cons] at h
      obtain ⟨next, hn, h⟩ := ok_bind_eq h
      refine (ih h).trans ?_
      refine ((insert_perm hn).append_right rest).trans ?_
      exact List.perm_middle.symm

namespace Collection

def items (ps : List (Pending α)) : List α := ps.reverse.flatMap Pending.items

@[simp] theorem items_nil : items ([] : List (Pending α)) = [] := rfl

@[simp] theorem items_cons (p : Pending α) (ps : List (Pending α)) :
    items (p :: ps) = items ps ++ p.items := by simp [items]

theorem settle_perm {before : Before α} {depth patience : Nat} {run : List α}
    {ps : List (Pending α)} {c : Collection α} (h : settle before depth patience run ps = .ok c) :
    (items c.pending).Perm (items ps ++ run) := by
  induction ps generalizing patience run with
  | nil => rw [settle] at h; cases h; simp
  | cons p rest ih =>
      rw [settle] at h
      split at h
      · obtain ⟨⟨merged, left⟩, hm, h⟩ := ok_bind_eq h
        refine (ih h).trans ?_
        rw [items_cons, List.append_assoc]
        exact (merge_perm hm).append_left _
      · cases h; simp

theorem add_perm {before : Before α} {total : Nat} {run : List α} {c d : Collection α}
    (h : c.add before total run = .ok d) : (items d.pending).Perm (items c.pending ++ run) := by
  unfold add at h
  split at h
  · next hc => cases h; simp [hc]
  · next last rest hc =>
    obtain ⟨e, he, h⟩ := ok_bind_eq h
    cases h
    rw [items_cons, hc, items_cons]
    exact (settle_perm he).append_right run

theorem mergeAll_perm {before : Before α} {patience fuel : Nat} {ps : List (Pending α)}
    {r : List α} (h : mergeAll before patience fuel ps = .ok r) : r.Perm (items ps) := by
  fun_induction mergeAll before patience fuel ps generalizing r with
  | case1 => cases h; simp
  | case2 => cases h; simp
  | case3 => cases h; exact List.Perm.refl _
  | case4 _ _ b a ih =>
      obtain ⟨⟨merged, left⟩, hm, h⟩ := ok_bind_eq h
      refine (ih _ _ h).trans ?_
      simpa using merge_perm hm
  | case5 _ _ c b a rest hlt ih =>
      obtain ⟨⟨merged, left⟩, hm, h⟩ := ok_bind_eq h
      refine (ih _ _ h).trans ?_
      have h₁ := ((merge_perm hm).append_left (items rest)).append_right c.items
      simpa using h₁
  | case6 _ _ c b a rest hlt ih =>
      obtain ⟨⟨merged, left⟩, hm, h⟩ := ok_bind_eq h
      refine (ih _ _ h).trans ?_
      have h₁ := (merge_perm hm).append_left (items (a :: rest))
      simpa using h₁

theorem gather_perm {before : Before α} {total least fuel : Nat} {l : List α}
    {c d : Collection α} (h : gather before total least fuel l c = .ok d) :
    (items d.pending).Perm (items c.pending ++ l) := by
  induction fuel generalizing l c with
  | zero =>
      cases l with
      | nil => rw [gather] at h; cases h; simp
      | cons a l => rw [gather] at h; cases h; simp; simp
  | succ fuel ih =>
      cases l with
      | nil => rw [gather] at h; cases h; simp
      | cons a l =>
          rw [gather] at h
          · obtain ⟨⟨run, rest⟩, hf, h⟩ := ok_bind_eq h
            obtain ⟨longer, hi, h⟩ := ok_bind_eq h
            obtain ⟨e, ha, h⟩ := ok_bind_eq h
            refine (ih h).trans ?_
            refine ((add_perm ha).append_right _).trans ?_
            rw [List.append_assoc]
            refine List.Perm.append_left _ ?_
            refine ((foldlM_insert_perm hi).append_right _).trans ?_
            rw [List.append_assoc, List.take_append_drop]
            exact front_perm hf
          · simp

end Collection

/-- A sort that comes to an end permutes its items. -/
theorem sort_perm {before : Before α} {l r : List α} (h : sort before l = .ok r) : r.Perm l := by
  obtain ⟨c, hc, h⟩ := ok_bind_eq h
  exact (Collection.mergeAll_perm h).trans (Collection.gather_perm hc)

end RecordQuery.Runs

