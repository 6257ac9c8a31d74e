import Mathlib.Data.List.Basic

/-!
# Lists

What the other modules use of lists of any kind and what the library does not have: look-ups in a
list of pairs after a key is left out, results for all elements, and where a mark can stand in a
list.
-/

namespace PipelineRuns

/-- Leaving out a key is not seen under another one. -/
theorem lookup_filter_ne {κ α : Type} [BEq κ] [LawfulBEq κ] [DecidableEq κ] {key other : κ}
    (h : other ≠ key) (entries : List (κ × α)) :
    (entries.filter (fun e => e.1 ≠ key)).lookup other = entries.lookup other := by
  induction entries with
  | nil => rfl
  | cons e rest ih =>
    obtain ⟨k, v⟩ := e
    -- An entry that is left out is one that the look-up would have passed by.
    by_cases hk : k = key
    · have hbeq : (other == k) = false := beq_eq_false_iff_ne.mpr (hk ▸ h)
      rw [List.filter_cons_of_neg (by simp [hk]), ih, List.lookup_cons, hbeq]
    · rw [List.filter_cons_of_pos (by simp [hk]), List.lookup_cons, List.lookup_cons, ih]

/-- There is a result for all of a list unless one is missing for an element. -/
theorem mapM_eq_none_iff {α β : Type} {f : α → Option β} {s : List α} :
    s.mapM f = none ↔ ∃ a ∈ s, f a = none := by
  induction s with
  | nil => simp
  | cons a rest ih =>
    rw [List.mapM_cons, List.exists_mem_cons_iff, ← ih]
    cases f a with
    | none => simp
    | some b =>
      cases rest.mapM f with
      | none => simp
      | some bs => simp

/-- Where two lists with a mark are the same, the mark is at the same place, or each list has it
twice. -/
theorem append_cons_inj {α : Type} {mark : α} {as bs as' bs' : List α} :
    as ++ mark :: bs = as' ++ mark :: bs' ↔
      (as = as' ∧ bs = bs') ∨ (∃ middle, as' = as ++ mark :: middle ∧ bs = middle ++ mark :: bs') ∨
        ∃ middle, as = as' ++ mark :: middle ∧ bs' = middle ++ mark :: bs := by
  constructor
  · intro h
    -- One front is a beginning of the other, and what it lacks begins with the mark.
    rcases List.append_eq_append_iff.mp h with ⟨rest, has, hrest⟩ | ⟨rest, has, hrest⟩
    · rcases List.cons_eq_append_iff.mp hrest with ⟨rfl, hbs⟩ | ⟨middle, rfl, hbs⟩
      · rw [List.append_nil] at has
        exact Or.inl ⟨has.symm, (List.cons.inj hbs).2.symm⟩
      · exact Or.inr (Or.inl ⟨middle, has, hbs⟩)
    · rcases List.cons_eq_append_iff.mp hrest with ⟨rfl, hbs⟩ | ⟨middle, rfl, hbs⟩
      · rw [List.append_nil] at has
        exact Or.inl ⟨has, (List.cons.inj hbs).2⟩
      · exact Or.inr (Or.inr ⟨middle, has, hbs⟩)
  · rintro (⟨rfl, rfl⟩ | ⟨middle, rfl, rfl⟩ | ⟨middle, rfl, rfl⟩)
    · rfl
    · rw [List.append_assoc, List.cons_append]
    · rw [List.append_assoc, List.cons_append]

end PipelineRuns
