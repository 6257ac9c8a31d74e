import Mathlib.Data.List.Forall2
import PipelineRuns.Report.Order

/-!
# The order of a report

Placing a run into a list of runs neither loses nor duplicates any (`place_perm`), and so the order
of display is a rearrangement of the stored runs (`display_perm`).

It is the order of their starts: no run is shown after one that it has its place before
(`display_pairwise`). So the starts come from the latest to the earliest, and after them the runs
without one (`exists_starts`). The order depends on nothing but which runs have their places before
which (`forall₂_display`).
-/

namespace PipelineRuns.Run

theorem place_perm (r : Run) (runs : List Run) : (place r runs).Perm (r :: runs) := by
  induction runs with
  | nil => exact List.Perm.refl _
  | cons s rest ih =>
    unfold place
    split
    · exact (ih.cons s).trans (List.Perm.swap r s rest)
    · exact List.Perm.refl _

/-- No run is lost or shown twice. -/
theorem display_perm (runs : List Run) : (display runs).Perm runs := by
  unfold display
  induction runs with
  | nil => exact List.Perm.refl _
  | cons r rest ih => exact (place_perm r _).trans (ih.cons r)

/-! ### The order of starts -/

theorem shownBefore_asymm {a b : Run} (h : shownBefore a b = true) : shownBefore b a = false := by
  unfold shownBefore at h ⊢
  cases hb : b.start with
  | none => rfl
  | some t =>
    cases ha : a.start with
    | none =>
      rw [ha] at h
      exact nomatch h
    | some s =>
      rw [ha, hb] at h
      simp only [Moment.before, decide_eq_true_eq, decide_eq_false_iff_not] at h ⊢
      omega

/-- Having no place before another run is transitive. -/
theorem shownBefore_eq_false_trans {a b c : Run} (hab : shownBefore a b = false)
    (hbc : shownBefore b c = false) : shownBefore a c = false := by
  unfold shownBefore at hab hbc ⊢
  cases ha : a.start with
  | none => rfl
  | some s =>
    rw [ha] at hab
    -- Then `b` has a start, and so has `c`.
    cases hb : b.start with
    | none =>
      rw [hb] at hab
      exact nomatch hab
    | some t =>
      rw [hb] at hab hbc
      cases hc : c.start with
      | none =>
        rw [hc] at hbc
        exact nomatch hbc
      | some u =>
        rw [hc] at hbc
        simp only [Moment.before, decide_eq_false_iff_not] at hab hbc ⊢
        omega

theorem place_pairwise (r : Run) {runs : List Run}
    (h : runs.Pairwise (fun a b => shownBefore b a = false)) :
    (place r runs).Pairwise (fun a b => shownBefore b a = false) := by
  induction runs with
  | nil => exact List.pairwise_singleton _ r
  | cons s rest ih =>
    obtain ⟨hs, hrest⟩ := List.pairwise_cons.mp h
    unfold place
    split
    -- The run has its place behind `s`, so all that follows `s` is the run itself or what followed
    -- before.
    case isTrue hbefore =>
      refine List.pairwise_cons.mpr ⟨fun b hb => ?_, ih hrest⟩
      rcases List.mem_cons.mp ((place_perm r rest).mem_iff.mp hb) with rfl | hb
      · exact shownBefore_asymm hbefore
      · exact hs b hb
    case isFalse hplace =>
      rw [Bool.not_eq_true] at hplace
      refine List.pairwise_cons.mpr ⟨fun b hb => ?_, h⟩
      rcases List.mem_cons.mp hb with rfl | hb
      · exact hplace
      · exact shownBefore_eq_false_trans (hs b hb) hplace

/-- No run is shown after one that it has its place before. -/
theorem display_pairwise (runs : List Run) :
    (display runs).Pairwise (fun a b => shownBefore b a = false) := by
  unfold display
  induction runs with
  | nil => exact List.Pairwise.nil
  | cons r rest ih => exact place_pairwise r ih

/-- In an ordered list the starts come from the latest to the earliest, and the runs without a start
after them. -/
theorem exists_starts {runs : List Run} (h : runs.Pairwise (fun a b => shownBefore b a = false)) :
    ∃ (starts : List Moment) (k : Nat), runs.map start = starts.map some ++ List.replicate k none ∧
      starts.Pairwise (fun s t => t.instant ≤ s.instant) := by
  induction runs with
  | nil => exact ⟨[], 0, rfl, List.Pairwise.nil⟩
  | cons a rest ih =>
    obtain ⟨ha, hrest⟩ := List.pairwise_cons.mp h
    obtain ⟨starts, k, hstarts, hsorted⟩ := ih hrest
    have hmem : ∀ t ∈ starts, ∃ b ∈ rest, b.start = some t := by
      intro t ht
      have hin : some t ∈ rest.map start := by
        rw [hstarts]
        exact List.mem_append_left _ (List.mem_map_of_mem ht)
      exact List.mem_map.mp hin
    cases hstart : a.start with
    | none =>
      -- A run with a start would have its place before `a`.
      have hnone : starts = [] := by
        refine List.eq_nil_iff_forall_not_mem.mpr (fun t ht => ?_)
        obtain ⟨b, hb, hbt⟩ := hmem t ht
        have hafter := ha b hb
        rw [shownBefore, hbt, hstart] at hafter
        exact nomatch hafter
      subst hnone
      refine ⟨[], k + 1, ?_, List.Pairwise.nil⟩
      rw [List.map_cons, hstarts, hstart]
      rfl
    | some s =>
      refine ⟨s :: starts, k, ?_, List.pairwise_cons.mpr ⟨fun t ht => ?_, hsorted⟩⟩
      · rw [List.map_cons, hstarts, hstart]
        rfl
      · obtain ⟨b, hb, hbt⟩ := hmem t ht
        have hafter := ha b hb
        rw [shownBefore, hbt, hstart] at hafter
        simpa [Moment.before] using hafter

/-! ### Two orders -/

variable {R : Run → Run → Prop}

theorem forall₂_place (hR : ∀ a a' b b', R a a' → R b b' → shownBefore a b = shownBefore a' b')
    {r r' : Run} (hr : R r r') {runs runs' : List Run} (h : List.Forall₂ R runs runs') :
    List.Forall₂ R (place r runs) (place r' runs') := by
  induction h with
  | nil => exact .cons hr .nil
  | @cons s s' rest rest' hs hrest ih =>
    unfold place
    rw [hR s s' r r' hs hr]
    split
    · exact .cons hs ih
    · exact .cons hr (.cons hs hrest)

/-- Lists of runs that have their places before each other in the same way are shown in the same
order. -/
theorem forall₂_display (hR : ∀ a a' b b', R a a' → R b b' → shownBefore a b = shownBefore a' b')
    {runs runs' : List Run} (h : List.Forall₂ R runs runs') :
    List.Forall₂ R (display runs) (display runs') := by
  unfold display
  induction h with
  | nil => exact .nil
  | cons hr _ ih => exact forall₂_place hR hr ih

end PipelineRuns.Run
