import PipelineRuns.Proofs.Ages

/-!
# Spans into the past

A span has no words if it goes into the past, but not if it does so by less than a second: what is
tested is the sign of the whole seconds (`Span.seconds`), and cut off towards zero these are none
for every span of less than a second, in either direction. Here this is settled for every count of
microseconds.

The rounding on the way is no reason for the difference, and it adds nothing to it. Below a second
the quotient has all its 53 digits behind the point, and even for 999999 microseconds the number
next to it on that scale is less than one (`nearestFloor_eq_zero_iff`). From a second on rounding is
monotone, so at least one second is left.

Main statement: `Span.humanize_eq_none_iff`. That not every span into the past is refused follows
it.
-/

namespace PipelineRuns.Span

/-! ### No full second -/

/-- The seconds are cut off towards zero. -/
theorem seconds_neg_iff (micros : Int) : seconds micros < 0 ↔ micros ≤ -microsPerSecond := by
  have hzero := nearestFloor_eq_zero_iff micros.natAbs
  unfold seconds microsPerSecond
  split
  case isTrue hpast =>
    show -(nearestFloor micros.natAbs 1000000 : Int) < 0 ↔ micros ≤ -1000000
    omega
  case isFalse hahead =>
    show (nearestFloor micros.natAbs 1000000 : Int) < 0 ↔ micros ≤ -1000000
    omega

theorem seconds_eq_zero_iff (micros : Int) :
    seconds micros = 0 ↔ (micros.natAbs : Int) < microsPerSecond := by
  have hzero := nearestFloor_eq_zero_iff micros.natAbs
  unfold seconds microsPerSecond
  split
  case isTrue hpast => omega
  case isFalse hahead => omega

/-! ### Words for no seconds -/

theorem told_eq_zero_iff (total : Nat) : told total = 0 ↔ total = 0 := by
  constructor
  · intro hzero
    by_contra hne
    have hone : told 1 = 1 := by decide
    have hmono : told 1 ≤ told total := told_mono (Nat.one_le_iff_ne_zero.mpr hne)
    omega
  · rintro rfl
    decide

/-- Only no seconds are called so, since the words for any others are read as others. -/
theorem inUnits_eq_noSeconds_iff (total : Nat) : inUnits total = "0 seconds" ↔ total = 0 := by
  constructor
  · intro hwords
    obtain ⟨count, u, hu, hcounted, htold⟩ := exists_inUnits_eq total
    have hread : Elapsed.read? (inUnits total ++ " ago") = some (told total) := by
      rw [hcounted, htold]
      exact Elapsed.read?_counted count hu
    have hnone : Elapsed.read? ("0 seconds" ++ " ago") = some 0 :=
      Elapsed.read?_counted 0 (u := ("second", 1)) (by decide)
    rw [hwords, hnone, Option.some.injEq] at hread
    exact (told_eq_zero_iff total).mp hread.symm
  · rintro rfl
    rfl

/-! ### What is refused -/

/-- **A span is refused exactly if it goes a full second or more into the past.** What is shorter
than a second is told of as no seconds, and nothing else is, whether it goes into the past or
not. -/
theorem humanize_eq_none_iff (micros : Int) :
    (humanize micros = none ↔ micros ≤ -microsPerSecond) ∧
    (humanize micros = some "0 seconds" ↔ (micros.natAbs : Int) < microsPerSecond) := by
  have hnegative := seconds_neg_iff micros
  have hnothing := seconds_eq_zero_iff micros
  unfold humanize
  split
  case isTrue hpast =>
    refine ⟨iff_of_true rfl (hnegative.mp hpast), iff_of_false nofun ?_⟩
    rw [← hnothing]
    omega
  case isFalse hahead =>
    refine ⟨iff_of_false nofun (mt hnegative.mpr hahead), ?_⟩
    rw [Option.some.injEq, inUnits_eq_noSeconds_iff, ← hnothing]
    omega

/-- A microsecond into the past has words, as if it were no time at all. -/
theorem negative_not_always_refused :
    inRange (-1) = true ∧ text (-1) = "-1 day, 23:59:59.999999" ∧ humanize (-1) = some "0 seconds" ∧
    ¬ ∀ micros, inRange micros = true → (humanize micros = none ↔ micros < 0) := by
  have hwords : humanize (-1) = some "0 seconds" := by decide
  refine ⟨by decide, by decide, hwords, ?_⟩
  intro hclaim
  have hrefused : humanize (-1) = none := (hclaim (-1) (by decide)).mpr (by decide)
  rw [hwords] at hrefused
  exact nomatch hrefused

end PipelineRuns.Span
