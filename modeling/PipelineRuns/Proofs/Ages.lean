import PipelineRuns.Proofs.Order
import PipelineRuns.Proofs.Spans
import PipelineRuns.Proofs.Text
import PipelineRuns.Report.Render

/-!
# Ages that are read back

`Elapsed.read?` reads a cell of the AGE column as a number of seconds: nothing for `just now`, and
`count` times the length of the unit for `count unit(s) ago`. It inverts what the report writes
(`read?_counted`), so that the number that is read is a function of the time that has passed since
the start (`read?_age`), and this function is monotone (`toldAge_mono`). It is so although an age
below a second is not told at all, seconds are rounded, and units that do not divide one another
take turns; the last two are `Span.seconds_mono` and `Span.told_mono`.

`Report.ages_ordered` is what follows for a reader of the table. From the top to the bottom the ages
that are read never decrease, and the runs that were not started stand below all of them, because
the order of display is that of the starts, the latest first. And when the same run is looked at
again at a later time, its age has not become less.
-/

namespace PipelineRuns

namespace Elapsed

/-! ### Reading an age -/

/-- The length in seconds of the unit that a word names, in the singular or in the plural. -/
def lengthOf? (word : String) : Option Nat :=
  (Span.units.find? (fun u => word = u.1 || word = u.1 ++ "s")).map (·.2)

/-- The seconds that a cell of the AGE column tells of; none where it tells of no age. -/
def read? (cell : String) : Option Nat :=
  if cell = justNow then some 0
  else
    match Text.split ' ' cell with
    | [count, word, "ago"] => do
      let n ← Text.asciiNat? count.toList
      let length ← lengthOf? word
      return n * length
    | _ => none

theorem read?_justNow : read? justNow = some 0 := rfl

theorem read?_notStarted : read? notStarted = none := by
  decide

/-- The names of the units are single words, and no name is another one's plural. -/
theorem lengthOf?_name : ∀ u ∈ Span.units, ∀ ending ∈ ["", "s"],
    ' ' ∉ (u.1 ++ ending).toList ∧ lengthOf? (u.1 ++ ending) = some u.2 := by
  decide

theorem blank_notMem_toString (n : Nat) : ' ' ∉ (toString n).toList := by
  intro hmem
  rw [Nat.toString_eq_repr, Nat.toList_repr] at hmem
  have hdigit : ' '.isDigit = true := Nat.isDigit_of_mem_toDigits (by decide) (by decide) hmem
  exact absurd hdigit (by decide)

/-- A count of a unit is read as that many times its length. -/
theorem read?_counted (count : Nat) {u : String × Nat} (hu : u ∈ Span.units) :
    read? (Span.counted count u.1 ++ " ago") = some (count * u.2) := by
  -- Whether it is one or many shows in the ending of the unit alone.
  obtain ⟨ending, hending, hcounted⟩ :
      ∃ ending ∈ ["", "s"], Span.counted count u.1 = toString count ++ " " ++ u.1 ++ ending :=
    ⟨if count = 1 then "" else "s", by split <;> decide, rfl⟩
  obtain ⟨hblank, hlength⟩ := lengthOf?_name u hu ending hending
  have hpieces :
      Text.split ' ' (Span.counted count u.1 ++ " ago") =
        [toString count, u.1 ++ ending, "ago"] := by
    have hjoined : Span.counted count u.1 ++ " ago" =
        String.intercalate (String.singleton ' ') [toString count, u.1 ++ ending, "ago"] := by
      rw [hcounted, String.intercalate_cons_cons, String.intercalate_cons_cons,
        String.intercalate_singleton]
      simp only [String.append_assoc]
      rfl
    -- No word has a blank in it, so cutting at the blanks gives the words back.
    rw [hjoined]
    refine Text.split_intercalate (List.cons_ne_nil _ _) (fun p hp => ?_)
    simp only [List.mem_cons, List.not_mem_nil, or_false] at hp
    rcases hp with rfl | rfl | rfl
    · exact blank_notMem_toString count
    · exact hblank
    · decide
  -- It has three words, and `just now` has two.
  have hne : Span.counted count u.1 ++ " ago" ≠ justNow := by
    intro heq
    rw [heq] at hpieces
    have hlengths : 2 = 3 := congrArg List.length hpieces
    exact absurd hlengths (by decide)
  unfold read?
  rw [if_neg hne, hpieces]
  simp only [Text.asciiNat?_toString, hlength]
  rfl

/-! ### The age that is told -/

/-- The seconds that the age after a span tells of. -/
def toldAge (micros : Int) : Nat :=
  if micros < microsPerSecond then 0 else Span.told (Span.seconds micros).toNat

/-- An age is read back as the age that is told. -/
theorem read?_age (start now : Moment) :
    read? (age (some start) now) = some (toldAge (now.since start)) := by
  unfold age toldAge
  dsimp only
  split
  case isTrue hshort => exact read?_justNow
  case isFalse hlong =>
    obtain ⟨count, u, hu, hwords, htold⟩ :=
      Span.exists_inUnits_eq (Span.seconds (now.since start)).toNat
    unfold words
    rw [hwords, htold]
    exact read?_counted count hu

/-- What is told of an age grows with it. -/
theorem toldAge_mono {a b : Int} (h : a ≤ b) : toldAge a ≤ toldAge b := by
  unfold toldAge
  split
  case isTrue hshort => exact Nat.zero_le _
  case isFalse hlong =>
    -- A second has passed, so neither span goes into the past.
    have hnonneg : 0 ≤ a := by
      unfold microsPerSecond at hlong
      omega
    rw [if_neg (by omega)]
    exact Span.told_mono (Int.toNat_le_toNat (Span.seconds_mono hnonneg h))

/-- What is told grows with the clock and with an earlier start. -/
theorem toldAge_since_mono {start start' now now' : Moment}
    (hstart : start'.instant ≤ start.instant) (hnow : now.instant ≤ now'.instant) :
    toldAge (now.since start) ≤ toldAge (now'.since start') := by
  apply toldAge_mono
  unfold Moment.since
  omega

/-- The ages of started runs are read back one by one. -/
theorem map_read?_ages (starts : List Moment) (now : Moment) :
    (starts.map (fun s => age (some s) now)).map read? =
      (starts.map (fun s => toldAge (now.since s))).map some := by
  rw [List.map_map, List.map_map]
  exact List.map_congr_left (fun s _ => read?_age s now)

theorem notStarted_notMem_ages (starts : List Moment) (now : Moment) :
    notStarted ∉ starts.map (fun s => age (some s) now) := by
  intro hmem
  -- It would be read as no age, and every one of these is read as one.
  have hread : none ∈ (starts.map (fun s => toldAge (now.since s))).map some := by
    rw [← map_read?_ages, ← read?_notStarted]
    exact List.mem_map_of_mem hmem
  obtain ⟨value, -, hvalue⟩ := List.mem_map.mp hread
  exact nomatch hvalue

end Elapsed

namespace Report

/-! ### The column of ages -/

/-- What is written in the AGE column of a row. -/
def ageOf (row : List Cell) : Option String :=
  (row[Cell.headings.idxOf "AGE"]?).map Cell.written

/-- What is written in the AGE column of the table, from the top to the bottom, without its
heading. -/
def ages (style : Style) (now : Moment) (repo : Repository) : List String :=
  (rows style now repo.runs).tail.filterMap ageOf

theorem ageOf_row (style : Style) (now : Moment) (run : Run) :
    ageOf (Cell.row style now run) = some (Elapsed.age run.start now) := rfl

/-- The column of ages shows the runs in the order of the display. -/
theorem ages_eq (style : Style) (now : Moment) (repo : Repository) :
    ages style now repo = ((Run.display repo.runs).map Run.start).map (Elapsed.age · now) := by
  unfold ages rows
  rw [List.tail_cons, List.filterMap_map, List.map_map]
  exact congrFun List.filterMap_eq_map _

theorem length_ages (style : Style) (now : Moment) (repo : Repository) :
    (ages style now repo).length = repo.runs.length := by
  rw [ages_eq, List.length_map, List.length_map]
  exact (Run.display_perm repo.runs).length_eq

/-- The column shows the ages of the starts, from the latest to the earliest, and then the runs
without one. -/
theorem exists_ages_eq (style : Style) (now : Moment) (repo : Repository) :
    ∃ (starts : List Moment) (k : Nat),
      ages style now repo = starts.map (fun s => Elapsed.age (some s) now) ++ List.replicate k
        Elapsed.notStarted ∧
      starts.Pairwise (fun s t => t.instant ≤ s.instant) := by
  obtain ⟨starts, k, hstarts, hsorted⟩ := Run.exists_starts (Run.display_pairwise repo.runs)
  refine ⟨starts, k, ?_, hsorted⟩
  rw [ages_eq, hstarts, List.map_append, List.map_map, List.map_replicate]
  rfl

/-- **The order of ages.** Down the AGE column the seconds that are read never decrease, and the
runs that were not started come after all that have an age. For one run they do not decrease as time
goes on. -/
theorem ages_ordered (repo : Repository) (style : Style) :
    (∀ now : Moment, ∃ (shown : List String) (values : List Nat) (k : Nat),
      ages style now repo = shown ++ List.replicate k Elapsed.notStarted ∧
      shown.length + k = repo.runs.length ∧
      shown.map Elapsed.read? = values.map some ∧
      Elapsed.notStarted ∉ shown ∧
      values.Pairwise (· ≤ ·)) ∧
    ∀ (run : Run) (now later : Moment), now.instant ≤ later.instant →
      (run.start = none ∧ ageOf (Cell.row style now run) = some Elapsed.notStarted ∧
        ageOf (Cell.row style later run) = some Elapsed.notStarted) ∨
      ∃ value value', (ageOf (Cell.row style now run)).bind Elapsed.read? = some value ∧
        (ageOf (Cell.row style later run)).bind Elapsed.read? = some value' ∧ value ≤ value' := by
  constructor
  · intro now
    obtain ⟨starts, k, hages, hsorted⟩ := exists_ages_eq style now repo
    have hlength := length_ages style now repo
    rw [hages, List.length_append, List.length_replicate] at hlength
    refine ⟨_, starts.map (fun s => Elapsed.toldAge (now.since s)), k, hages, hlength,
      Elapsed.map_read?_ages starts now, Elapsed.notStarted_notMem_ages starts now, ?_⟩
    -- The later a start, the less time has passed since.
    exact List.pairwise_map.mpr (hsorted.imp (fun hst => Elapsed.toldAge_since_mono hst le_rfl))
  · intro run now later hlater
    rw [ageOf_row, ageOf_row]
    cases hstart : run.start with
    | none => exact Or.inl ⟨rfl, rfl, rfl⟩
    | some s =>
      exact Or.inr ⟨_, _, Elapsed.read?_age s now, Elapsed.read?_age s later,
        Elapsed.toldAge_since_mono le_rfl hlater⟩

/-- Runs that are stored without an order: one that waits, one that starts tomorrow, and two that
started. -/
def scatteredRuns : Repository where
  name := "pac"
  ns := "ci"
  runs := [{ name := "waiting" },
    { name := "first", start := some (Moment.utc 0) },
    { name := "tomorrow", start := some (Moment.utc (365 * microsPerDay)) },
    { name := "second", start := some ⟨363 * microsPerDay, -90⟩ }]

/-- On the next day the twelve months of a run have become a year, which is five days more. -/
theorem ages_ordered_scattered :
    let now := Moment.utc (364 * microsPerDay)
    let later := Moment.utc (365 * microsPerDay)
    let first : Run := { name := "first", start := some (Moment.utc 0) }
    ages .plain now scatteredRuns = ["just now", "22 hours ago", "12 months ago", "not started"] ∧
      ages .plain later scatteredRuns = ["just now", "1 day ago", "1 year ago", "not started"] ∧
      now.instant ≤ later.instant ∧
      ∃ value value', (ageOf (Cell.row .plain now first)).bind Elapsed.read? = some value ∧
        (ageOf (Cell.row .plain later first)).bind Elapsed.read? = some value' ∧
        value ≤ value' := by
  intro now later first
  have hlater : now.instant ≤ later.instant := by decide
  have hstarted : first.start ≠ none := by decide
  refine ⟨by decide, by decide, hlater, ?_⟩
  rcases (ages_ordered scatteredRuns .plain).2 first now later hlater with ⟨hnone, -⟩ | hvalues
  · exact absurd hnone hstarted
  · exact hvalues

end Report

end PipelineRuns
