import PipelineRuns.Proofs.Order
import PipelineRuns.Report.Render

/-!
# Reports and the choice of clocks

A moment can be written with any offset from universal time, and all moments of a report can be
moved by one span. Neither is to be seen in the report: it depends only on the differences between
instants.

The two are treated as one. A moment is later than another by a span if its instant is
(`Moment.LaterBy`); the span is zero for a moment that is written with another offset
(`laterBy_atOffset`), and it is the span by which a moment is advanced (`laterBy_of_advance?`).
Walls and offsets occur in no condition, and so the walls of two times that are moved together need
have nothing in common. What the report makes of its moments is then found unchanged piece by piece:
their differences and their order (`since_eq`, `before_eq`), the age and the duration of a run, and
which run has its place before which. The last gives the order of display by `Run.forall₂_display`,
so that runs which start at the same instant keep their stored order even if their starts are
written with different offsets.

Main statement: `Report.render_moved`.
-/

namespace PipelineRuns

/-! ### Moments -/

namespace Moment

/-- The instant of `b` is `span` microseconds after that of `a`. -/
def LaterBy (span : Int) (a b : Moment) : Prop :=
  b.instant = a.instant + span

instance (span : Int) (a b : Moment) : Decidable (LaterBy span a b) :=
  inferInstanceAs (Decidable (b.instant = a.instant + span))

/-- The same instant on the wall of a place with another offset. -/
def atOffset (m : Moment) (offset : Int) : Moment :=
  ⟨m.instant + offset * 60 * microsPerSecond, offset⟩

theorem laterBy_atOffset (m : Moment) (offset : Int) : LaterBy 0 m (m.atOffset offset) := by
  unfold LaterBy atOffset instant
  dsimp only
  omega

/-- A moment that is moved by a span is later by it. -/
theorem laterBy_of_advance? {m m' : Moment} {span : Int} (h : m.advance? span = some m') :
    LaterBy span m m' := by
  unfold advance? at h
  split at h
  case isTrue hrange =>
    obtain rfl := Option.some.inj h
    unfold LaterBy instant
    dsimp only
    omega
  case isFalse hrange => exact nomatch h

variable {span : Int} {a a' b b' : Moment}

/-- The time between two moments stays, if both are moved by one span. -/
theorem since_eq (ha : LaterBy span a a') (hb : LaterBy span b b') : a'.since b' = a.since b := by
  unfold LaterBy at ha hb
  unfold since
  omega

/-- So does their order. -/
theorem before_eq (ha : LaterBy span a a') (hb : LaterBy span b b') :
    a'.before b' = a.before b := by
  unfold LaterBy at ha hb
  unfold before
  rw [ha, hb]
  exact decide_eq_decide.mpr (Int.add_lt_add_iff_right span)

end Moment

/-! ### Ages and durations -/

namespace Elapsed

variable {span : Int}

/-- An age is the time since the start, so it stays. -/
theorem age_eq {start start' : Option Moment} {now now' : Moment}
    (hstart : Option.Rel (Moment.LaterBy span) start start') (hnow : Moment.LaterBy span now now') :
    age start' now' = age start now := by
  cases hstart with
  | none => rfl
  | some hs =>
    unfold age
    dsimp only
    rw [Moment.since_eq hnow hs]

/-- A duration is the time from the start to the completion, so it stays. -/
theorem duration_eq {start start' completion completion' : Option Moment}
    (hstart : Option.Rel (Moment.LaterBy span) start start')
    (hcompletion : Option.Rel (Moment.LaterBy span) completion completion') :
    duration start' completion' = duration start completion := by
  cases hstart with
  | none => rfl
  | some hs =>
    cases hcompletion with
    | none => rfl
    | some hc =>
      unfold duration
      dsimp only
      rw [Moment.before_eq hc hs, Moment.since_eq hc hs]

end Elapsed

/-! ### Runs and Repositories -/

/-- The times of `b` are those of `a`, each `span` microseconds later, and everything else is the
same. -/
structure Run.LaterBy (span : Int) (a b : Run) : Prop where
  same : b = { a with start := b.start, completion := b.completion }
  start : Option.Rel (Moment.LaterBy span) a.start b.start
  completion : Option.Rel (Moment.LaterBy span) a.completion b.completion

/-- The times of the runs of `b` are those of `a`, each `span` microseconds later, and everything
else is the same. -/
structure Repository.LaterBy (span : Int) (a b : Repository) : Prop where
  same : b = { a with runs := b.runs }
  runs : List.Forall₂ (Run.LaterBy span) a.runs b.runs

variable {span : Int}

/-- The order of two runs stays. -/
theorem Run.shownBefore_eq {a a' b b' : Run} (ha : Run.LaterBy span a a')
    (hb : Run.LaterBy span b b') : Run.shownBefore a b = Run.shownBefore a' b' := by
  have hsa := ha.start
  have hsb := hb.start
  -- The relations are between projections of the runs, which have to be variables to be taken
  -- apart.
  unfold Run.shownBefore
  generalize a.start = s, a'.start = s' at hsa ⊢
  generalize b.start = t, b'.start = t' at hsb ⊢
  cases hsa with
  | none => rfl
  | some hs =>
    cases hsb with
    | none => rfl
    | some ht => exact (Moment.before_eq ht hs).symm

/-- The row of a run stays: its age and its duration do, and the rest is no time. -/
theorem Cell.row_eq (style : Style) {now now' : Moment} {a b : Run}
    (hnow : Moment.LaterBy span now now') (h : Run.LaterBy span a b) :
    Cell.row style now' b = Cell.row style now a := by
  have hage := Elapsed.age_eq h.start hnow
  have hduration := Elapsed.duration_eq h.start h.completion
  -- All other cells are made of what the two runs have in common.
  rw [h.same]
  unfold Cell.row
  dsimp only
  rw [hage, hduration]

theorem Cell.map_row_eq (style : Style) {now now' : Moment} {runs runs' : List Run}
    (hnow : Moment.LaterBy span now now') (h : List.Forall₂ (Run.LaterBy span) runs runs') :
    runs'.map (Cell.row style now') = runs.map (Cell.row style now) := by
  induction h with
  | nil => rw [List.map_nil, List.map_nil]
  | cons hrun _ ih => rw [List.map_cons, List.map_cons, Cell.row_eq style hnow hrun, ih]

/-- The rows of a table stay, and their order does. -/
theorem Report.rows_eq (style : Style) {now now' : Moment} {runs runs' : List Run}
    (hnow : Moment.LaterBy span now now') (h : List.Forall₂ (Run.LaterBy span) runs runs') :
    Report.rows style now' runs' = Report.rows style now runs := by
  have hdisplay : List.Forall₂ (Run.LaterBy span) (Run.display runs) (Run.display runs') :=
    Run.forall₂_display (fun _ _ _ _ ha hb => Run.shownBefore_eq ha hb) h
  -- The runs are put into the same order first, and then related row by row.
  unfold Report.rows
  rw [Cell.map_row_eq style hnow hdisplay]

theorem Report.render_eq (style : Style) {repo repo' : Repository} {now now' : Moment}
    (hrepo : Repository.LaterBy span repo repo') (hnow : Moment.LaterBy span now now') :
    render repo' now' style = render repo now style := by
  have hrows := rows_eq style hnow hrepo.runs
  have hempty : repo'.runs.isEmpty = repo.runs.isEmpty := by
    rw [Bool.eq_iff_iff, List.isEmpty_iff_length_eq_zero, List.isEmpty_iff_length_eq_zero,
      hrepo.runs.length_eq]
  have hheader : header style repo' = header style repo := by
    rw [hrepo.same]
    rfl
  unfold render lines
  rw [hheader, hempty, hrows]

/-- **Differences alone count.** When all times of a Repository and the clock are moved by one span,
whatever the offsets are that they are written with before and after, the report stays the same.
Both to write a moment with another offset and to advance it are moves of this kind, the first by
nothing. -/
theorem Report.render_moved (repo : Repository) (now : Moment) (style : Style) :
    (∀ span repo' now', Repository.LaterBy span repo repo' → Moment.LaterBy span now now' →
      render repo' now' style = render repo now style) ∧
    (∀ (m : Moment) offset, (m.atOffset offset).offset = offset ∧
      Moment.LaterBy 0 m (m.atOffset offset)) ∧
    ∀ (m m' : Moment) span, m.advance? span = some m' → Moment.LaterBy span m m' := by
  refine ⟨?_, ?_, ?_⟩
  · intro span repo' now' hrepo hnow
    exact render_eq style hrepo hnow
  · intro m offset
    exact ⟨rfl, m.laterBy_atOffset offset⟩
  · intro m m' span h
    exact Moment.laterBy_of_advance? h

namespace Report

/-- Runs that start at one instant, which is written with two offsets; the second completed before
it started. -/
def mixedOffsets : Repository where
  name := "pac"
  ns := "ci"
  runs := [{ name := "waiting" },
    { name := "east", start := some ⟨7200000000, 120⟩, completion := some ⟨9000000000, 120⟩ },
    { name := "home", start := some ⟨0, 0⟩, completion := some ⟨3599000000, 60⟩ }]

/-- The same runs a day later, with other offsets. -/
def mixedOffsetsMoved : Repository where
  name := "pac"
  ns := "ci"
  runs := [{ name := "waiting" },
    { name := "east", start := some ⟨86400000000, 0⟩, completion := some ⟨84600000000, -60⟩ },
    { name := "home", start := some ⟨91800000000, 90⟩, completion := some ⟨86399000000, 0⟩ }]

theorem render_moved_mixedOffsets :
    Repository.LaterBy microsPerDay mixedOffsets mixedOffsetsMoved ∧
      Moment.LaterBy microsPerDay ⟨3600000000, 60⟩ ⟨86400000000 + 7200000000, 120⟩ ∧
      (⟨0, 90⟩ : Moment).advance? microsPerDay = some ⟨microsPerDay, 90⟩ ∧
      (⟨0, 90⟩ : Moment).LaterBy microsPerDay ⟨microsPerDay, 90⟩ ∧
      render mixedOffsetsMoved ⟨86400000000 + 7200000000, 120⟩ .plain =
        render mixedOffsets ⟨3600000000, 60⟩ .plain := by
  -- Most walls do not move by a day, since the offsets change too; the instants do.
  have hruns : List.Forall₂ (Run.LaterBy microsPerDay) mixedOffsets.runs mixedOffsetsMoved.runs :=
    .cons ⟨rfl, .none, .none⟩ (.cons ⟨rfl, .some (by decide), .some (by decide)⟩
      (.cons ⟨rfl, .some (by decide), .some (by decide)⟩ .nil))
  have hrepo : Repository.LaterBy microsPerDay mixedOffsets mixedOffsetsMoved := ⟨rfl, hruns⟩
  have hnow : Moment.LaterBy microsPerDay ⟨3600000000, 60⟩ ⟨86400000000 + 7200000000, 120⟩ := by
    decide
  have hadvance : (⟨0, 90⟩ : Moment).advance? microsPerDay = some ⟨microsPerDay, 90⟩ := by decide
  obtain ⟨hrender, -, hadvanced⟩ := render_moved mixedOffsets ⟨3600000000, 60⟩ .plain
  exact ⟨hrepo, hnow, hadvance, hadvanced _ _ _ hadvance, hrender _ _ _ hrepo hnow⟩

end Report

end PipelineRuns
