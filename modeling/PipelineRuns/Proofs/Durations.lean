import PipelineRuns.Failure
import PipelineRuns.Proofs.Spans
import PipelineRuns.Report.Render

/-!
# Reports that are never refused

A span of a full second or more into the past has no words (`Span.humanize`). `Elapsed.age` and
`Elapsed.duration` are written without this refusal, since they compare before they tell: an age is
told from one second on, and a duration when the completion is not before the start.

Here the refusal is put back. `Span.tryWords` fails with the notation of the span, and
`Elapsed.tryAge`, `Elapsed.tryDuration`, `Cell.tryRow` and `Report.tryRender` pass the failure on.
None of them ever fails, and their results are those of the functions without the refusal
(`Report.tryRender_eq_ok`). What a duration says is told by `Elapsed.Says`: one of three fixed
texts, each exactly in its own case, or else the words for the span, which start with a digit and so
cannot be taken for one of these texts.
-/

namespace PipelineRuns

/-! ### Spans with the refusal -/

/-- A span in words, or its notation as a failure where it has none. -/
def Span.tryWords (micros : Int) : Except Failure String :=
  match Span.humanize micros with
  | some words => .ok words
  | none => .error (.negativeSpan (Span.text micros))

theorem Span.tryWords_of_nonneg {micros : Int} (h : 0 ≤ micros) :
    Span.tryWords micros = .ok (Elapsed.words micros) := by
  unfold Span.tryWords
  rw [Span.humanize_of_nonneg h]
  rfl

-- The refusal itself: without the comparisons before it, a completion a second too early would end
-- the report.
example : Span.tryWords (-1000000) = .error (.negativeSpan "-1 day, 23:59:59") := by decide

/-- Words start with a digit. -/
theorem Span.exists_counted_eq_cons (count : Nat) (unit : String) :
    ∃ c rest, (Span.counted count unit).toList = c :: rest ∧ c.isDigit = true := by
  have hne : Nat.toDigits 10 count ≠ [] := Nat.toDigits_ne_nil
  obtain ⟨c, digits, hdigits⟩ := List.exists_cons_of_ne_nil hne
  have hmem : c ∈ Nat.toDigits 10 count := by
    rw [hdigits]
    exact List.mem_cons_self
  have hc : c.isDigit = true := Nat.isDigit_of_mem_toDigits (by decide) (by decide) hmem
  unfold Span.counted
  rw [String.toList_append, String.toList_append, String.toList_append, Nat.toString_eq_repr,
    Nat.toList_repr, hdigits]
  exact ⟨c, _, rfl, hc⟩

/-! ### Ages and durations with the refusal -/

namespace Elapsed

/-- How long ago something started, or why that cannot be said. -/
def tryAge (start : Option Moment) (now : Moment) : Except Failure String :=
  match start with
  | none => .ok notStarted
  | some s =>
    -- This takes the starts in the future too, so that no negative span is left.
    if now.since s < microsPerSecond then .ok justNow
    else do
      let words ← Span.tryWords (now.since s)
      return words ++ " ago"

/-- How long something took, or why that cannot be said. -/
def tryDuration (start completion : Option Moment) : Except Failure String :=
  match start, completion with
  | none, _ => .ok notStarted
  | some _, none => .ok inProgress
  | some s, some c => if c.before s then .ok unknown else Span.tryWords (c.since s)

/-- An age of a second or more is no span into the past. -/
theorem tryAge_eq_ok (start : Option Moment) (now : Moment) :
    tryAge start now = .ok (age start now) := by
  unfold tryAge age
  cases start with
  | none => rfl
  | some s =>
    dsimp only
    split
    case isTrue hshort => rfl
    case isFalse hlong =>
      have hnonneg : 0 ≤ now.since s := by
        unfold microsPerSecond at hlong
        omega
      rw [Span.tryWords_of_nonneg hnonneg]
      rfl

theorem since_nonneg_of_not_before {s c : Moment} (h : ¬ c.before s = true) : 0 ≤ c.since s := by
  unfold Moment.before at h
  unfold Moment.since
  rw [decide_eq_true_eq] at h
  omega

theorem tryDuration_eq_ok (start completion : Option Moment) :
    tryDuration start completion = .ok (duration start completion) := by
  unfold tryDuration duration
  cases start with
  | none => rfl
  | some s =>
    cases completion with
    | none => rfl
    | some c =>
      dsimp only
      split
      case isTrue hbefore => rfl
      case isFalse hafter => exact Span.tryWords_of_nonneg (since_nonneg_of_not_before hafter)

/-! ### What a duration says -/

/-- What a text says of a start and a completion. -/
structure Says (start completion : Option Moment) (text : String) : Prop where
  notStarted_iff : text = notStarted ↔ start = none
  inProgress_iff : text = inProgress ↔ start ≠ none ∧ completion = none
  unknown_iff : text = unknown ↔ ∃ s c, start = some s ∧ completion = some c ∧ c.instant < s.instant
  words : ∀ s c, start = some s → completion = some c → s.instant ≤ c.instant →
    Span.humanize (c.since s) = some text ∧
      ∃ count, ∃ u ∈ Span.units, text = Span.counted count u.1 ∧
        Span.told (Span.seconds (c.since s)).toNat = count * u.2

/-- Words are none of the three fixed texts. -/
theorem counted_ne (count : Nat) (unit : String) :
    Span.counted count unit ≠ notStarted ∧ Span.counted count unit ≠ inProgress ∧
      Span.counted count unit ≠ unknown := by
  obtain ⟨c, rest, hcounted, hdigit⟩ := Span.exists_counted_eq_cons count unit
  have hne : ∀ {text : String}, text.toList.head?.any Char.isDigit = false →
      Span.counted count unit ≠ text := by
    intro text htext heq
    rw [← heq, hcounted, List.head?_cons, Option.any_some, hdigit] at htext
    exact nomatch htext
  exact ⟨hne rfl, hne rfl, hne rfl⟩

/-- A duration says what is known of the start and the completion. -/
theorem says_duration (start completion : Option Moment) :
    Says start completion (duration start completion) := by
  unfold duration
  cases start with
  | none =>
    dsimp only
    -- Each of the fixed texts differs from the other two, here and in the next two cases.
    refine ⟨iff_of_true rfl rfl, iff_of_false (by decide) ?_, iff_of_false (by decide) ?_, ?_⟩
    · exact fun h => h.1 rfl
    · rintro ⟨s, c, hs, -⟩
      exact nomatch hs
    · intro s c hs
      exact nomatch hs
  | some s =>
    cases completion with
    | none =>
      dsimp only
      refine ⟨iff_of_false (by decide) nofun, iff_of_true rfl ⟨nofun, rfl⟩,
        iff_of_false (by decide) ?_, ?_⟩
      · rintro ⟨s, c, -, hc, -⟩
        exact nomatch hc
      · intro s c hs hc
        exact nomatch hc
    | some c =>
      have hgiven : ¬(some s ≠ none ∧ some c = none) := fun h => nomatch h.2
      dsimp only
      split
      case isTrue hbefore =>
        have hlt : c.instant < s.instant := of_decide_eq_true hbefore
        refine ⟨iff_of_false (by decide) nofun, iff_of_false (by decide) hgiven,
          iff_of_true rfl ⟨s, c, rfl, rfl, hlt⟩, ?_⟩
        rintro _ _ ⟨⟩ ⟨⟩ hle
        exact absurd hlt (not_lt.mpr hle)
      case isFalse hafter =>
        -- Only here there are words, and they differ from all three texts in their first letter.
        have hle : ¬ c.instant < s.instant := fun hlt => hafter (decide_eq_true hlt)
        obtain ⟨count, u, hu, hwords, htold⟩ :=
          Span.exists_inUnits_eq (Span.seconds (c.since s)).toNat
        obtain ⟨hnotStarted, hinProgress, hunknown⟩ := counted_ne count u.1
        have htext : Elapsed.words (c.since s) = Span.counted count u.1 := hwords
        rw [htext]
        refine ⟨iff_of_false hnotStarted nofun, iff_of_false hinProgress hgiven,
          iff_of_false hunknown ?_, ?_⟩
        · rintro ⟨_, _, ⟨⟩, ⟨⟩, hlt⟩
          exact hle hlt
        · rintro _ _ ⟨⟩ ⟨⟩ -
          rw [Span.humanize_of_nonneg (since_nonneg_of_not_before hafter), hwords]
          exact ⟨rfl, count, u, hu, rfl, htold⟩

end Elapsed

/-! ### Reports with the refusal -/

/-- The cells of a run, or why its age or its duration cannot be said. -/
def Cell.tryRow (style : Style) (now : Moment) (run : Run) : Except Failure (List Cell) := do
  -- The cells before these two are made without a clock, and are taken as they are.
  let age ← Elapsed.tryAge run.start now
  let duration ← Elapsed.tryDuration run.start run.completion
  return (Cell.row style now run).take (headings.idxOf "AGE") ++ [plain age, plain duration]

theorem Cell.tryRow_eq_ok (style : Style) (now : Moment) (run : Run) :
    Cell.tryRow style now run = .ok (Cell.row style now run) := by
  unfold Cell.tryRow
  rw [Elapsed.tryAge_eq_ok, Elapsed.tryDuration_eq_ok]
  rfl

namespace Report

/-- The report on a Repository at a time, or why an age or a duration in it cannot be said. -/
def tryRender (repo : Repository) (now : Moment) (style : Style) : Except Failure String := do
  let shown ← (Run.display repo.runs).mapM (Cell.tryRow style now)
  let body :=
    if repo.runs.isEmpty then [noRuns]
    else table (Cell.headings.map (Cell.heading style) :: shown)
  return String.intercalate "\n" (header style repo ++ "" :: body) ++ "\n"

/-- What is written in the DURATION column of a row. -/
def durationOf (row : List Cell) : Option String :=
  (row[Cell.headings.idxOf "DURATION"]?).map Cell.written

/-- **Nothing is refused.** Every report is made, whatever the times of its runs are. No age and no
duration asks for the words of a span into the past, and each duration says what is known of its
run. -/
theorem tryRender_eq_ok (repo : Repository) (now : Moment) (style : Style) :
    tryRender repo now style = .ok (render repo now style) ∧
    (∀ start, Elapsed.tryAge start now = .ok (Elapsed.age start now)) ∧
    (∀ start completion, Elapsed.tryDuration start completion =
      .ok (Elapsed.duration start completion)) ∧
    ∀ run, ∃ text, durationOf (Cell.row style now run) = some text ∧
      Elapsed.Says run.start run.completion text := by
  refine ⟨?_, fun start => Elapsed.tryAge_eq_ok start now, Elapsed.tryDuration_eq_ok, ?_⟩
  · have hrow : Cell.tryRow style now = fun run => pure (Cell.row style now run) :=
      funext (Cell.tryRow_eq_ok style now)
    unfold tryRender
    rw [hrow, List.mapM_pure]
    rfl
  · intro run
    exact ⟨Elapsed.duration run.start run.completion, rfl,
      Elapsed.says_duration run.start run.completion⟩

end Report

end PipelineRuns
