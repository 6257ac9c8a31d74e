import PipelineRuns.Time.Span

/-!
# Ages and durations

`Elapsed.age` says how long ago a run started and `Elapsed.duration` how long it took, in the words
of `Span.humanize`. Neither looks at anything but the difference of two instants. An age of less
than a second, or of a start that lies ahead, is `just now`; a completion before the start leaves
the duration unknown.
-/

namespace PipelineRuns.Elapsed

/-- The text for a run without a start. -/
def notStarted : String := "not started"

/-- The text for a run without a completion. -/
def inProgress : String := "running"

/-- The text for a completion before the start. -/
def unknown : String := "Unknown"

/-- The text for an age of less than a second. -/
def justNow : String := "just now"

/-- A span that does not go into the past, in words. -/
def words (micros : Int) : String :=
  Span.inUnits (Span.seconds micros).toNat

/-- How long ago something started. -/
def age (start : Option Moment) (now : Moment) : String :=
  match start with
  | none => notStarted
  | some s => if now.since s < microsPerSecond then justNow else words (now.since s) ++ " ago"

/-- How long something took. -/
def duration (start completion : Option Moment) : String :=
  match start, completion with
  | none, _ => notStarted
  | some _, none => inProgress
  | some s, some c => if c.before s then unknown else words (c.since s)

end PipelineRuns.Elapsed
