import PipelineRuns.Run

/-!
# The order of runs in a report

Runs are shown with the latest start first; runs that never started come last. Runs that start at
the same instant, and runs that never started, keep the order in which they are stored.

`Run.shownBefore a b` says that `a` has its place before `b` whatever their stored order, and
`Run.display` sorts stably by it: each run is put in front of the first of the later ones that it is
not shown after.
-/

namespace PipelineRuns.Run

/-- Whether `a` is shown before `b` even if it is stored after it. -/
def shownBefore (a b : Run) : Bool :=
  match a.start, b.start with
  | some s, some t => t.before s
  | some _, none => true
  | none, _ => false

/-- Puts a run into an ordered list that holds the runs stored after it. -/
def place (r : Run) : List Run → List Run
  | [] => [r]
  | s :: rest => if shownBefore s r then s :: place r rest else r :: s :: rest

/-- The runs in the order of the report. -/
def display (runs : List Run) : List Run :=
  runs.foldr place []

end PipelineRuns.Run
