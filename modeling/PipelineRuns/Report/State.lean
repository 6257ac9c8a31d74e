/-!
# Display states

A run is shown in one of four states, chosen by the reason of its condition alone
(`DisplayState.classify`). Reasons that are not listed are shown as unknown, so that a reason that
is new is never taken for a success or a failure; no reason at all means that the run is still going
on.
-/

namespace PipelineRuns

/-- How a run is shown. -/
inductive DisplayState where
  | succeeded
  | failed
  | running
  | unknown
  deriving DecidableEq, Repr, Inhabited

namespace DisplayState

/-- The name of a state. -/
def name : DisplayState → String
  | succeeded => "Succeeded"
  | failed => "Failed"
  | running => "Running"
  | unknown => "Unknown"

/-- The sign of a state. -/
def icon : DisplayState → String
  | succeeded => "✓"
  | failed => "✗"
  | running => "•"
  | unknown => "?"

/-- The reasons that mean success. -/
def successReasons : List String :=
  ["Succeeded", "Success", "Completed"]

/-- The reasons that mean failure. -/
def failureReasons : List String :=
  ["Failed", "Failure", "PipelineRunTimeout", "PipelineRunCancelled", "Cancelled",
    "CouldntGetPipeline", "CouldntGetTask", "InvalidPipelineResourceBindings",
    "PipelineValidationFailed"]

/-- The reasons of runs that go on. -/
def runningReasons : List String :=
  ["Running", "Started", "Pending", "PipelineRunPending"]

/-- The state for a reason. -/
def ofReason (reason : String) : DisplayState :=
  if reason = "" then running
  else if reason ∈ successReasons then succeeded
  else if reason ∈ failureReasons then failed
  else if reason ∈ runningReasons then running
  else unknown

/-- The state for the reason of a condition, if there is one. -/
def classify : Option String → DisplayState
  | none => running
  | some reason => ofReason reason

@[simp] theorem classify_none : classify none = running := rfl

@[simp] theorem classify_some (r : String) : classify (some r) = ofReason r := rfl

end DisplayState

end PipelineRuns
