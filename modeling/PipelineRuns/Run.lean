import PipelineRuns.Action
import PipelineRuns.Field
import PipelineRuns.Time.Reading
import PipelineRuns.Value.Show

/-!
# Runs

A `Run` is one execution of a pipeline as the status of a Repository records it: a name, the reason
and message of its first condition, when it started and completed, the commit, and the event that
caused it. Every field but the name may be absent.

`Run.read` reads an entry of the status in two steps. `Run.draft` takes a value for each field from
the entry, a text or a time if it finds one, and `Run.ofDraft` checks that each of these values has
the type of its field. `Run.ofEntry` is the run that comes out: a field that cannot be read counts
as absent, and no field depends on the value of another.

A value without a text, since a number in it is too long, is not told apart: `Run.canBeShown` says
that an entry has none where a text is needed.

`Run.remarks` notes the times that were given but could not be read, and `Run.load` reads an entry
and takes these notes.
-/

namespace PipelineRuns

/-- A recorded run of a pipeline. -/
structure Run where
  name : String := ""
  reason : Option String := none
  message : Option String := none
  start : Option Moment := none
  completion : Option Moment := none
  sha : Option String := none
  shaUrl : Option String := none
  title : Option String := none
  branch : Option String := none
  event : Option String := none
  deriving DecidableEq, Repr, Inhabited

namespace Run

/-- An absent text for an empty one. -/
def nonEmpty (s : Option String) : Option String :=
  s.filter (fun t => t ≠ "")

/-- Whether a value states no time because none is given. -/
def noTime : Value → Bool
  | .null => true
  | .text s => s = ""
  | _ => false

/-- The time under a key; absent when there is none or when it cannot be read. -/
def timeAt (entry : Mapping) (key : String) : Option Moment :=
  if noTime (entry.get key) then none else Moment.ofValue? (entry.get key)

/-- The text under a key: a text itself, any other value as it is shown. -/
def textAt (entry : Mapping) (key : String) : Option String :=
  (entry.get key).shown?

/-- The first condition of an entry; an empty one where there is none. -/
def condition (entry : Mapping) : Mapping :=
  match (entry.get "conditions").items with
  | .mapping m :: _ => m
  | _ => []

/-- The run that an entry of the status records. -/
def ofEntry (entry : Mapping) : Run where
  name := (textAt entry "pipelineRunName").getD ""
  reason := nonEmpty (textAt (condition entry) "reason")
  message := nonEmpty (textAt (condition entry) "message")
  start := timeAt entry "startTime"
  completion := timeAt entry "completionTime"
  sha := textAt entry "sha"
  shaUrl := textAt entry "sha_url"
  title := textAt entry "title"
  branch := textAt entry "target_branch"
  event := textAt entry "event_type"

/-- Whether the values that an entry gives for the texts of a run can be shown. -/
def canBeShown (entry : Mapping) : Bool :=
  ["reason", "message"].all (fun key => ((condition entry).get key).canBeShown) &&
    ["pipelineRunName", "sha", "sha_url", "title", "target_branch", "event_type"].all
      (fun key => (entry.get key).canBeShown)

/-! ### Drafts -/

/-- A value for each field of a run. -/
structure Draft where
  name : Value
  reason : Value
  message : Value
  start : Value
  completion : Value
  sha : Value
  shaUrl : Value
  title : Value
  branch : Value
  event : Value

/-- The time that a value states, as a timestamp; null when it states none. -/
def stamped (v : Value) : Value :=
  if noTime v then .null
  else
    match Reading.ofValue? v with
    | some (wall, offset) => .timestamp wall offset
    | none => .null

/-- The values that an entry of the status has for the fields of a run. -/
def draft (entry : Mapping) : Draft where
  name := .text ((textAt entry "pipelineRunName").getD "")
  reason := Value.ofText? (nonEmpty (textAt (condition entry) "reason"))
  message := Value.ofText? (nonEmpty (textAt (condition entry) "message"))
  start := stamped (entry.get "startTime")
  completion := stamped (entry.get "completionTime")
  sha := Value.ofText? (textAt entry "sha")
  shaUrl := Value.ofText? (textAt entry "sha_url")
  title := Value.ofText? (textAt entry "title")
  branch := Value.ofText? (textAt entry "target_branch")
  event := Value.ofText? (textAt entry "event_type")

/-- The moment of a field that may be absent; without an offset it is universal time. -/
def momentOrNull (place : String) : Value → Except Issue (Option Moment)
  | .null => .ok none
  | v =>
    match Moment.ofValue? v with
    | some m => .ok (some m)
    | none => .error ⟨place, "datetime_type", "Input should be a valid datetime"⟩

/-- The run with these fields, once each has its type. -/
def ofDraft (d : Draft) : Except Failure Run :=
  match Field.text "pipeline_run_name" d.name, Field.textOrNull "condition_reason" d.reason,
    Field.textOrNull "condition_message" d.message, momentOrNull "start_time" d.start,
    momentOrNull "completion_time" d.completion, Field.textOrNull "sha" d.sha,
    Field.textOrNull "sha_url" d.shaUrl, Field.textOrNull "title" d.title,
    Field.textOrNull "target_branch" d.branch, Field.textOrNull "event_type" d.event with
  | .ok name, .ok reason, .ok message, .ok start, .ok completion, .ok sha, .ok shaUrl, .ok title,
    .ok branch, .ok event =>
    .ok ⟨name, reason, message, start, completion, sha, shaUrl, title, branch, event⟩
  | a, b, c, d, e, f, g, h, i, j =>
    .error (.invalid "RunStatus" (Field.issues [Field.issue? a, Field.issue? b, Field.issue? c,
      Field.issue? d, Field.issue? e, Field.issue? f, Field.issue? g, Field.issue? h,
      Field.issue? i, Field.issue? j]))

/-- The run that an entry of the status records, or what is wrong with its values. -/
def read (entry : Mapping) : Except Failure Run :=
  ofDraft (draft entry)

/-! ### Notes -/

/-- The note on a time under a key that is given but cannot be read. -/
def timeRemark (entry : Mapping) (key : String) : List Record :=
  let v := entry.get key
  if noTime v || (Moment.ofValue? v).isSome then []
  else
    [.debug "tknpac.models.run_status"
      ("Ignoring invalid " ++ key ++ " " ++ v.notated ++ " on run " ++
        (entry.get "pipelineRunName").shown)]

/-- The notes on an entry. -/
def remarks (entry : Mapping) : List Record :=
  timeRemark entry "startTime" ++ timeRemark entry "completionTime"

/-- Reads an entry of the status and takes the notes on it. -/
def load (entry : Mapping) : Action Run := do
  noteAll (remarks entry)
  (read entry : Except Failure Run)

end Run

end PipelineRuns
