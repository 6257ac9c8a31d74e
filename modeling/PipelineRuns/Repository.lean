import PipelineRuns.Action
import PipelineRuns.Field
import PipelineRuns.Run

/-!
# Repositories

A `Repository` is the resource that collects the runs of one source repository; it is addressed by
its name and namespace. `Repository.ofResource` reads the resource. Its runs are read by `Run.load`
from the mappings of the list that `Repository.statuses` selects, in stored order. Reading fails
when the metadata or the specification is given but is no mapping, or when a name, a namespace or a
URL is no text.
-/

namespace PipelineRuns

/-- A Repository with the runs recorded on it, in stored order. -/
structure Repository where
  name : String
  ns : String
  url : String := ""
  runs : List Run := []
  deriving DecidableEq, Repr, Inhabited

namespace Repository

/-- The group of the resource's interface. -/
def group : String := "pipelinesascode.tekton.dev"

/-- The version of the resource's interface. -/
def version : String := "v1alpha1"

/-- The kind of the resource. -/
def kind : String := "Repository"

/-- The name of the resource's collection. -/
def plural : String := "repositories"

/-- The entries of the mapping under a key; none when nothing counts as given there. -/
def part (data : Mapping) (key : String) : Except Failure Mapping :=
  let v := data.get key
  if v.isTruthy then
    match v with
    | .mapping m => .ok m
    | _ => .error .notMapping
  else .ok []

/-- The items of the status list: under its own key, or under the older one where that is absent. -/
def statuses (data : Mapping) : List Value :=
  let own := data.get "pipelinerun_status"
  (if own.isNull then data.get "status" else own).items

/-- The entries of the status list: its items that are mappings. -/
def statusEntries (data : Mapping) : List Mapping :=
  (statuses data).filterMap Value.entries?

/-- The Repository with these fields, once each is a text. -/
def ofFields (name ns url : Value) (runs : List Run) : Except Failure Repository :=
  match Field.text "name" name, Field.text "namespace" ns, Field.text "url" url with
  | .ok n, .ok s, .ok u => .ok ⟨n, s, u, runs⟩
  | n, s, u =>
    .error (.invalid "Repository" (Field.issues [Field.issue? n, Field.issue? s, Field.issue? u]))

/-- The value under a key, or an empty text where there is no such key. -/
def textOrEmpty (m : Mapping) (key : String) : Value :=
  (m.get? key).getD (.text "")

/-- The value under a key, or an empty text where it does not count as given. -/
def givenOrEmpty (m : Mapping) (key : String) : Value :=
  if (m.get key).isTruthy then m.get key else .text ""

/-- The Repository that a resource describes. -/
def ofResource (data : Mapping) : Action Repository := do
  let metadata ← (part data "metadata" : Except Failure Mapping)
  let spec ← (part data "spec" : Except Failure Mapping)
  let runs ← (statusEntries data).mapM Run.load
  (ofFields (textOrEmpty metadata "name") (textOrEmpty metadata "namespace")
    (givenOrEmpty spec "url") runs :
    Except Failure Repository)

end Repository

end PipelineRuns
