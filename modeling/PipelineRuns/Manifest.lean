import PipelineRuns.Host
import PipelineRuns.Repository
import PipelineRuns.Yaml.Read

/-!
# Manifests

A manifest is a YAML text with Repository resources: one resource, several documents, or lists of
resources, nested to any depth. `Manifest.parts` flattens a document, in order, into the resources
it holds, the documents of other kinds that are skipped, and lists without items to go through.
`Manifest.load` reads the Repositories of a file; `Manifest.placed` gives those without a namespace
one.
-/

namespace PipelineRuns.Manifest

/-- A part of a manifest. -/
inductive Part where
  | resource (data : Mapping)
  | skipped (kind : Value)
  | notItems

/-- Whether a document is a list of resources. -/
def isList (doc : Mapping) : Bool :=
  (doc.get "kind").isText "List" || (!(doc.get "items").isNull && !doc.contains "kind")

/-- Whether a document is a Repository; one that does not tell its kind is. -/
def isRepository (doc : Mapping) : Bool :=
  match doc.get? "kind" with
  | none => true
  | some k => k.isText Repository.kind

/-- Whether a value that is no list has members to go through; none of them is a resource. -/
def hasMembers : Value → Bool
  | .text _ | .bytes _ | .set _ | .mapping _ | .pair _ _ => true
  | _ => false

mutual

/-- The parts of a document. What is no mapping has none. -/
def parts : Value → List Part
  | .mapping doc =>
    if isList doc then itemParts doc
    else if isRepository doc then [.resource doc]
    else [.skipped (Mapping.get doc "kind")]
  | _ => []

/-- The parts of the items that the entries of a list name. -/
def itemParts : List (Value × Value) → List Part
  | [] => []
  | (k, v) :: rest => if k.isText "items" then membersParts v else itemParts rest

/-- The parts of the members of a value. -/
def membersParts : Value → List Part
  | .list items => listParts items
  | v => if v.isTruthy && !hasMembers v then [.notItems] else []

/-- The parts of documents, one after the other. -/
def listParts : List Value → List Part
  | [] => []
  | v :: rest => parts v ++ listParts rest

end

/-- The channel of the notes on manifests. -/
def channel : String := "tknpac.adapters.file"

/-- The Repositories of parts. -/
def repositories : List Part → Action (List Repository)
  | [] => return []
  | .resource data :: rest => do
    let repo ← Repository.ofResource data
    return repo :: (← repositories rest)
  | .skipped kind :: rest => do
    note (.debug channel ("Skipping " ++ kind.shown ++ " document"))
    repositories rest
  | .notItems :: _ => throw .wrongType

/-- The documents of the file at a path. -/
def documents (host : Host) (path : FilePath) : Except Failure (List Value) :=
  match host.files.readText path with
  | .error (.file fault) => .error (.fetch (.unreadable path.text fault))
  | .error f => .error f
  | .ok text =>
    match Yaml.parseAll text with
    | .error .notYaml => .error (.fetch (.notYaml path.text Yaml.faultText))
    | r => r

/-- The Repositories in the file at a path. -/
def load (host : Host) (path : FilePath) : Action (List Repository) := do
  let docs ← (documents host path : Except Failure (List Value))
  let repos ← repositories (listParts docs)
  note (.debug channel ("Loaded " ++ toString repos.length ++ " repositories from " ++ path.text))
  return repos

/-- A Repository in the namespace it has, or else in the one given. -/
def placed (ns : String) (repo : Repository) : Repository :=
  if repo.ns = "" && ns ≠ "" then { repo with ns := ns } else repo

end PipelineRuns.Manifest
