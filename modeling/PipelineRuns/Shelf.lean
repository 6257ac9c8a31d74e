import PipelineRuns.Repository

/-!
# Shelves

A `Shelf` holds Repositories under their name and namespace. The Repository put there last under a
key is the one that is found.
-/

namespace PipelineRuns

/-- Repositories, the last one put there first. -/
structure Shelf where
  repositories : List Repository := []
  deriving DecidableEq, Repr

namespace Shelf

/-- Whether a Repository has this name and namespace. -/
def hasKey (name ns : String) (repo : Repository) : Bool :=
  repo.ns = ns && repo.name = name

/-- The shelf with one more Repository, in place of one with the same key. -/
def add (s : Shelf) (repo : Repository) : Shelf :=
  ⟨repo :: s.repositories.filter (fun r => !hasKey repo.name repo.ns r)⟩

/-- A shelf filled in order. -/
def ofList (repos : List Repository) : Shelf :=
  repos.foldl add {}

/-- The Repository with this name and namespace. -/
def get? (s : Shelf) (name ns : String) : Option Repository :=
  s.repositories.find? (hasKey name ns)

/-- The Repository with this name and namespace, or the failure to find it. -/
def fetch (s : Shelf) (name ns : String) : Except Failure Repository :=
  match s.get? name ns with
  | some repo => .ok repo
  | none => .error (.fetch (.notFound name ns))

end Shelf

end PipelineRuns
