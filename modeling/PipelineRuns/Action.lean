import PipelineRuns.Journal.Record
import PipelineRuns.Failure

/-!
# Actions

An `Action α` is a computation that may note what it does, ask a cluster, keep temporary files, and
fail. Its effects outlive a failure: they are the state of the computation, and the failure is its
result. `Effects` holds the journal so far, the requests sent, and the temporary certificate bundles
that exist.

* `note` adds a record to the journal, `send` a request;
* `Bundles` is the store of temporary certificate bundles: `Bundles.create` hands out a number that
  was never used before, and `Bundles.remove` forgets a bundle.
-/

namespace PipelineRuns

/-- A request to a cluster. -/
structure Request where
  method : String
  url : String
  timeout : Int
  deriving DecidableEq, Repr

/-- The temporary certificate bundles that exist, each under its own number. -/
structure Bundles where
  next : Nat := 0
  files : List (Nat × List UInt8) := []
  deriving DecidableEq, Repr

namespace Bundles

/-- A new bundle with this content: its number, and the store that holds it. -/
def create (b : Bundles) (content : List UInt8) : Nat × Bundles :=
  (b.next, ⟨b.next + 1, b.files ++ [(b.next, content)]⟩)

/-- The store without the bundle of this number. -/
def remove (b : Bundles) (number : Nat) : Bundles :=
  { b with files := b.files.filter (fun f => f.1 ≠ number) }

/-- The content of the bundle of this number, if it exists. -/
def get? (b : Bundles) (number : Nat) : Option (List UInt8) :=
  b.files.lookup number

/-- The store after all files were deleted from outside. -/
def wiped (b : Bundles) : Bundles :=
  { b with files := [] }

end Bundles

/-- What a computation leaves behind besides its result. -/
structure Effects where
  journal : List Record := []
  requests : List Request := []
  bundles : Bundles := {}
  deriving DecidableEq, Repr

/-- A computation with effects that may fail. -/
abbrev Action (α : Type) := ExceptT Failure (StateM Effects) α

/-- The result of an action and its effects, from the effects `before`. -/
def Action.from {α : Type} (before : Effects) (a : Action α) : Except Failure α × Effects :=
  StateT.run (ExceptT.run a) before

/-- The result of an action and its effects, from no effects. -/
def Action.execute {α : Type} (a : Action α) : Except Failure α × Effects :=
  a.from {}

/-- Adds a record to the journal. -/
def note (r : Record) : Action Unit :=
  modify (fun e => { e with journal := e.journal ++ [r] })

/-- Adds records to the journal. -/
def noteAll (rs : List Record) : Action Unit :=
  modify (fun e => { e with journal := e.journal ++ rs })

/-- Adds a request to those sent. -/
def send (r : Request) : Action Unit :=
  modify (fun e => { e with requests := e.requests ++ [r] })

end PipelineRuns
