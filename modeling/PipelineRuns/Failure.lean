import PipelineRuns.Base64
import PipelineRuns.Files.Fault

/-!
# Failures

`Failure` lists why an operation of this library ends without a result. The first three families are
failures that the commands report to the user with their text: a Repository could not be fetched
(`FetchFailure`), the starter run could not be written (`StarterFailure`), or the work tree could
not be found (`CheckoutFailure`). The others tell that something handed in has a shape that the
operation cannot work with.

`Issue` is one complaint about one field of a record, and `Failure.invalid` collects them in field
order.
-/

namespace PipelineRuns

/-- Why no Repository could be fetched. -/
inductive FetchFailure where
  | notFound (name ns : String)
  | unreadable (path : String) (fault : FileFault)
  | notYaml (path fault : String)
  | badBundle (fault : Base64.Fault)
  | noServer
  | refused (status : Int) (message : String)
  | unreachable (server reason : String)
  deriving DecidableEq, Repr

/-- The text of a failed fetch. -/
def FetchFailure.message : FetchFailure → String
  | .notFound name ns => "repository \"" ++ name ++ "\" not found in namespace \"" ++ ns ++ "\""
  | .unreadable path fault => "cannot read " ++ path ++ ": " ++ fault.message
  | .notYaml path fault => "invalid YAML in " ++ path ++ ": " ++ fault
  | .badBundle fault => "invalid certificate-authority-data in kubeconfig: " ++ fault.message
  | .noServer => "no Kubernetes API server configured"
  | .refused status message => toString status ++ ": " ++ message
  | .unreachable server reason => "cannot reach " ++ server ++ ": " ++ reason

/-- Why no starter run was written. -/
inductive StarterFailure where
  | unknownEvent (event : String)
  | cannotCreate (path : String) (fault : FileFault)
  | cannotWrite (path : String) (fault : FileFault)
  deriving DecidableEq, Repr

/-- The text of a failed generation. -/
def StarterFailure.message : StarterFailure → String
  | .unknownEvent event => "invalid event type: " ++ event
  | .cannotCreate path fault => "cannot create " ++ path ++ ": " ++ fault.message
  | .cannotWrite path fault => "cannot write " ++ path ++ ": " ++ fault.message

/-- Why the top directory of the work tree is not known. -/
inductive CheckoutFailure where
  | failed (command complaint : String)
  | notInstalled
  | outside (directory : String)
  deriving DecidableEq, Repr

/-- The text of a failed look-up of the work tree. -/
def CheckoutFailure.message : CheckoutFailure → String
  | .failed command complaint => command ++ ": " ++ complaint
  | .notInstalled => "git not found"
  | .outside directory => directory ++ " is not inside a git work tree"

/-- A complaint about one field: where it stands, what kind of complaint it is, and its text. -/
structure Issue where
  place : String
  kind : String
  text : String
  deriving DecidableEq, Repr

/-- Why an operation ended without a result. -/
inductive Failure where
  | fetch (f : FetchFailure)
  | starter (f : StarterFailure)
  | checkout (f : CheckoutFailure)
  /-- Fields of a record do not have values of their types. -/
  | invalid (record : String) (issues : List Issue)
  /-- The variable of a whole settings section does not hold JSON. -/
  | sectionNotJson (name : String)
  /-- A mapping was needed to look something up in. -/
  | notMapping
  /-- A value of another type was needed. -/
  | wrongType
  /-- A value has the right type, but no meaning. -/
  | badValue
  | unknownKey
  | emptySequence
  /-- The content of a file is not UTF-8. -/
  | notUtf8
  | file (f : FileFault)
  /-- A time beyond the years 1 to 9999, the code of a character beyond 31 bits, or a number that is
  too large for a floating point number. -/
  | outOfRange
  /-- The input ended at a question. -/
  | endOfInput
  /-- The user interrupted the program. -/
  | interrupted
  /-- The version control program did not answer in time. -/
  | timedOut
  /-- The body of a response is not JSON. -/
  | notJson
  /-- A home directory is asked for of a user that is not known. -/
  | unknownHome
  | notYaml
  /-- A document means a value that has no counterpart here: a collection that is part of itself, a
  text with a lone surrogate, or a float that is not a number and not written `.nan`. What becomes
  of it is not said. -/
  | leftOut
  /-- A span that goes into the past. -/
  | negativeSpan (span : String)
  deriving DecidableEq, Repr

/-- The text of a failure. -/
def Failure.message : Failure → String
  | .fetch f => f.message
  | .starter f => f.message
  | .checkout f => f.message
  | .invalid record issues =>
    record ++ ": " ++ String.intercalate ", " (issues.map (fun i => i.place ++ " " ++ i.kind))
  | .sectionNotJson name => "the variable of the section " ++ name ++ " does not hold JSON"
  | .notMapping => "a mapping is needed"
  | .wrongType => "a value has the wrong type"
  | .badValue => "a value has no meaning"
  | .unknownKey => "a key is not known"
  | .emptySequence => "a text is empty"
  | .notUtf8 => "a file is not UTF-8"
  | .file f => f.message
  | .outOfRange => "a time, a code or a number is out of range"
  | .endOfInput => "the input has ended"
  | .interrupted => "interrupted"
  | .timedOut => "git did not answer in time"
  | .notJson => "a response is not JSON"
  | .unknownHome => "a home directory is not known"
  | .notYaml => "a document is not YAML"
  | .leftOut => "a document holds a value that is not known here"
  | .negativeSpan span => "negative duration: " ++ span

end PipelineRuns
