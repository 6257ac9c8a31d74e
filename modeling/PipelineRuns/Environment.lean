/-!
# Environments

An `Environment` is the list of variables that a program is started with. `Environment.get?` looks a
variable up by its exact name, and `Environment.value` does so with an empty text for an absent one.
-/

namespace PipelineRuns

/-- The variables of a process, in order; names are unique. -/
abbrev Environment := List (String × String)

namespace Environment

/-- The value of a variable. -/
def get? (env : Environment) (name : String) : Option String :=
  env.lookup name

/-- The value of a variable; an empty text for one that is not set. -/
def value (env : Environment) (name : String) : String :=
  (env.get? name).getD ""

/-- The environment with a variable set: in its place if it was set before, else at the end. -/
def set : Environment → String → String → Environment
  | [], name, v => [(name, v)]
  | (n, old) :: rest, name, v => if n = name then (name, v) :: rest else (n, old) :: set rest name v

/-- The environment without a variable. -/
def unset (env : Environment) (name : String) : Environment :=
  env.filter (fun e => e.1 ≠ name)

end Environment

end PipelineRuns
