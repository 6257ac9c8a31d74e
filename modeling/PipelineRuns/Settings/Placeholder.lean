import PipelineRuns.Environment
import PipelineRuns.Text.Blank
import PipelineRuns.Value.Basic

/-!
# Placeholders

A text of a settings file that is, as a whole, `${NAME}` or `$NAME` stands for a variable of the
environment. `Placeholder.name?` recognises such a text and gives the trimmed name;
`Placeholder.fill` puts the values of known variables in place of placeholders throughout a value
and leaves all else as it is, keys included.
-/

namespace PipelineRuns.Placeholder

/-- The name between braces, if a text ends in the closing one. -/
def braced? (s : List Char) : Option (List Char) :=
  match s.getLast? with
  | some '\x7d' => some s.dropLast
  | _ => none

/-- The name that a placeholder holds, blanks at its ends removed. -/
def name? (s : String) : Option String :=
  match s.toList with
  | '$' :: '\x7b' :: rest => (braced? rest).map (fun n => String.ofList (Text.trim n))
  | '$' :: rest => some (String.ofList (Text.trim rest))
  | _ => none

/-- The value of the variable that a text stands for, or the text itself. -/
def resolve (env : Environment) (s : String) : String :=
  match name? s with
  | none => s
  | some n => (env.get? n).getD s

mutual

/-- A value with its placeholders filled. -/
def fill (env : Environment) : Value → Value
  | .text s => .text (resolve env s)
  | .list xs => .list (fillItems env xs)
  | .mapping m => .mapping (fillEntries env m)
  | v => v

/-- The items of a list with their placeholders filled. -/
def fillItems (env : Environment) : List Value → List Value
  | [] => []
  | v :: rest => fill env v :: fillItems env rest

/-- The entries of a mapping with the placeholders of their values filled. -/
def fillEntries (env : Environment) : List (Value × Value) → List (Value × Value)
  | [] => []
  | (k, v) :: rest => (k, fill env v) :: fillEntries env rest

end

end PipelineRuns.Placeholder
