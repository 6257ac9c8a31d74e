import PipelineRuns.Text.Digit
import PipelineRuns.Text.Quoted
import PipelineRuns.Value.Basic

/-!
# Values as text

Where a text is expected and another value stands, the value is shown: `Value.shown` is a text
itself and the notation of any other value. The notation (`Value.notated`) is one line; texts inside
it are quoted, lists stand in square brackets, mappings and sets in braces and pairs in parentheses,
with a comma and a blank between their members. The members of a set would come in the order of
their hashes, which is not known here.

An integer of any length has a notation here. Where the length of a text of digits is limited, what
is said of the text of a value is said of one that `Value.canBeShown`.
-/

namespace PipelineRuns.Value

/-- Texts with a comma and a blank between them. -/
def commaSeparated (parts : List String) : String :=
  String.intercalate ", " parts

/-- The notation of an offset in minutes. -/
def offsetNotation (offset : Int) : String :=
  if offset = 0 then "datetime.timezone.utc"
  else
    let seconds := offset * 60
    let days := seconds / 86400
    let rest := seconds % 86400
    "datetime.timezone(datetime.timedelta(" ++
      commaSeparated ((if days = 0 then [] else ["days=" ++ toString days]) ++
        (if rest = 0 then [] else ["seconds=" ++ toString rest])) ++ "))"

/-- The notation of a timestamp: its fields, of which seconds and microseconds are left out when
nothing but zeros would follow. -/
def timestampNotation (wall : Int) (offset : Option Int) : String :=
  let m := Moment.utc wall
  let d := m.date
  let t := m.timeOfDay
  let fields :=
    [toString d.year, toString d.month, toString d.day, toString t.hour, toString t.minute] ++
    (if t.second = 0 && t.micro = 0 then [] else [toString t.second]) ++
    (if t.micro = 0 then [] else [toString t.micro]) ++
    (match offset with
      | none => []
      | some o => ["tzinfo=" ++ offsetNotation o])
  "datetime.datetime(" ++ commaSeparated fields ++ ")"

/-- The notation of a date. -/
def dateNotation (d : Civil) : String :=
  "datetime.date(" ++ commaSeparated [toString d.year, toString d.month, toString d.day] ++ ")"

mutual

/-- The notation of a value inside a list, a mapping or a message. The members of a set stand in the
order in which they were put in. -/
def notated : Value → String
  | .null => "None"
  | .bool b => if b then "True" else "False"
  | .int n => toString n
  | .float x => Number.text x
  | .text s => Text.quoted s
  | .bytes content => Text.quotedBytes content
  | .date d => dateNotation d
  | .timestamp wall offset => timestampNotation wall offset
  | .pair a b => "(" ++ notated a ++ ", " ++ notated b ++ ")"
  | .list xs => "[" ++ commaSeparated (notatedItems xs) ++ "]"
  | .set xs => if xs.isEmpty then "set()" else "\x7b" ++ commaSeparated (notatedItems xs) ++ "\x7d"
  | .mapping m => "\x7b" ++ commaSeparated (notatedEntries m) ++ "\x7d"

/-- The notations of items. -/
def notatedItems : List Value → List String
  | [] => []
  | v :: rest => notated v :: notatedItems rest

/-- The notations of entries. -/
def notatedEntries : List (Value × Value) → List String
  | [] => []
  | (k, v) :: rest => (notated k ++ ": " ++ notated v) :: notatedEntries rest

end

mutual

/-- Whether no integer in a value has more than `Text.maxDigits` digits. -/
def canBeShown : Value → Bool
  | .int n => n.natAbs < 10 ^ Text.maxDigits
  | .pair a b => canBeShown a && canBeShown b
  | .list xs | .set xs => canBeShownItems xs
  | .mapping m => canBeShownEntries m
  | _ => true

/-- Whether this is so for items. -/
def canBeShownItems : List Value → Bool
  | [] => true
  | v :: rest => canBeShown v && canBeShownItems rest

/-- Whether this is so for entries. -/
def canBeShownEntries : List (Value × Value) → Bool
  | [] => true
  | (k, v) :: rest => canBeShown k && canBeShown v && canBeShownEntries rest

end

/-- A text itself, and any other value as it is notated; dates and timestamps stand in plain
notation. -/
def shown : Value → String
  | .text s => s
  | .date d => d.text
  | .timestamp wall (some offset) => Moment.textWith " " ⟨wall, offset⟩
  | .timestamp wall none =>
    let m := Moment.utc wall
    m.date.text ++ " " ++ m.timeOfDay.text
  | v => notated v

@[simp] theorem shown_text (s : String) : shown (.text s) = s := rfl

/-- The text of a value that stands where text is expected; null stays absent. -/
def shown? : Value → Option String
  | .null => none
  | v => some (shown v)

end PipelineRuns.Value
