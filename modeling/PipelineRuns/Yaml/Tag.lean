import PipelineRuns.Text.Line

/-!
# Tags of YAML

A `Tag` says what kind of value a node stands for. It is either given in the text or found from a
plain scalar: `Tag.ofPlain` recognises truth values, integers, floating point numbers, null,
timestamps, and the two marks `<<` and `=`; everything else is text. `Tag.ofName` is the tag of a
given name.

The recognisers are predicates on characters. `Plain.isInt` and `Plain.isFloat` accept the notations
of both kinds of numbers, base 60 included; `Plain.isTimestamp` accepts dates and timestamps.
-/

namespace PipelineRuns.Yaml

/-- The kinds of nodes. -/
inductive Tag where
  | null
  | bool
  | int
  | float
  | binary
  | timestamp
  | pairs
  | orderedPairs
  | set
  | text
  | list
  | mapping
  | merge
  | value
  | other
  deriving DecidableEq, Repr, Inhabited

namespace Plain

/-! ### Recognising plain scalars -/

/-- A text without a line feed at its end, unless it is nothing else; the end of a line counts as
the end of a text. -/
def withoutFinalBreak (s : List Char) : List Char :=
  match s.dropLast with
  | [] => s
  | front => if s.getLast? = some '\n' then front else s

/-- A digit, or the underscore that may stand between digits. -/
def isDigitOrGap (c : Char) : Bool := c.isDigit || c = '_'

/-- A text without its sign, if it has one. -/
def unsigned : List Char → List Char
  | '+' :: rest => rest
  | '-' :: rest => rest
  | s => s

/-- The text after the digits and gaps at its start, of which the first has to satisfy `first`. -/
def afterDigits? (first : Char → Bool) : List Char → Option (List Char)
  | c :: rest => if first c then some (rest.dropWhile isDigitOrGap) else none
  | [] => none

/-- A digit other than zero. -/
def isNonZero (c : Char) : Bool := c.isDigit && c ≠ '0'

/-- The digits of a number in base 60: at most two, and below 60. -/
def isSixtieth (s : List Char) : Bool :=
  match s with
  | [c] => c.isDigit
  | [c, d] => '0' ≤ c && c ≤ '5' && d.isDigit
  | _ => false

/-- One or more groups of base 60, each after a colon. -/
def areSixtieths (s : List Char) : Bool :=
  match Text.splitAt ':' s with
  | [] :: group :: groups => isSixtieth group && groups.all isSixtieth
  | _ => false

/-- A digit of base 16. -/
def isHexDigit (c : Char) : Bool :=
  c.isDigit || ('a' ≤ c && c ≤ 'f') || ('A' ≤ c && c ≤ 'F')

/-- A digit of base 8. -/
def isOctalDigit (c : Char) : Bool := '0' ≤ c && c ≤ '7'

/-- A non-empty text of characters of a class and gaps. -/
def isNumeral (p : Char → Bool) (s : List Char) : Bool :=
  !s.isEmpty && s.all (fun c => p c || c = '_')

/-- The notations of integers. -/
def isInt (s : List Char) : Bool :=
  match unsigned s with
  | ['0'] => true
  | '0' :: 'b' :: rest => isNumeral (fun c => c = '0' || c = '1') rest
  | '0' :: 'x' :: rest => isNumeral isHexDigit rest
  | '0' :: rest => isNumeral isOctalDigit rest
  | u =>
    match afterDigits? isNonZero u with
    | some rest => rest.isEmpty || areSixtieths rest
    | none => false

/-- An exponent with its sign, or nothing. -/
def isExponent : List Char → Bool
  | [] => true
  | e :: sign :: rest =>
    (e = 'e' || e = 'E') && (sign = '+' || sign = '-') && !rest.isEmpty && rest.all Char.isDigit
  | _ => false

/-- Digits and gaps, then an exponent or nothing. -/
def isFraction (s : List Char) : Bool :=
  isExponent (s.dropWhile isDigitOrGap)

/-- Groups of base 60, the last one followed by a point and digits or gaps. -/
def isSixtiethFraction (s : List Char) : Bool :=
  let groups := s.takeWhile (· ≠ '.')
  match s.dropWhile (· ≠ '.') with
  | '.' :: rest => areSixtieths groups && rest.all isDigitOrGap
  | _ => false

/-- The notations of floating point numbers. -/
def isFloat (s : List Char) : Bool :=
  let u := unsigned s
  (match afterDigits? Char.isDigit u with
    | some ('.' :: rest) => isFraction rest
    | some rest => isSixtiethFraction rest
    | none => false) ||
  (match s with
    | '.' :: rest => ((rest.head?.map Char.isDigit).getD false) && isFraction rest
    | _ => false) ||
  [".inf", ".Inf", ".INF"].contains (String.ofList u) ||
  [".nan", ".NaN", ".NAN"].contains (String.ofList s)

/-- The notations of truth values. -/
def isBool (s : String) : Bool :=
  ["yes", "Yes", "YES", "no", "No", "NO", "true", "True", "TRUE", "false", "False", "FALSE",
    "on", "On", "ON", "off", "Off", "OFF"].contains s

/-- The notations of null. -/
def isNull (s : String) : Bool :=
  ["", "~", "null", "Null", "NULL"].contains s

/-! ### Timestamps -/

/-- The parts of a timestamp as they are written; the time may be missing. -/
structure Stamp where
  year : List Char
  month : List Char
  day : List Char
  time : Option (List Char × List Char × List Char) := none
  fraction : List Char := []
  /-- The zone: universal time, or a sign with hours and minutes. -/
  zone : Option (Option (Bool × List Char × List Char)) := none

/-- The first `least` to `most` characters of a text as digits, and the rest. -/
def digits? (least most : Nat) (s : List Char) : Option (List Char × List Char) :=
  let ds := (s.take most).takeWhile Char.isDigit
  if least ≤ ds.length then some (ds, s.drop ds.length) else none

/-- The rest of a text after a character. -/
def after? (c : Char) : List Char → Option (List Char)
  | d :: rest => if d = c then some rest else none
  | [] => none

/-- A space or tab. -/
def isGap (c : Char) : Bool := c = ' ' || c = '\t'

/-- The zone that a text states after optional blanks. -/
def zone? (s : List Char) : Option (Option (Option (Bool × List Char × List Char))) :=
  match s with
  | [] => some none
  | _ =>
    match s.dropWhile isGap with
    | ['Z'] => some (some none)
    | sign :: rest =>
      if sign = '+' || sign = '-' then do
        let (hours, rest) ← digits? 1 2 rest
        match rest with
        | [] => return some (some (sign = '-', hours, []))
        | ':' :: rest =>
          let (minutes, rest) ← digits? 2 2 rest
          if rest.isEmpty then return some (some (sign = '-', hours, minutes)) else none
        | _ => none
      else none
    | [] => none

/-- The parts of a timestamp that a text writes. -/
def stamp? (s : List Char) : Option Stamp := do
  let (year, rest) ← digits? 4 4 s
  let rest ← after? '-' rest
  let (month, rest) ← digits? 1 2 rest
  let rest ← after? '-' rest
  let (day, rest) ← digits? 1 2 rest
  match rest with
  | [] => return { year, month, day }
  | between :: more =>
    let rest ← if between = 'T' || between = 't' then some more
      else if isGap between then some (more.dropWhile isGap) else none
    let (hour, rest) ← digits? 1 2 rest
    let rest ← after? ':' rest
    let (minute, rest) ← digits? 2 2 rest
    let rest ← after? ':' rest
    let (second, rest) ← digits? 2 2 rest
    let (fraction, rest) := match rest with
      | '.' :: more => (more.takeWhile Char.isDigit, more.dropWhile Char.isDigit)
      | _ => ([], rest)
    let zone ← zone? rest
    return { year, month, day, time := some (hour, minute, second), fraction, zone }

/-- Whether a plain scalar is a timestamp: a date alone has two digits for month and day. -/
def isTimestamp (s : List Char) : Bool :=
  match stamp? s with
  | some t => t.time.isSome || (t.month.length = 2 && t.day.length = 2)
  | none => false

end Plain

namespace Tag

/-- The tag that a plain scalar has by its text. -/
def ofPlain (text : String) : Tag :=
  let cs := Plain.withoutFinalBreak text.toList
  let s := String.ofList cs
  if Plain.isBool s then bool
  else if Plain.isFloat cs then float
  else if Plain.isInt cs then int
  else if s = "<<" then merge
  else if Plain.isNull s then null
  else if Plain.isTimestamp cs then timestamp
  else if s = "=" then value
  else .text

/-- What the names of the common tags begin with. -/
def common : String := "tag:yaml.org,2002:"

/-- The common tags by the ends of their names. -/
def names : List (String × Tag) :=
  [("null", null), ("bool", bool), ("int", int), ("float", float), ("binary", binary),
    ("timestamp", timestamp), ("pairs", pairs), ("omap", orderedPairs), ("set", set), ("str", text),
    ("seq", list), ("map", mapping), ("merge", merge), ("value", value)]

/-- The tag of a full name. -/
def ofName (name : String) : Tag :=
  match names.find? (fun e => common ++ e.1 = name) with
  | some e => e.2
  | none => other

end Tag

end PipelineRuns.Yaml
