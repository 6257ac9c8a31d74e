import PipelineRuns.Journal.Property

/-!
# Formats of notes

A format is a text with fields such as `%(message)s`: the name of a property of a record in
parentheses, then optional flags, a width and a precision, and a letter for the conversion. A
percent sign written twice stands for itself. A field without a name takes the record as a whole;
there can be one of them, and only before the record is taken apart. `Format.isValid` asks for at
least one field with a name; `Format.line?` fills a format from a record, and gives nothing where a
field names no property, or does not fit its value (`Format.convert?`).
-/

namespace PipelineRuns.Format

/-- The flags at the start of a text, and the rest. -/
def flags (s : Spec) : List Char → Spec × List Char
  | '-' :: rest => flags { s with left := true } rest
  | '+' :: rest => flags { s with plus := true } rest
  | ' ' :: rest => flags { s with blank := true } rest
  | '#' :: rest => flags { s with alternate := true } rest
  | '0' :: rest => flags { s with zero := true } rest
  | rest => (s, rest)

/-- The number at the start of a text, zero where there is none, and the rest. -/
def count (s : List Char) : Nat × List Char :=
  ((Text.asciiNat? (s.takeWhile Char.isDigit)).getD 0, s.dropWhile Char.isDigit)

/-- The precision at the start of a text, if there is a point, and the rest. -/
def precision : List Char → Option Nat × List Char
  | '.' :: rest =>
    let (n, rest) := count rest
    (some n, rest)
  | rest => (none, rest)

/-- A text without a length letter at its start. -/
def afterLength : List Char → List Char
  | c :: rest => if c ∈ ['h', 'l', 'L'] then rest else c :: rest
  | [] => []

/-- Flags, width and precision at the start of a text, and the rest without a length letter. -/
def spec (s : List Char) : Spec × List Char :=
  let (f, rest) := flags {} s
  let (width, rest) := count rest
  let (precision, rest) := precision rest
  ({ f with width, precision }, afterLength rest)

/-- The name up to the closing parenthesis, and the rest; parentheses inside the name come in
pairs. -/
def fieldName? : Nat → List Char → Option (List Char × List Char)
  | _, [] => none
  | 0, ')' :: rest => some ([], rest)
  | depth, c :: rest =>
    let depth := if c = '(' then depth + 1 else if c = ')' then depth - 1 else depth
    (fieldName? depth rest).map (fun r => (c :: r.1, r.2))

/-- A property converted as the start of a text asks for, and the rest. -/
def filled? (p : Property) (s : List Char) : Option (List Char × List Char) :=
  let (sp, rest) := spec s
  match rest with
  | letter :: more => (convert? sp letter p).map (·, more)
  | [] => none

/-- The field whose percent sign was just read, whether the record is still whole, and the rest. -/
def field? (time : String) (r : Record) (isWhole : Bool) (s : List Char) :
    Option (List Char × Bool × List Char) :=
  match s with
  | '%' :: rest => some (['%'], isWhole, rest)
  | '(' :: rest => do
    let (name, rest) ← fieldName? 0 rest
    let p ← property? time r (String.ofList name)
    let (text, rest) ← filled? p rest
    return (text, false, rest)
  -- A field without a name takes the whole record, which is there as long as no field was filled.
  | _ =>
    if isWhole then (filled? (.object r.origin.whole) s).map (fun f => (f.1, false, f.2))
    else none

/-- A format filled from a record that is still whole, or is not. -/
def fill? (time : String) (r : Record) : Bool → Nat → List Char → Option (List Char)
  | _, _, [] => some []
  | _, 0, _ => none
  | isWhole, fuel + 1, c :: rest =>
    if c = '%' then do
      let (text, isWhole, rest) ← field? time r isWhole rest
      return text ++ (← fill? time r isWhole fuel rest)
    else (fill? time r isWhole fuel rest).map (c :: ·)

/-- The line that a format makes of a record that was written at a time. -/
def line? (format time : String) (r : Record) : Option String :=
  (fill? time r true format.toList.length format.toList).map String.ofList

/-! ### Valid formats -/

/-- A letter, digit or underscore. Beyond ASCII every character passes here, also one that is no
letter of any script; a field with such a name is no standard one. -/
def isWordChar (c : Char) : Bool :=
  c.isAlphanum || c = '_' || 0x80 ≤ c.toNat

/-- A flag of a field. -/
def isFlag (c : Char) : Bool :=
  c = '#' || c = '0' || c = '+' || c = ' ' || c = '-'

/-- A decimal digit of any script. -/
def isDecimal (c : Char) : Bool :=
  (Text.digitValue? c).isSome

/-- A text after a star or a number at its start, if it starts with one. -/
def afterCount? : List Char → Option (List Char)
  | '*' :: rest => some rest
  | s => if (s.takeWhile isDecimal).isEmpty then none else some (s.dropWhile isDecimal)

/-- A letter for a conversion, in any case; the last three differ in case alone from an `i` or an
`s`. -/
def isLetter (c : Char) : Bool :=
  "diouxefgcrsa%".toList.contains c.toLower || ['\u0130', '\u0131', '\u017f'].contains c

/-- Whether a text starts with the rest of a field after its name. -/
def endsField (s : List Char) : Bool :=
  let s := s.dropWhile isFlag
  let s := (afterCount? s).getD s
  let s := match s with
    | '.' :: rest => (afterCount? rest).getD s
    | _ => s
  match s with
  | c :: _ => isLetter c
  | [] => false

/-- Whether a text starts with a field. -/
def startsField : List Char → Bool
  | '%' :: '(' :: rest =>
    let name := rest.takeWhile isWordChar
    -- The name ends at the first character that is none of a word, which has to be the parenthesis.
    match rest.dropWhile isWordChar with
    | ')' :: more => !name.isEmpty && endsField more
    | _ => false
  | _ => false

/-- Whether a text holds a field. -/
def holdsField : List Char → Bool
  | [] => false
  | c :: rest => startsField (c :: rest) || holdsField rest

/-- Whether a text can be used as a format. -/
def isValid (format : String) : Bool :=
  holdsField format.toList

end PipelineRuns.Format
