import PipelineRuns.Failure
import PipelineRuns.Text.Blank
import PipelineRuns.Text.Case
import PipelineRuns.Text.Digit
import PipelineRuns.Text.Line
import PipelineRuns.Value.Basic

/-!
# Fields of records

A field has a type, and a value of another type is taken where its meaning is plain: bytes in UTF-8
as text, `"off"` as a truth value, `"5.0"` as an integer. `Field.text`, `Field.textOrNull`,
`Field.truth` and `Field.integer` read a value for a field and state what is wrong with one that
they refuse, as an `Issue` at the place of the field.

`Field.literal?` is the grammar of integers written as text: besides the digits a plus sign, zeros
in front, a fraction of zeros and single underscores between digits are allowed.
-/

namespace PipelineRuns.Field

/-! ### Text -/

/-- The issue with a value that is no text. -/
def notText (place : String) : Issue :=
  ⟨place, "string_type", "Input should be a valid string"⟩

/-- The issue with bytes that are no UTF-8. -/
def notUnicode (place : String) : Issue :=
  ⟨place, "string_unicode",
    "Input should be a valid string, unable to parse raw data as a unicode string"⟩

/-- The text that bytes hold in UTF-8. -/
def utf8? (content : List UInt8) : Option String :=
  String.fromUTF8? ⟨content.toArray⟩

/-- The text of a field. -/
def text (place : String) : Value → Except Issue String
  | .text s => .ok s
  | .bytes content =>
    match utf8? content with
    | some s => .ok s
    | none => .error (notUnicode place)
  | _ => .error (notText place)

/-- The text of a field that may be absent. -/
def textOrNull (place : String) : Value → Except Issue (Option String)
  | .null => .ok none
  | v => (text place v).map some

/-! ### Truth values -/

/-- The issue with a text or number that is no truth value. -/
def notTruth (place : String) : Issue :=
  ⟨place, "bool_parsing", "Input should be a valid boolean, unable to interpret input"⟩

/-- The issue with a value that cannot be a truth value. -/
def notBool (place : String) : Issue :=
  ⟨place, "bool_type", "Input should be a valid boolean"⟩

/-- The words for false and true, in small letters. -/
def falseWords : List String := ["0", "off", "f", "false", "n", "no"]

@[inherit_doc falseWords]
def trueWords : List String := ["1", "on", "t", "true", "y", "yes"]

/-- The truth value that a word names. -/
def wordTruth? (s : String) : Option Bool :=
  let w := Text.toLowerAscii s
  if falseWords.contains w then some false
  else if trueWords.contains w then some true
  else none

/-- The truth value that a number stands for. -/
def intTruth? (n : Int) : Option Bool :=
  if n = 0 then some false else if n = 1 then some true else none

/-- A truth value that was found, or the issue that there is none. -/
def orNotTruth (place : String) : Option Bool → Except Issue Bool
  | some b => .ok b
  | none => .error (notTruth place)

/-- The truth value of a field. -/
def truth (place : String) : Value → Except Issue Bool
  | .bool b => .ok b
  | .text s => orNotTruth place (wordTruth? s)
  | .bytes content => orNotTruth place ((utf8? content).bind wordTruth?)
  | .int n => orNotTruth place (intTruth? n)
  | .float x =>
    match Number.integer? x with
    | some n => orNotTruth place (intTruth? n)
    | none => .error (notBool place)
  | _ => .error (notBool place)

/-! ### Integers -/

/-- What is wrong with a value for an integer. -/
inductive IntFault where
  | notInt
  | notNumeral
  | tooLong
  | hasFraction
  | notFinite
  | below (least : Int)
  | above (greatest : Int)
  deriving DecidableEq, Repr

/-- A fault as an issue. -/
def IntFault.issueAt (place : String) : IntFault → Issue
  | .notInt => ⟨place, "int_type", "Input should be a valid integer"⟩
  | .notNumeral =>
    ⟨place, "int_parsing", "Input should be a valid integer, unable to parse string as an integer"⟩
  | .tooLong =>
    ⟨place, "int_parsing_size", "Unable to parse input string as an integer, exceeded maximum size"⟩
  | .hasFraction =>
    ⟨place, "int_from_float",
      "Input should be a valid integer, got a number with a fractional part"⟩
  | .notFinite => ⟨place, "finite_number", "Input should be a finite number"⟩
  | .below least =>
    ⟨place, "greater_than_equal", "Input should be greater than or equal to " ++ toString least⟩
  | .above greatest =>
    ⟨place, "less_than_equal", "Input should be less than or equal to " ++ toString greatest⟩

/-- White space of Unicode, without the information separators. -/
def isSpace (c : Char) : Bool :=
  Text.isBlank c && !(0x1c ≤ c.toNat && c.toNat ≤ 0x1f)

/-- A text without the white space at its ends. -/
def trimSpaces (s : List Char) : List Char :=
  Text.dropRightWhile isSpace (s.dropWhile isSpace)

/-- The digits of a number in strict notation: no zeros in front, and a minus sign at most. -/
def strict? (s : List Char) : Option Int :=
  let (negative, ds) := match s with
    | '-' :: rest => (true, rest)
    | _ => (false, s)
  match ds with
  | '0' :: _ :: _ => none
  | _ => (Text.asciiNat? ds).map (fun n => if negative then -(n : Int) else (n : Int))

/-- A text after zeros, and underscores between them, at its start: from the first other digit on,
or from the last zero where a point or nothing follows. -/
def afterZeros? (last : Char) : List Char → Option (List Char)
  | [] => some [last]
  | c :: rest =>
    if c = '0' || c = '_' then afterZeros? c rest
    else if c.isDigit then some (c :: rest)
    else if c = '.' then some (last :: c :: rest)
    else none

/-- A text without zeros at its start; it has to begin with a digit or a minus sign. -/
def withoutLeadingZeros? : List Char → Option (List Char)
  | [] => none
  | c :: rest =>
    if c = '0' then afterZeros? c rest
    else if c.isDigit || c = '-' then some (c :: rest)
    else none

/-- A text without a fraction of nothing but zeros. -/
def withoutZeroFraction (s : List Char) : List Char :=
  match s.dropWhile (· ≠ '.') with
  | _ :: fraction => if fraction.all (· = '0') then s.takeWhile (· ≠ '.') else s
  | [] => s

/-- Whether underscores stand between other characters only, and singly. -/
def underscoresFit : List Char → Bool
  | [] => true
  | c :: rest => c ≠ '_' && go c rest
where
  /-- Whether the rest of a text after a character fits. -/
  go (before : Char) : List Char → Bool
    | [] => before ≠ '_'
    | c :: rest => !(before = '_' && c = '_') && go c rest

/-- A text without underscores, where they stand between other characters only. -/
def withoutUnderscores (s : List Char) : List Char :=
  if underscoresFit s then s.filter (· ≠ '_') else s

/-- A text without one plus sign at its start, unless a minus sign follows. -/
def withoutPlus? : List Char → Option (List Char)
  | '+' :: '-' :: _ => none
  | '+' :: rest => some rest
  | s => some s

/-- A text in strict notation, if it is a numeral at all. -/
def cleaned? (s : List Char) : Option (List Char) := do
  let s ← withoutPlus? s
  let s ← withoutLeadingZeros? s
  return withoutUnderscores (withoutZeroFraction s)

/-- The integer that a text writes. -/
def literal? (s : String) : Except IntFault Int :=
  let trimmed := trimSpaces s.toList
  if Text.maxDigits < trimmed.length && trimmed.all Char.isDigit then .error .tooLong
  else
    match (strict? trimmed).or ((cleaned? trimmed).bind strict?) with
    | some n => .ok n
    | none => .error .notNumeral

/-- The integer that a value stands for. -/
def integerOf : Value → Except IntFault Int
  | .bool b => .ok (Value.ofBool b)
  | .int n => .ok n
  | .float x =>
    if x.isNaN || x.isInf then .error .notFinite
    else
      match Number.integer? x with
      | none => .error .hasFraction
      | some n => if n.natAbs ≤ Nat.pow 2 63 then .ok n else .error .tooLong
  | .text s => literal? s
  | .bytes content =>
    match utf8? content with
    | some s => literal? s
    | none => .error .notNumeral
  | _ => .error .notInt

/-- The integer of a field, between two bounds. -/
def integer (place : String) (least greatest : Int) (v : Value) : Except Issue Int :=
  match integerOf v with
  | .error f => .error (f.issueAt place)
  | .ok n =>
    if n < least then .error ((IntFault.below least).issueAt place)
    else if greatest < n then .error ((IntFault.above greatest).issueAt place)
    else .ok n

/-! ### Collecting issues -/

/-- The issue of a result, if it is one. -/
def issue? {α : Type} : Except Issue α → Option Issue
  | .ok _ => none
  | .error i => some i

/-- The issues of a list of results. -/
def issues (results : List (Option Issue)) : List Issue :=
  results.filterMap id

end PipelineRuns.Field
