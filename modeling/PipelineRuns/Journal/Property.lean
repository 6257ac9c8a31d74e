import PipelineRuns.Decimal.Shortest
import PipelineRuns.Journal.Record
import PipelineRuns.Decimal.Number
import PipelineRuns.Text.Digit
import PipelineRuns.Text.Quoted
import PipelineRuns.Time.Span

/-!
# Properties of notes as text

A note has properties with fixed names (`Format.property?`). A property is a text, a number, a
floating point number or an object, and is put into a line by a conversion: a letter that says as
what it is shown, and a `Spec` of flags, width and precision. `Format.convert?` gives the result,
and nothing where the letter does not fit the value or the sizes are beyond their limits
(`Spec.suits`). Within the limits a line can be as long as it has to be: memory has no bounds here.

Floating point numbers are exact here, as fractions, and rounded once, when their digits are
written: to the nearest decimal with the places that are asked for, a tie to the even one.
-/

namespace PipelineRuns.Format

/-- The value of a property. An object is a value of any other kind, which has a text alone. -/
inductive Property where
  | text (s : String)
  | number (n : Int)
  | fraction (x : Rat)
  | object (shown : String)
  deriving DecidableEq, Repr

/-- The property with a name of a record that was written at a time. -/
def property? (time : String) (r : Record) : String → Option Property
  | "name" => some (.text r.channel)
  | "msg" => some (.text (r.origin.template.getD r.text))
  | "args" => some (.object r.origin.details)
  | "levelname" => some (.text r.severity.name)
  | "levelno" => some (.number r.severity.rank)
  | "message" => some (.text r.text)
  | "asctime" => some (.text time)
  | "created" => some (.fraction r.origin.created)
  | "msecs" => some (.fraction r.origin.millis)
  | "relativeCreated" => some (.fraction r.origin.sinceBegin)
  | "pathname" => some (.text r.origin.path)
  | "filename" => some (.text r.origin.file)
  | "module" => some (.text r.origin.unit)
  | "funcName" => some (.text r.origin.function)
  | "lineno" => some (.number r.origin.line)
  | "process" => some (.number r.origin.process)
  | "processName" => some (.text r.origin.processName)
  | "thread" => some (.number r.origin.thread)
  | "threadName" => some (.text r.origin.threadName)
  | "exc_info" => some (.object r.origin.failure)
  | "exc_text" => some (.object r.origin.failureText)
  | "stack_info" => some (.object r.origin.calls)
  | _ => none

/-- The parts of a field after its name. -/
structure Spec where
  left : Bool := false
  plus : Bool := false
  blank : Bool := false
  alternate : Bool := false
  zero : Bool := false
  width : Nat := 0
  precision : Option Nat := none
  deriving DecidableEq, Repr

/-- The greatest width. -/
def maxWidth : Nat := Nat.pow 2 63 - 1

/-- The greatest precision. -/
def maxPrecision : Nat := Nat.pow 2 31 - 1

/-- The greatest precision for a letter; whole numbers need room for the mark of their base. -/
def maxPrecisionFor (letter : Char) : Nat :=
  if letter ∈ ['d', 'i', 'u', 'o', 'x', 'X'] then maxPrecision - 3 else maxPrecision

/-- Whether the sizes of a field are within the limits for its letter. -/
def Spec.suits (s : Spec) (letter : Char) : Bool :=
  s.width ≤ maxWidth && s.precision.getD 0 ≤ maxPrecisionFor letter

/-! ### Filling up -/

/-- A text filled up with blanks to the width of a field. -/
def fit (s : Spec) (text : List Char) : List Char :=
  let fill := List.replicate (s.width - text.length) ' '
  if s.left then text ++ fill else fill ++ text

/-- A number of a sign and digits, filled up to the width of a field. -/
def fitNumber (s : Spec) (sign digits : List Char) : List Char :=
  if s.zero && !s.left then
    sign ++ List.replicate (s.width - sign.length - digits.length) '0' ++ digits
  else fit s (sign ++ digits)

/-- The sign of a number. -/
def signOf (s : Spec) (negative : Bool) : List Char :=
  if negative then ['-'] else if s.plus then ['+'] else if s.blank then [' '] else []

/-- A text cut to the precision of a field and filled up to its width. -/
def fitText (s : Spec) (text : String) : List Char :=
  fit s (match s.precision with
    | some n => text.toList.take n
    | none => text.toList)

/-! ### Whole numbers -/

/-- A number in a base, with its mark in front where the field asks for it, of as many digits at
least as the precision says. -/
def inBase (s : Spec) (base : Nat) (mark : List Char) (n : Int) : List Char :=
  let digits := Nat.toDigits base n.natAbs
  fitNumber s (signOf s (n < 0) ++ (if s.alternate then mark else []))
    (List.replicate (s.precision.getD 0 - digits.length) '0' ++ digits)

/-- The whole number that a property counts as: a number itself, and a fraction cut off towards
zero. -/
def whole? : Property → Option Int
  | .number n => some n
  | .fraction x => some (x.num.tdiv x.den)
  | _ => none

/-- The number that a property is. -/
def number? : Property → Option Int
  | .number n => some n
  | _ => none

/-! ### Floating point numbers -/

/-- The floating point number nearest to a whole one; none where that lies beyond the greatest. -/
def nearestFraction? (n : Int) : Option Rat :=
  let size := Span.nearestFloor n.natAbs 1
  if size < Nat.pow 2 1024 then some (if n < 0 then -(size : Rat) else (size : Rat)) else none

/-- The floating point number that a property counts as. -/
def fraction? : Property → Option Rat
  | .number n => nearestFraction? n
  | .fraction x => some x
  | _ => none

/-- The digits behind the point, which stands alone only where the field asks for it. -/
def behindPoint (s : Spec) (digits : List Char) : List Char :=
  if digits.isEmpty && !s.alternate then [] else '.' :: digits

/-- The size of a number with so many places behind the point. -/
def positional (s : Spec) (places : Nat) (x : Rat) : List Char :=
  let scaled := Span.roundDiv (x.num.natAbs * Nat.pow 10 places) x.den
  let behind := if places = 0 then [] else (Text.padNat places (scaled % Nat.pow 10 places)).toList
  Nat.toDigits 10 (scaled / Nat.pow 10 places) ++ behindPoint s behind

/-- The first `count` digits of the size of a number, rounded, and the exponent of ten of the first
one. -/
def leadingDigits (count : Nat) (x : Rat) : List Char × Int :=
  if x = 0 then (List.replicate count '0', 0)
  else
    let size := x.num.natAbs
    let place := Decimal.order size x.den
    let shift := (count : Int) - 1 - place
    let rounded := Span.roundDiv (size * Nat.pow 10 shift.toNat) (x.den * Nat.pow 10 (-shift).toNat)
    -- Rounding up can lead to the next power of ten, which has a digit more.
    if rounded = Nat.pow 10 count then (Nat.toDigits 10 (rounded / 10), place + 1)
    else (Nat.toDigits 10 rounded, place)

/-- Digits with a point behind the first one, and an exponent. -/
def withExponent (s : Spec) (digits : List Char) (place : Int) : List Char :=
  digits.take 1 ++ behindPoint s (digits.drop 1) ++
    'e' :: (if place < 0 then '-' else '+') :: (Text.padNat 2 place.natAbs).toList

/-- The size of a number with an exponent. The greatest precision counts as none. -/
def scientific (s : Spec) (places : Nat) (x : Rat) : List Char :=
  let (digits, place) := leadingDigits (if places = maxPrecision then 1 else places + 1) x
  withExponent s digits place

/-- Digits without the zeros at their end. -/
def dropZeros (digits : List Char) : List Char :=
  (digits.reverse.dropWhile (· = '0')).reverse

/-- The size of a number with so many digits in all: with an exponent if it is below `0.0001` or if
the digits do not reach the point, without the zeros behind the point unless the field asks for
them. -/
def general (s : Spec) (count : Nat) (x : Rat) : List Char :=
  let (digits, place) := leadingDigits count x
  let kept (digits : List Char) := if s.alternate then digits else dropZeros digits
  if place < -4 || (count : Int) ≤ place then
    withExponent s (digits.take 1 ++ kept (digits.drop 1)) place
  else if place < 0 then
    '0' :: behindPoint s (kept (List.replicate ((-place).toNat - 1) '0' ++ digits))
  else
    digits.take (place.toNat + 1) ++ behindPoint s (kept (digits.drop (place.toNat + 1)))

/-! ### Texts -/

/-- The text of a fraction: the fewest digits that read back. -/
def fractionText (x : Rat) : String :=
  if x = 0 then "0.0"
  else
    -- The number is scaled to 53 binary digits.
    let length := x.num.natAbs.log2 + 1
    let mantissa := x.num.natAbs * Nat.pow 2 (53 - length) / Nat.pow 2 (length - 53)
    let size : Decimal.Binary :=
      ⟨mantissa, (length : Int) - 53 - x.den.log2, mantissa = Nat.pow 2 52⟩
    (if x < 0 then "-" else "") ++ Number.decimalText Number.layout (Decimal.shortest size)

/-- A property as text. -/
def shown : Property → String
  | .text t => t
  | .number n => toString n
  | .fraction x => fractionText x
  | .object t => t

/-- A property as it is noted inside other texts. -/
def notated : Property → String
  | .text t => Text.quoted t
  | p => shown p

/-- A character by its code unless it belongs to ASCII. -/
def asciiChar (c : Char) : List Char :=
  if c.toNat < 0x80 then [c]
  else if c.toNat ≤ 0xff then '\\' :: 'x' :: Text.hex 2 c.toNat
  else if c.toNat ≤ 0xffff then '\\' :: 'u' :: Text.hex 4 c.toNat
  else '\\' :: 'U' :: Text.hex 8 c.toNat

/-- A property as it is noted inside other texts, in ASCII. -/
def notatedInAscii (p : Property) : String :=
  String.ofList ((notated p).toList.flatMap asciiChar)

/-! ### Conversions -/

/-- The character with a code; one that stands for half a character is written by its code. -/
def characterOf (code : Nat) : List Char :=
  if code.isValidChar then [Char.ofNat code] else '\\' :: 'u' :: Text.hex 4 code

/-- The character that a property is or has the code of. -/
def character? : Property → Option (List Char)
  | .text t =>
    match t.toList with
    | [c] => some [c]
    | _ => none
  | .number n => if 0 ≤ n && n ≤ 0x10ffff then some (characterOf n.toNat) else none
  | _ => none

/-- One character, filled up to the width of a field. -/
def fitCharacter (s : Spec) (c : List Char) : List Char :=
  let fill := List.replicate (s.width - 1) ' '
  if s.left then c ++ fill else fill ++ c

/-- A floating point number with its sign, filled up. -/
def fitFraction (s : Spec) (size : Rat → List Char) (x : Rat) : List Char :=
  fitNumber s (signOf s (x < 0)) (size x)

/-- A property converted by a letter, whatever the sizes. -/
def converted? (s : Spec) (letter : Char) (p : Property) : Option (List Char) :=
  let places := s.precision.getD 6
  match letter with
  | 's' => some (fitText s (shown p))
  | 'r' => some (fitText s (notated p))
  | 'a' => some (fitText s (notatedInAscii p))
  | 'c' => (character? p).map (fitCharacter s)
  | 'd' | 'i' | 'u' => (whole? p).map (inBase s 10 [])
  | 'o' => (number? p).map (inBase s 8 ['0', 'o'])
  | 'x' => (number? p).map (inBase s 16 ['0', 'x'])
  | 'X' => (number? p).map (fun n => (inBase s 16 ['0', 'x'] n).map Char.toUpper)
  | 'f' | 'F' => (fraction? p).map (fitFraction s (positional s places))
  | 'e' => (fraction? p).map (fitFraction s (scientific s places))
  | 'E' => (fraction? p).map (fun x => (fitFraction s (scientific s places) x).map Char.toUpper)
  | 'g' => (fraction? p).map (fitFraction s (general s (max 1 places)))
  | 'G' => (fraction? p).map
      (fun x => (fitFraction s (general s (max 1 places)) x).map Char.toUpper)
  | _ => none

/-- A property converted by a letter. -/
def convert? (s : Spec) (letter : Char) (p : Property) : Option (List Char) :=
  if s.suits letter then converted? s letter p else none

end PipelineRuns.Format
