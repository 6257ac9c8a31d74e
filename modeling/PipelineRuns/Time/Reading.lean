import PipelineRuns.Text.Digit
import PipelineRuns.Value.Basic

/-!
# Reading times

`Moment.ofValue?` reads the time that a value of a resource stands for, generously: a text in the
notation of ISO 8601, a number of seconds or milliseconds since 1970-01-01, such a number as text,
or a date or timestamp of YAML. A time without an offset is taken as universal time. Everything else
is no time.

A number beyond twenty thousand million counts as milliseconds (`Reading.limit`): as seconds it
would lie after the year 2600.

* `Reading.iso?` reads date, time and offset, or a date alone;
* `Reading.ofSeconds?` and `Reading.ofFloat?` turn a count into a wall reading of universal time.
-/

namespace PipelineRuns.Reading

/-- A wall reading and its offset in minutes, if one is given. -/
abbrev Stamp := Int × Option Int

/-- The number written by the first `n` characters, all digits, and the rest. -/
def digits? (n : Nat) (s : List Char) : Option (Nat × List Char) :=
  if (s.take n).length = n then (Text.asciiNat? (s.take n)).map (fun v => (v, s.drop n)) else none

/-- The rest of a text after the character `c`. -/
def after? (c : Char) : List Char → Option (List Char)
  | [] => none
  | d :: rest => if d = c then some rest else none

/-- The date at the start of a text, and the rest. -/
def date? (s : List Char) : Option (Civil × List Char) := do
  let (year, s) ← digits? 4 s
  let s ← after? '-' s
  let (month, s) ← digits? 2 s
  let s ← after? '-' s
  let (day, s) ← digits? 2 s
  let d ← Civil.ofFields? year month day
  return (d, s)

/-- The microseconds written by the digits of a fraction; digits after the sixth are dropped. -/
def fractionMicros (digits : List Char) : Nat :=
  (Text.asciiNat? ((digits ++ List.replicate 6 '0').take 6)).getD 0

/-- The fraction of a second at the start of a text, and the rest; a point or comma needs a
digit. -/
def fraction? (s : List Char) : Option (Nat × List Char) :=
  match s with
  | c :: rest =>
    if c = '.' || c = ',' then
      let ds := rest.takeWhile Char.isDigit
      if ds.isEmpty then none else some (fractionMicros ds, rest.dropWhile Char.isDigit)
    else some (0, s)
  | [] => some (0, [])

/-- The time of day at the start of a text, and the rest. Seconds may be left out. -/
def timeOfDay? (s : List Char) : Option (TimeOfDay × List Char) := do
  let (hour, s) ← digits? 2 s
  let s ← after? ':' s
  let (minute, s) ← digits? 2 s
  if 23 < hour || 59 < minute then none
  else
    match after? ':' s with
    | none => return (⟨hour, minute, 0, 0⟩, s)
    | some s =>
      let (second, s) ← digits? 2 s
      let (micro, s) ← fraction? s
      if 59 < second then none else return (⟨hour, minute, second, micro⟩, s)

/-- The offset that a text states, in minutes; none for an empty text. -/
def offset? (s : List Char) : Option (Option Int) :=
  match s with
  | [] => some none
  | ['Z'] => some (some 0)
  | ['z'] => some (some 0)
  | sign :: rest => do
    let negative ← if sign = '+' then some false
      else if sign = '-' || sign = '\u2212' then some true else none
    let (hours, rest) ← digits? 2 rest
    let rest := (after? ':' rest).getD rest
    let (minutes, rest) ← digits? 2 rest
    if 23 < hours || 59 < minutes || !rest.isEmpty then none
    else
      let total : Int := ((hours * 60 + minutes : Nat) : Int)
      return some (if negative then -total else total)

/-- The time that a text in the notation of ISO 8601 states; a date alone is its midnight. -/
def iso? (s : List Char) : Option Stamp := do
  let (d, rest) ← date? s
  match rest with
  | [] => return (Moment.wallOfDay d.dayNumber, none)
  | between :: rest =>
    if between = 'T' || between = 't' || between = ' ' || between = '_' then
      let (t, rest) ← timeOfDay? rest
      let offset ← offset? rest
      return (Moment.wallOfDay d.dayNumber + t.micros, offset)
    else none

/-- Greater counts are milliseconds. -/
def limit : Nat := 20000000000

/-- The wall reading at universal time after `seconds` seconds (or milliseconds) and `micros`
microseconds. -/
def ofSeconds? (seconds : Int) (micros : Int) : Option Stamp :=
  let wall := (if limit < seconds.natAbs then seconds * 1000 else seconds * microsPerSecond) +
    micros
  if Moment.inRange wall then some (wall, some 0) else none

/-- The wall reading at universal time after a count with a fraction. -/
def ofFloat? (x : Float) : Option Stamp := do
  let x := if Number.ofDecimal limit 0 < x.abs then x / 1000.0 else x
  let whole := x.floor
  let seconds ← Number.integer? whole
  let micros ← Number.integer? ((x - whole) * 1000000.0).round
  ofSeconds? seconds micros

/-- The greatest magnitude of a count that is taken as a whole number. -/
def wholeLimit : Nat := Nat.pow 2 63

/-- The wall reading at universal time after a whole count. -/
def ofInt? (n : Int) : Option Stamp :=
  if -(wholeLimit : Int) < n && n < wholeLimit then ofSeconds? n 0 else ofFloat? (Number.ofInt n)

/-- The number that a text writes: digits with an optional sign, or, where a point follows the first
digits, a number with a fraction and possibly an exponent. -/
def ofNumeral? (s : List Char) : Option Stamp :=
  let (negative, unsigned) := match s with
    | '-' :: rest => (true, rest)
    | '+' :: rest => (false, rest)
    | _ => (false, s)
  let whole := unsigned.takeWhile Char.isDigit
  match unsigned.dropWhile Char.isDigit with
  | [] => do
    let n ← Text.asciiNat? whole
    ofInt? (if negative then -(n : Int) else n)
  | '.' :: rest => do
    let ds := rest.takeWhile Char.isDigit
    let n ← Text.asciiNat? (whole ++ ds)
    let exponent ← exponent? (rest.dropWhile Char.isDigit)
    let x := Number.ofDecimal n (exponent - (ds.length : Int))
    if x.isInf then none else ofFloat? (if negative then -x else x)
  | _ => none
where
  /-- The exponent that a text states; zero for an empty text. -/
  exponent? : List Char → Option Int
    | [] => some 0
    | e :: rest =>
      if e = 'e' || e = 'E' then
        match rest with
        | '-' :: ds => (Text.asciiNat? ds).map (fun n => -(n : Int))
        | '+' :: ds => (Text.asciiNat? ds).map (fun n => (n : Int))
        | ds => (Text.asciiNat? ds).map (fun n => (n : Int))
      else none

/-- The time that a text states. -/
def ofText? (s : String) : Option Stamp :=
  (iso? s.toList).or (ofNumeral? s.toList)

/-- The time that a value states. -/
def ofValue? : Value → Option Stamp
  | .text s => ofText? s
  | .bytes content => do ofText? (← String.fromUTF8? ⟨content.toArray⟩)
  | .int n => ofInt? n
  | .float x => if x.isNaN || x.isInf then none else ofFloat? x
  | .date d => some (Moment.wallOfDay d.dayNumber, none)
  | .timestamp wall offset => some (wall, offset)
  | _ => none

end PipelineRuns.Reading

namespace PipelineRuns.Moment

/-- The moment that a value states; without an offset it is universal time. -/
def ofValue? (v : Value) : Option Moment :=
  (Reading.ofValue? v).map (fun s => ⟨s.1, s.2.getD 0⟩)

end PipelineRuns.Moment
