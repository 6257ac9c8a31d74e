import PipelineRuns.Time.Moment

/-!
# Spans of time in words

`Span.humanize` says how long a span of microseconds is, in its largest unit: `16 minutes`,
`1 year`. The number of seconds it starts from is the floating point number nearest to the exact
quotient, cut off towards zero (`Span.seconds`); for a span of 2 ^ 34 seconds or more this may be
the next full second. A span of a full second or more into the past has no such text and is refused.

* `Span.nearestFloor` rounds a quotient to 53 binary digits and takes the whole part;
* `Span.units` lists the units, the largest first;
* `Span.text` is the exact notation of a span in days, hours, minutes, seconds and microseconds.
-/

namespace PipelineRuns.Span

/-- The quotient `n / d` rounded to the nearest natural number, a tie to the even one. -/
def roundDiv (n d : Nat) : Nat :=
  let q := n / d
  let r := n % d
  if 2 * r < d then q
  else if d < 2 * r then q + 1
  else if q % 2 = 0 then q else q + 1

/-- The whole part of the floating point number with 53 binary digits that is nearest to `n / d`.

With `s` places after the binary point the number is `roundDiv (n * 2 ^ s) d` divided by `2 ^ s`,
where `s` is chosen so that this has 53 digits; from 2 ^ 53 on the places lie before the point. -/
def nearestFloor (n d : Nat) : Nat :=
  let whole := n / d
  let length := if whole = 0 then 0 else whole.log2 + 1
  if length ≤ 53 then
    let s := 53 - length
    roundDiv (n * Nat.pow 2 s) d / Nat.pow 2 s
  else
    let s := length - 53
    roundDiv n (d * Nat.pow 2 s) * Nat.pow 2 s

/-- The whole seconds of a span, with its sign. -/
def seconds (micros : Int) : Int :=
  if micros < 0 then -(nearestFloor micros.natAbs 1000000 : Int)
  else (nearestFloor micros.natAbs 1000000 : Int)

/-- The units of time and their lengths in seconds, the largest first; months and years are
approximate. -/
def units : List (String × Nat) :=
  [("year", 365 * 24 * 3600), ("month", 30 * 24 * 3600), ("week", 7 * 24 * 3600),
    ("day", 24 * 3600), ("hour", 3600), ("minute", 60), ("second", 1)]

/-- A count of a unit, in the plural unless it is one. -/
def counted (count : Nat) (unit : String) : String :=
  toString count ++ " " ++ unit ++ (if count = 1 then "" else "s")

/-- A number of seconds in the largest unit that it fills. -/
def inUnits (total : Nat) : String :=
  match units.find? (fun u => 0 < total / u.2) with
  | some u => counted (total / u.2) u.1
  | none => "0 seconds"

/-- A span in its largest unit; `none` for one of a full second or more into the past. -/
def humanize (micros : Int) : Option String :=
  if seconds micros < 0 then none else some (inUnits (seconds micros).toNat)

/-- A span as `D days, H:MM:SS[.ffffff]`, where only the days carry a sign. -/
def text (micros : Int) : String :=
  let days := micros / microsPerDay
  let t := TimeOfDay.ofMicros (micros % microsPerDay).toNat
  let clock := toString t.hour ++ ":" ++ Text.padNat 2 t.minute ++ ":" ++ Text.padNat 2 t.second ++
    (if t.micro = 0 then "" else "." ++ Text.padNat 6 t.micro)
  if days = 0 then clock
  else toString days ++ " day" ++ (if days.natAbs = 1 then "" else "s") ++ ", " ++ clock

/-- The longest span, in days, that can be told of. -/
def maxDays : Int := 999999999

/-- Whether a span has at most `maxDays` days, in either direction. -/
def inRange (micros : Int) : Bool :=
  -maxDays ≤ micros / microsPerDay && micros / microsPerDay ≤ maxDays

end PipelineRuns.Span
