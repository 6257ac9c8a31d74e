import PipelineRuns.Time.Civil

/-!
# Moments

A `Moment` is what a clock on some wall shows, in microseconds since 1970-01-01 by that clock,
together with the distance of that clock from universal time in minutes. Two moments are compared
and subtracted by their instants (`Moment.instant`), never by their walls.

* `Moment.text` is the notation `YYYY-MM-DDTHH:MM:SS[.ffffff]+HH:MM`;
* `Moment.advance?` moves a moment, within the years 1 to 9999 of its wall;
* `TimeOfDay` is the time within a day, as text and as microseconds.
-/

namespace PipelineRuns

/-- Microseconds in one second. -/
def microsPerSecond : Int := 1000000

/-- Microseconds in one day. -/
def microsPerDay : Int := 86400 * microsPerSecond

/-- The reading of a wall clock that runs `offset` minutes ahead of universal time. -/
structure Moment where
  wall : Int
  offset : Int := 0
  deriving DecidableEq, Repr, Inhabited

/-- The time within a day. -/
structure TimeOfDay where
  hour : Nat
  minute : Nat
  second : Nat
  micro : Nat
  deriving DecidableEq, Repr

namespace TimeOfDay

/-- The microseconds from midnight. -/
def micros (t : TimeOfDay) : Int :=
  ((t.hour * 3600 + t.minute * 60 + t.second : Nat) : Int) * microsPerSecond + (t.micro : Int)

/-- The time that lies `n` microseconds after midnight. -/
def ofMicros (n : Nat) : TimeOfDay :=
  ⟨n / 3600000000, n / 60000000 % 60, n / 1000000 % 60, n % 1000000⟩

/-- `HH:MM:SS`, with six digits of a fraction unless it is zero. -/
def text (t : TimeOfDay) : String :=
  Text.padNat 2 t.hour ++ ":" ++ Text.padNat 2 t.minute ++ ":" ++ Text.padNat 2 t.second ++
    (if t.micro = 0 then "" else "." ++ Text.padNat 6 t.micro)

end TimeOfDay

namespace Moment

/-- The microseconds of universal time since 1970-01-01. -/
def instant (m : Moment) : Int :=
  m.wall - m.offset * 60 * microsPerSecond

@[simp] theorem instant_utc (w : Int) : instant ⟨w, 0⟩ = w := by
  simp [instant]

/-- The wall reading at the start of a day. -/
def wallOfDay (dayNumber : Int) : Int :=
  dayNumber * microsPerDay

/-- The first wall reading of the year 1. -/
def leastWall : Int := wallOfDay (Civil.dayNumber ⟨1, 1, 1⟩)

/-- The last wall reading of the year 9999. -/
def greatestWall : Int := wallOfDay (Civil.dayNumber ⟨9999, 12, 31⟩ + 1) - 1

/-- Whether a wall reading lies in the years 1 to 9999. -/
def inRange (wall : Int) : Bool :=
  leastWall ≤ wall && wall ≤ greatestWall

/-- A wall reading at universal time. -/
def utc (wall : Int) : Moment := ⟨wall, 0⟩

/-- The date on the wall. -/
def date (m : Moment) : Civil :=
  Civil.ofDayNumber (m.wall / microsPerDay)

/-- The time on the wall. -/
def timeOfDay (m : Moment) : TimeOfDay :=
  TimeOfDay.ofMicros (m.wall % microsPerDay).toNat

/-- An offset in minutes as `+HH:MM`. -/
def offsetText (offset : Int) : String :=
  (if offset < 0 then "-" else "+") ++ Text.padNat 2 (offset.natAbs / 60) ++ ":" ++
    Text.padNat 2 (offset.natAbs % 60)

/-- Date, time and offset, with `between` between the first two. -/
def textWith (between : String) (m : Moment) : String :=
  m.date.text ++ between ++ m.timeOfDay.text ++ offsetText m.offset

/-- `YYYY-MM-DDTHH:MM:SS[.ffffff]+HH:MM`. -/
def text (m : Moment) : String :=
  textWith "T" m

/-- The moment `micros` later, or `none` when its wall would leave the years 1 to 9999. -/
def advance? (m : Moment) (micros : Int) : Option Moment :=
  if inRange (m.wall + micros) then some { m with wall := m.wall + micros } else none

/-- The microseconds from `earlier` to `later`. -/
def since (later earlier : Moment) : Int :=
  later.instant - earlier.instant

/-- `a.before b` when `a` is the earlier instant. -/
def before (a b : Moment) : Bool :=
  a.instant < b.instant

end Moment

end PipelineRuns
