import PipelineRuns.Decimal.Shortest

/-!
# Floating point numbers as text

`Number.text` writes a floating point number with the fewest digits that read back. The number is
written positionally, with at least one digit after the point, when its first digit stands between
the fourth place after the point and the sixteenth before it, and with an exponent of a sign and at
least two digits otherwise. `Number.ofDecimal` is the reverse step: the floating point number
nearest to a decimal.
-/

namespace PipelineRuns.Number

/-- The layout of floating point numbers: the exponents of ten written positionally are those from
`leastPositional` to below `positionalLimit`. -/
structure Layout where
  leastPositional : Int
  positionalLimit : Int
  exponentWidth : Nat

/-- Positional from `0.0001` to below `10 ^ 16`; exponents have at least two digits. -/
def layout : Layout := ⟨-4, 16, 2⟩

/-- The digits of a decimal without the zeros at their end, with the place of the first digit. -/
def significant (d : Decimal) : List Char × Int :=
  let digits := Nat.toDigits 10 d.digits
  let kept := (digits.reverse.dropWhile (· = '0')).reverse
  (if kept.isEmpty then ['0'] else kept, d.exponent + (digits.length : Int) - 1)

/-- A positive decimal as text. -/
def decimalText (l : Layout) (d : Decimal) : String :=
  let (digits, place) := significant d
  if l.leastPositional ≤ place && place < l.positionalLimit then
    if place < 0 then
      String.ofList ('0' :: '.' :: (List.replicate ((-place).toNat - 1) '0' ++ digits))
    else
      let whole := digits.take (place.toNat + 1)
      let rest := digits.drop (place.toNat + 1)
      String.ofList (whole ++ List.replicate (place.toNat + 1 - whole.length) '0' ++
        '.' :: (if rest.isEmpty then ['0'] else rest))
  else
    let tail := digits.drop 1
    let exponent := Nat.toDigits 10 place.natAbs
    String.ofList (digits.take 1 ++ (if tail.isEmpty then [] else '.' :: tail) ++
      'e' :: (if place < 0 then '-' else '+') ::
        (List.replicate (l.exponentWidth - exponent.length) '0' ++ exponent))

/-- A floating point number as text. -/
def text (x : Float) : String :=
  if x.isNaN then "nan"
  else
    let bits := x.toBits.toNat
    let sign := if Nat.pow 2 63 ≤ bits then "-" else ""
    let magnitude := bits % Nat.pow 2 63
    if x.isInf then sign ++ "inf"
    else if magnitude = 0 then sign ++ "0.0"
    else sign ++ decimalText layout (Decimal.shortest (Decimal.Binary.ofBits magnitude))

/-- The floating point number nearest to `digits * 10 ^ exponent`; exponents beyond the format's
range give zero or infinity without being expanded. -/
def ofDecimal (digits : Nat) (exponent : Int) : Float :=
  let place := exponent + (Decimal.width digits : Int)
  if digits = 0 || place < -400 then 0.0
  else if 400 < place then 1.0 / 0.0
  else if exponent < 0 then Float.ofScientific digits true exponent.natAbs
  else Float.ofScientific digits false exponent.natAbs

/-- The floating point number nearest to an integer. -/
def ofInt (n : Int) : Float :=
  if n < 0 then -(ofDecimal n.natAbs 0) else ofDecimal n.natAbs 0

end PipelineRuns.Number
