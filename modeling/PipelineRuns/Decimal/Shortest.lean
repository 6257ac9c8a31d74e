/-!
# The shortest decimal that reads back

A binary floating point number stands for all reals that round to it. `Decimal.shortest` picks,
among the decimals with the fewest digits in that interval, the one nearest to the number. The
number is given as `m * 2 ^ q`; in units of `2 ^ (q - 2)` it is `4 * m`, its upper neighbour's half
way point is two units above, and its lower one is two units below, or one where `m` is the least
mantissa of its binade. The ends belong to the interval exactly when `m` is even.

* `Decimal.onGrid?` tests the two neighbours of the number on a decimal grid;
* `Decimal.shortest` tries grids of 1, 2, ... 17 digits and takes the first that has a hit.

All arithmetic is exact, on natural numbers.
-/

namespace PipelineRuns

/-- The number `digits * 10 ^ exponent`. -/
structure Decimal where
  digits : Nat
  exponent : Int
  deriving DecidableEq, Repr

namespace Decimal

/-- The positive number `mantissa * 2 ^ exponent` and whether `mantissa` is the least of its
binade. -/
structure Binary where
  mantissa : Nat
  exponent : Int
  atEdge : Bool

/-- The fraction `(n, d)` with value `n / d = a * 2 ^ e * 10 ^ k`. -/
def fraction (a : Nat) (e k : Int) : Nat × Nat :=
  (a * Nat.pow 2 e.toNat * Nat.pow 10 k.toNat, Nat.pow 2 (-e).toNat * Nat.pow 10 (-k).toNat)

/-- Whether the grid point `p` lies in the interval of `x`, on the grid of step `10 ^ k`. -/
def inInterval (x : Binary) (k : Int) (p : Nat) : Bool :=
  let unit := fraction 1 (x.exponent - 2) (-k)
  -- Below the least mantissa the numbers are twice as dense, so the interval reaches half as far.
  let low := (4 * x.mantissa - (if x.atEdge then 1 else 2)) * unit.1
  let high := (4 * x.mantissa + 2) * unit.1
  let point := p * unit.2
  if x.mantissa % 2 = 0 then low ≤ point && point ≤ high else low < point && point < high

/-- The neighbour of `x` on the grid of step `10 ^ k` that lies in its interval, the nearer one if
both do, and the even one if they are equally near. -/
def onGrid? (x : Binary) (k : Int) : Option Nat :=
  let value := fraction x.mantissa x.exponent (-k)
  let below := value.1 / value.2
  let above := below + 1
  match inInterval x k below && 0 < below, inInterval x k above with
  | true, true =>
    let toBelow := value.1 - below * value.2
    let toAbove := above * value.2 - value.1
    if toBelow < toAbove || (toBelow = toAbove && below % 2 = 0) then some below else some above
  | true, false => some below
  | false, true => some above
  | false, false => none

/-- The number of decimal digits of `n`. -/
def width (n : Nat) : Nat :=
  (Nat.toDigits 10 n).length

/-- The exponent `e` with `10 ^ e ≤ n / d < 10 ^ (e + 1)`, for positive `n` and `d`. -/
def order (n d : Nat) : Int :=
  -- The widths tell the order up to one.
  let guess : Int := (width n : Int) - (width d : Int)
  if d * Nat.pow 10 guess.toNat ≤ n * Nat.pow 10 (-guess).toNat then guess else guess - 1

/-- The first hit on the grids with `count`, `count + 1`, ... digits, `fuel` of them. -/
def firstHit (x : Binary) (top : Int) : Nat → Nat → Decimal
  | 0, _ => ⟨x.mantissa, 0⟩
  | fuel + 1, count =>
    let k := top - (count : Int) + 1
    match onGrid? x k with
    | some p => ⟨p, k⟩
    | none => firstHit x top fuel (count + 1)

/-- The nearest of the decimals with the fewest digits that round to `x`. -/
def shortest (x : Binary) : Decimal :=
  let value := fraction x.mantissa x.exponent 0
  firstHit x (order value.1 value.2) 17 1

/-- The parts of a finite positive number in the 64-bit format. -/
def Binary.ofBits (bits : Nat) : Binary :=
  let field : Nat := bits / Nat.pow 2 52 % Nat.pow 2 11
  let fractionBits : Nat := bits % Nat.pow 2 52
  if field = 0 then ⟨fractionBits, -1074, false⟩
  else ⟨Nat.pow 2 52 + fractionBits, (field : Int) - 1075, fractionBits = 0 && 1 < field⟩

end Decimal

end PipelineRuns
