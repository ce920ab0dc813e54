import TagFormula.Decimal.Double

/-!
# The shortest decimal of a double

Among the decimals that read back to a given double, the one with the fewest digits, and of those
the one nearest to it. The decimals with a given last place form a grid. If any point of a grid reads
back, so does one of the two points around the double itself, so it is enough to test those two on
ever finer grids.
-/

namespace TagFormula.Double

inductive Tie where
  | up
  | even
  deriving DecidableEq

/-- The number `value / unit` with the numbers that read back to it: those from `low / unit` to
`high / unit`, the ends included if `closed`. -/
structure Neighbourhood where
  unit : Nat
  low : Nat
  value : Nat
  high : Nat
  closed : Bool

/-- The neighbourhood of `significand · 2 ^ exponent`. It ends halfway to the next double on either
side; below a power of two the doubles lie twice as close. -/
def Neighbourhood.of (significand : Nat) (exponent : Int) : Neighbourhood :=
  let below := if significand = impliedBit && leastExponent < exponent then 1 else 2
  let scale := 1 <<< (exponent - 2).toNat
  { unit := 1 <<< (2 - exponent).toNat
    low := (4 * significand - below) * scale
    value := 4 * significand * scale
    high := (4 * significand + 2) * scale
    closed := significand % 2 = 0 }

namespace Neighbourhood

/-- The decimal `digits · 10 ^ place` reads back. -/
def has (n : Neighbourhood) (digits : Nat) (place : Int) : Bool :=
  let point := digits * Nat.pow 10 place.toNat * n.unit
  let scale := Nat.pow 10 (-place).toNat
  if n.closed then n.low * scale ≤ point && point ≤ n.high * scale
  else n.low * scale < point && point < n.high * scale

/-- The point below the number on the grid of multiples of `10 ^ place`, with twice the distance to
it and the distance between two points, in a common unit. -/
def below (n : Neighbourhood) (place : Int) : Nat × Nat × Nat :=
  let step := n.unit * Nat.pow 10 place.toNat
  let value := n.value * Nat.pow 10 (-place).toNat
  (value / step, 2 * (value % step), step)

/-- The point of the grid of multiples of `10 ^ place` that reads back and is nearest. -/
def onGrid? (n : Neighbourhood) (tie : Tie) (place : Int) : Option Nat :=
  let (digits, twice, step) := n.below place
  match n.has digits place, n.has (digits + 1) place with
  | true, true =>
    if twice < step then some digits
    else if step < twice then some (digits + 1)
    else match tie with
      | .up => some (digits + 1)
      | .even => some (digits + digits % 2)
  | true, false => some digits
  | false, true => some (digits + 1)
  | false, false => none

/-- The first hit on the grids from `10 ^ place` downwards, `grids` of them at most. -/
def firstHit (n : Neighbourhood) (tie : Tie) (place : Int) : (grids : Nat) → Nat × Int
  | 0 => ((n.below place).1, place)
  | grids + 1 =>
    match n.onGrid? tie place with
    | some digits => (digits, place)
    | none => n.firstHit tie (place - 1) grids

/-- A power of ten above the number: about `log 2` times its binary length. -/
def topPlace (n : Neighbourhood) : Int :=
  ((n.value.log2 : Int) - n.unit.log2 + 1) * 30103 / 100000 + 1

end Neighbourhood

/-- The digits and the place of the last one: the shortest decimal of `significand · 2 ^ exponent`.
Seventeen digits always suffice, so the search ends before its last grid. -/
def shortest (tie : Tie) (significand : Nat) (exponent : Int) : Nat × Int :=
  if significand = 0 then (0, 0)
  else
    let n := Neighbourhood.of significand exponent
    n.firstHit tie n.topPlace 24

end TagFormula.Double
