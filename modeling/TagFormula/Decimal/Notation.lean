import TagFormula.Decimal.Shortest

/-!
# Written forms of a double

A double is written with the digits of its shortest decimal. `NumberFormat` holds what a format
decides beyond them.
-/

namespace TagFormula

structure NumberFormat where
  /-- Which of two equally near shortest decimals is written. -/
  tie : Double.Tie
  /-- A whole number gets the fraction `.0`. -/
  wholePoint : Bool
  /-- The powers of ten, first and last, at which a number is written without an exponent;
  `none` if all are. -/
  positional : Option (Int × Int)

namespace NumberFormat

/-- The format of messages and listings: all digits, never an exponent. -/
def plain : NumberFormat := ⟨.up, false, none⟩

/-- The format of JSON output: an exponent below `10 ^ -5` and from `10 ^ 16`, and always a point
otherwise. -/
def json : NumberFormat := ⟨.even, true, some (-5, 15)⟩

/-- `digits · 10 ^ place` without an exponent. -/
def positionalText (wholePoint : Bool) (digits : List Char) (place : Int) : List Char :=
  if 0 ≤ place then
    digits ++ List.replicate place.toNat '0' ++ (if wholePoint then ['.', '0'] else [])
  else
    let fraction := (-place).toNat
    let padded := List.replicate (fraction + 1 - digits.length) '0' ++ digits
    let whole := padded.length - fraction
    padded.take whole ++ '.' :: padded.drop whole

/-- `digits · 10 ^ place` with one digit before the point and an exponent. -/
def exponentText (digits : List Char) (power : Int) : List Char :=
  let mantissa := match digits with
    | [] | [_] => digits
    | first :: rest => first :: '.' :: rest
  let sign := if power < 0 then '-' else '+'
  mantissa ++ 'e' :: sign :: Nat.toDigits 10 power.natAbs

def magnitude (format : NumberFormat) (significand : Nat) (exponent : Int) : List Char :=
  let (value, place) := Double.shortest format.tie significand exponent
  let digits := Nat.toDigits 10 value
  let power := place + (digits.length - 1 : Nat)
  let isPositional := match format.positional with
    | none => true
    | some (least, most) => value = 0 || (least ≤ power && power ≤ most)
  if isPositional then positionalText format.wholePoint digits place
  else exponentText digits power

def write (format : NumberFormat) (x : Float) : String :=
  match Double.parts x with
  | .nan => "NaN"
  | .infinite negative => if negative then "-inf" else "inf"
  | .finite negative significand exponent =>
    let text := format.magnitude significand exponent
    String.ofList (if negative then '-' :: text else text)

end NumberFormat

end TagFormula
