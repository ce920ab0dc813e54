/-!
# Doubles as fractions

A finite double is a whole number times a power of two. `Double.parts` takes a double apart, and
`Double.nearest` goes the other way: from a fraction to the double closest to it, in exact
arithmetic on natural numbers.
-/

namespace TagFormula.Double

/-- What the 64 bits of a double stand for. -/
inductive Parts where
  | nan
  | infinite (negative : Bool)
  /-- The number `significand · 2 ^ exponent`, with its sign. -/
  | finite (negative : Bool) (significand : Nat) (exponent : Int)
  deriving DecidableEq

/-- The least exponent: that of the subnormal numbers. -/
def leastExponent : Int := -1074

/-- The leading bit of a significand, `2 ^ 52`, which the bits of a double do not hold. -/
def impliedBit : Nat := 1 <<< 52

/-- Take the bits of a double apart: a sign, eleven bits of exponent, and fifty-two bits of the
significand, whose leading bit is implied unless the exponent bits are all zero. -/
def partsOfBits (bits : Nat) : Parts :=
  let negative := bits >>> 63 % 2 == 1
  let scale := bits >>> 52 % 2048
  let fraction := bits % impliedBit
  if scale = 2047 then
    if fraction = 0 then .infinite negative else .nan
  else if scale = 0 then .finite negative fraction leastExponent
  else .finite negative (impliedBit + fraction) (leastExponent + (scale - 1 : Nat))

def parts (x : Float) : Parts :=
  partsOfBits x.toBits.toNat

/-- The whole number nearest to `num / den`; of two equally near, the even one. -/
def roundEven (num den : Nat) : Nat :=
  let whole := num / den
  let twice := 2 * (num % den)
  if twice < den then whole
  else if den < twice then whole + 1
  else whole + whole % 2

/-- `num / den` over `2 ^ exponent`, as a numerator and a denominator. -/
def scaleDown (num den : Nat) (exponent : Int) : Nat × Nat :=
  (num <<< (-exponent).toNat, den <<< exponent.toNat)

/-- The exponent of the doubles around `num / den`: that of a significand of fifty-three bits, and
never below the least one. -/
def exponentNear (num den : Nat) : Int :=
  let guess : Int := num.log2 - den.log2
  let (top, bottom) := scaleDown num den guess
  let exponent := if top < bottom then guess - 1 else guess
  max (exponent - 52) leastExponent

/-- The bits of the double nearest to `num / den`. A significand that rounds up to the next power of
two carries into the exponent bits, and past the largest double the result is infinity. -/
def nearestBits (num den : Nat) : Nat :=
  if num = 0 then 0
  else
    let exponent := exponentNear num den
    let (top, bottom) := scaleDown num den exponent
    min ((exponent - leastExponent).toNat * impliedBit + roundEven top bottom) (2047 * impliedBit)

/-- The double nearest to the fraction `num / den`; of two equally near, the one with an even
significand. -/
def nearest (num den : Nat) : Float :=
  Float.ofBits (nearestBits num den).toUInt64

/-- The double nearest to `digits · 10 ^ exponent`. A number of at least `10 ^ 400` is infinite and
one below `10 ^ -400` is zero, so that no power of ten larger than needed is computed. -/
def ofDecimal (digits : Nat) (exponent : Int) : Float :=
  if digits = 0 || exponent ≤ -(digits.log2 + 401 : Int) then 0.0
  else if 400 ≤ exponent then Float.ofBits 0x7FF0000000000000
  else nearest (digits * Nat.pow 10 exponent.toNat) (Nat.pow 10 (-exponent).toNat)

end TagFormula.Double
