import TagFormula.Decimal.Double

/-!
# Numerals and literals

A numeral is what a tag may hold: digits with at most one point among them. A literal is what may
stand in an expression: a numeral, perhaps with an exponent. Every literal has a double nearest to
it.
-/

namespace TagFormula

/-- The number that a list of digits stands for. -/
def digitsValue (digits : List Char) : Nat :=
  digits.foldl (fun value c => 10 * value + (c.toNat - '0'.toNat)) 0

/-- The parts of a text before and after its first point, if it has one. -/
def splitPoint (cs : List Char) : List Char × List Char :=
  (cs.takeWhile (· ≠ '.'), (cs.dropWhile (· ≠ '.')).drop 1)

/-- A plain decimal numeral: digits, perhaps with one point before, between or after them
(`12`, `0.5`, `.5`, `3.`). -/
def isNumeral (cs : List Char) : Bool :=
  let (whole, fraction) := splitPoint cs
  !(whole.isEmpty && fraction.isEmpty) && whole.all Char.isDigit && fraction.all Char.isDigit

/-- A number literal: `whole . fraction e exponent`. -/
structure Literal where
  whole : List Char
  fraction : List Char
  exponent : Int
  deriving DecidableEq

namespace Literal

def readExponent? (cs : List Char) : Option Int :=
  let (negative, digits) := match cs with
    | '-' :: digits => (true, digits)
    | '+' :: digits => (false, digits)
    | digits => (false, digits)
  if digits.isEmpty || !digits.all Char.isDigit then none
  else
    let value : Int := digitsValue digits
    some (if negative then -value else value)

/-- Read a literal: digits on at least one side of an optional point, then an optional exponent. -/
def read? (cs : List Char) : Option Literal :=
  let whole := cs.takeWhile Char.isDigit
  let (fraction, rest) := match cs.dropWhile Char.isDigit with
    | '.' :: rest => (rest.takeWhile Char.isDigit, rest.dropWhile Char.isDigit)
    | rest => ([], rest)
  if whole.isEmpty && fraction.isEmpty then none
  else
    match rest with
    | [] => some ⟨whole, fraction, 0⟩
    | c :: rest =>
      if c = 'e' || c = 'E' then (readExponent? rest).map (⟨whole, fraction, ·⟩) else none

def value (l : Literal) : Float :=
  Double.ofDecimal (digitsValue (l.whole ++ l.fraction)) (l.exponent - l.fraction.length)

end Literal

end TagFormula
