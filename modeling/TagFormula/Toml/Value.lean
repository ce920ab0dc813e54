import TagFormula.Toml.Time
import TagFormula.Toml.Token

/-!
# TOML: values

The values of a TOML document, and what a bare word stands for.
-/

namespace TagFormula.Toml

/-- A value. A date or a time is its text in normal form. -/
inductive Value where
  | string (text : String)
  | integer (value : Int)
  | float (value : Float)
  | boolean (value : Bool)
  | time (text : String)
  | array (items : List Value)
  | table (fields : List (String × Value))

def greatestInteger : Int := 0x7FFFFFFFFFFFFFFF

def leastInteger : Int := -0x8000000000000000

/-- Digits without the underscores between them. -/
def ungroup? (isDigit : Char → Bool) : List Char → Option (List Char)
  | [] => none
  | [c] => if isDigit c then some [c] else none
  | c :: '_' :: rest => if isDigit c then (ungroup? isDigit rest).map (c :: ·) else none
  | c :: rest => if isDigit c then (ungroup? isDigit rest).map (c :: ·) else none

/-- The digits of a whole number: no zero comes before other digits. -/
def wholeDigits? (cs : List Char) : Option (List Char) :=
  match ungroup? Char.isDigit cs with
  | some ('0' :: _ :: _) => none
  | digits => digits

/-- Take a sign off: whether it is negative, and the rest. -/
def splitSign (cs : List Char) : Bool × List Char :=
  match cs with
  | '-' :: rest => (true, rest)
  | '+' :: rest => (false, rest)
  | cs => (false, cs)

/-- An integer with a sign, within the range of a document. -/
def integer? (negative : Bool) (magnitude : Nat) : Option Value :=
  let value : Int := if negative then -magnitude else magnitude
  if leastInteger ≤ value && value ≤ greatestInteger then some (.integer value) else none

/-- An integer to the base 2, 8 or 16. -/
def readBased? (cs : List Char) : Option Value :=
  let read (base : Nat) (digits : List Char) : Option Value := do
    let isDigit (c : Char) := match hexDigit? c with
      | some value => decide (value < base)
      | none => false
    let digits ← ungroup? isDigit digits
    let values ← digits.mapM hexDigit?
    integer? false (values.foldl (fun n digit => base * n + digit) 0)
  match cs with
  | '0' :: 'x' :: digits => read 16 digits
  | '0' :: 'o' :: digits => read 8 digits
  | '0' :: 'b' :: digits => read 2 digits
  | _ => none

def readInteger? (cs : List Char) : Option Value := do
  let (negative, cs) := splitSign cs
  let digits ← wholeDigits? cs
  integer? negative (digitsValue digits)

/-- The exponent behind an `e`. -/
def readPower? (cs : List Char) : Option Int := do
  let (negative, cs) := splitSign cs
  let digits ← ungroup? Char.isDigit cs
  let value : Int := digitsValue digits
  some (if negative then -value else value)

/-- A number with a fraction or an exponent, or one of the names `inf` and `nan`. -/
def readFloat? (cs : List Char) : Option Value := do
  let (negative, cs) := splitSign cs
  let signed (x : Float) : Value := .float (if negative then -x else x)
  if cs = ['i', 'n', 'f'] then some (signed (1.0 / 0.0))
  else if cs = ['n', 'a', 'n'] then some (.float (0.0 / 0.0))
  else
    let isE (c : Char) := c = 'e' || c = 'E'
    let mantissa := cs.takeWhile (!isE ·)
    let power ← match cs.dropWhile (!isE ·) with
      | [] => some none
      | _ :: rest => (readPower? rest).map some
    let (whole, fraction) := splitPoint mantissa
    let whole ← wholeDigits? whole
    let fraction ← if '.' ∈ mantissa then (ungroup? Char.isDigit fraction).map some else some none
    if power.isNone && fraction.isNone then none
    let value := Literal.value ⟨whole, fraction.getD [], power.getD 0⟩
    if value.isFinite then some (signed value) else none

/-- What a bare word stands for where a value is expected. -/
def Value.ofWord? (cs : List Char) : Option Value :=
  if cs = ['t', 'r', 'u', 'e'] then some (.boolean true)
  else if cs = ['f', 'a', 'l', 's', 'e'] then some (.boolean false)
  else
    (readInteger? cs).or <| (readBased? cs).or <| (readFloat? cs).or <|
      (readTime? cs).map fun text => .time (String.ofList text)

end TagFormula.Toml
