import TagFormula.Decimal.Numeral

/-!
# TOML: dates and times

A date, a time of day, or both, perhaps with the distance to universal time. They are kept as texts
in one normal form.
-/

namespace TagFormula.Toml

/-- A number of `count` digits, and the characters behind it. -/
def readDigits? (count : Nat) (cs : List Char) : Option (Nat × List Char) :=
  let digits := cs.take count
  if digits.length = count && digits.all Char.isDigit then some (digitsValue digits, cs.drop count)
  else none

def readChar? (c : Char) (cs : List Char) : Option (List Char) :=
  match cs with
  | first :: rest => if first = c then some rest else none
  | [] => none

def daysIn (year month : Nat) : Nat :=
  if month = 2 then
    if (year % 4 = 0 && year % 100 ≠ 0) || year % 400 = 0 then 29 else 28
  else if month = 4 || month = 6 || month = 9 || month = 11 then 30
  else 31

/-- A date at the start of a text, as written, and the characters behind it. -/
def readDate? (cs : List Char) : Option (List Char × List Char) := do
  let (year, rest) ← readDigits? 4 cs
  let rest ← readChar? '-' rest
  let (month, rest) ← readDigits? 2 rest
  let rest ← readChar? '-' rest
  let (day, rest) ← readDigits? 2 rest
  if 1 ≤ month && month ≤ 12 && 1 ≤ day && day ≤ daysIn year month then some (cs.take 10, rest)
  else none

/-- The fraction of a second in normal form: nine digits at most, and no zeros at its end. -/
def fractionText (digits : List Char) : List Char :=
  match ((digits.take 9).reverse.dropWhile (· = '0')).reverse with
  | [] => []
  | digits => '.' :: digits

/-- A time of day at the start of a text, in normal form, and the characters behind it. -/
def readClock? (cs : List Char) : Option (List Char × List Char) := do
  let (hour, rest) ← readDigits? 2 cs
  let rest ← readChar? ':' rest
  let (minute, rest) ← readDigits? 2 rest
  let rest ← readChar? ':' rest
  let (second, rest) ← readDigits? 2 rest
  if hour ≤ 23 && minute ≤ 59 && second ≤ 60 then
    match rest with
    | '.' :: rest =>
      let digits := rest.takeWhile Char.isDigit
      if digits.isEmpty then none
      else some (cs.take 8 ++ fractionText digits, rest.dropWhile Char.isDigit)
    | rest => some (cs.take 8, rest)
  else none

/-- The distance to universal time that is the whole text, in normal form. -/
def readOffset? (cs : List Char) : Option (List Char) :=
  match cs with
  | ['Z'] | ['z'] => some ['Z']
  | sign :: cs => do
    if sign ≠ '+' && sign ≠ '-' then none
    let (hour, rest) ← readDigits? 2 cs
    let rest ← readChar? ':' rest
    let (minute, rest) ← readDigits? 2 rest
    if hour ≤ 23 && minute ≤ 59 && rest.isEmpty then
      some ((if hour = 0 && minute = 0 then '+' else sign) :: cs)
    else none
  | [] => none

/-- The date or time that is the whole text, in normal form. -/
def readTime? (cs : List Char) : Option (List Char) :=
  match readDate? cs with
  | some (date, []) => some date
  | some (date, separator :: rest) => do
    if separator ≠ 'T' && separator ≠ 't' && separator ≠ ' ' then none
    let (clock, rest) ← readClock? rest
    if rest.isEmpty then some (date ++ 'T' :: clock)
    else (readOffset? rest).map fun offset => date ++ 'T' :: clock ++ offset
  | none =>
    match readClock? cs with
    | some (clock, []) => some clock
    | _ => none

end TagFormula.Toml
