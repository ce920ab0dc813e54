import TagFormula.Decimal.Notation
import TagFormula.Decimal.Numeral
import TagFormula.Expression.Token
import TagFormula.Text.Blank

/-!
# From text to tokens

A text is cut from the left into blanks, operand symbols and runs of number characters. A run starts
with a digit or a point and goes on with digits, points, the letters `e` and `E`, and a sign right
after such a letter. Each run has to be a number literal.
-/

namespace TagFormula

namespace Token

/-- A run of number characters can start with `c`. -/
def startsNumber (c : Char) : Bool :=
  c.isDigit || c = '.'

/-- A run of number characters that ends in `last` goes on with `c`. -/
def continuesNumber (last c : Char) : Bool :=
  c.isDigit || c = '.' || c = 'e' || c = 'E' ||
    ((c = '+' || c = '-') && (last = 'e' || last = 'E'))

/-- Cut off the characters that continue a run ending in `last`. -/
def splitRun (last : Char) : List Char → List Char × List Char
  | [] => ([], [])
  | c :: rest =>
    if continuesNumber last c then
      let (run, after) := splitRun c rest
      (c :: run, after)
    else ([], c :: rest)

/-- The two parts of a run are the text that was cut. -/
theorem splitRun_append (last : Char) (cs : List Char) :
    (splitRun last cs).1 ++ (splitRun last cs).2 = cs := by
  induction cs generalizing last with
  | nil => rfl
  | cons c rest ih =>
    unfold splitRun
    split
    · simp [ih]
    · rfl

/-- The reader gets on, so that it ends on every text. -/
theorem length_splitRun_le (last : Char) (cs : List Char) :
    (splitRun last cs).2.length ≤ cs.length := by
  have h := congrArg List.length (splitRun_append last cs)
  simp only [List.length_append] at h
  omega

/-- The tokens of a text that starts at a given position. -/
def scan (position : Nat) (cs : List Char) : Except (FormulaError Float) (List (Token Float)) :=
  match cs with
  | [] => .ok []
  | c :: rest =>
    if Text.isBlank c then scan (position + c.utf8Size) rest
    else
      match Operand.ofChar? c with
      | some op =>
        (scan (position + c.utf8Size) rest).map (⟨.operand op, position⟩ :: ·)
      | none =>
        if startsNumber c then
          let run := c :: (splitRun c rest).1
          match Literal.read? run with
          | none => .error (.invalidNumber (String.ofList run) position)
          | some literal =>
            (scan (position + run.length) (splitRun c rest).2).map
              (⟨.number literal.value, position⟩ :: ·)
        else .error (.unknownCharacter c position)
termination_by cs.length
decreasing_by
  all_goals
    have := length_splitRun_le c rest
    simp only [List.length_cons]
    omega

/-- The tokens of a text, in order; the leftmost offence is reported. -/
def ofText (text : String) : Except (FormulaError Float) (List (Token Float)) :=
  scan 0 text.toList

end Token

/-- A lexeme as messages show it: a number in its plain notation, not as it was written. -/
def Lexeme.text : Lexeme Float → String
  | .number value => NumberFormat.plain.write value
  | .operand op => op.symbol

def FormulaError.message : FormulaError Float → String
  | .empty => "Expression is empty"
  | .unknownCharacter c position => s!"Unexpected character '{c}' at position {position}"
  | .invalidNumber text position => s!"Invalid number '{text}' at position {position}"
  | .unexpected lexeme position => s!"Unexpected '{lexeme.text}' at position {position}"
  | .unexpectedEnd => "Unexpected end of expression, expected a number or '('"
  | .tooDeep position => s!"Expression is nested too deeply at position {position}"
  | .unbalanced position => s!"Unbalanced parenthesis at position {position}"
  | .divisionByZero => "Division by zero"
  | .nonFinite value => s!"Result is not a finite number ({NumberFormat.plain.write value})"

end TagFormula
