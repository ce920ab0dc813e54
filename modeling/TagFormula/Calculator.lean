import TagFormula.Expression.Lexer
import TagFormula.Expression.Reading
import TagFormula.Expression.Value
import TagFormula.Tag

/-!
# Calculating a formula

The text of a formula is the values of its tags with one space between two of them. `Calculator`
keeps what a user sees of the calculations: the text of the last attempt, and the total of the last
one that succeeded.
-/

namespace TagFormula

def evaluate (text : String) : Except (FormulaError Float) Float :=
  match Token.ofText text with
  | .error e => .error e
  | .ok tokens =>
    match Tree.ofTokens tokens with
    | .error e => .error e
    | .ok tree => tree.value .double

def formulaText (tags : List Tag) : String :=
  " ".intercalate (tags.map (·.value))

structure Evaluation where
  text : String
  total : Float

def Evaluation.summary (e : Evaluation) : String :=
  s!"{e.text} = {NumberFormat.plain.write e.total}"

def calculate (tags : List Tag) : Except (FormulaError Float) Evaluation :=
  (evaluate (formulaText tags)).map fun total => ⟨formulaText tags, total⟩

structure Calculator where
  /-- The text of the last attempt. -/
  text : String := ""
  /-- The total of the last attempt that succeeded. -/
  total : Float := 0.0
  /-- The last attempt succeeded, so the total is that of the text. -/
  isValid : Bool := false

/-- Calculate a formula. A failure leaves the total as it was, and only then are text and total of
different formulas. -/
def Calculator.calculate (c : Calculator) (tags : List Tag) :
    Calculator × Except (FormulaError Float) Evaluation :=
  let attempted := { c with text := formulaText tags, isValid := false }
  match evaluate attempted.text with
  | .ok total => ({ attempted with total, isValid := true }, .ok ⟨attempted.text, total⟩)
  | .error e => (attempted, .error e)

end TagFormula
