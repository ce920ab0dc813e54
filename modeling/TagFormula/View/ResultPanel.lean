import TagFormula.Calculator
import TagFormula.Screen.Frame
import TagFormula.Screen.Paragraph
import TagFormula.View.Theme

/-!
# The result panel

A frame with the formula calculated last, its total, and the button that calculates.
-/

namespace TagFormula.ResultPanel

open Screen

def height : Nat := 4

def buttonText : String := "[ Calculate ]"

/-- Where the button stands: at the right end of the first row inside the frame. -/
def buttonArea (area : Area) : Area :=
  let row := area.inside.rows 0 1
  row.dropColumns (row.width - buttonText.length)

def lines (calculator : Calculator) : List Line :=
  [ [⟨"Expression: ", Theme.muted⟩,
      if calculator.text.isEmpty then ⟨"(not calculated)", Theme.muted⟩
      else ⟨calculator.text, {}⟩],
    [⟨"Total:      ", Theme.muted⟩,
      ⟨NumberFormat.plain.write calculator.total, Theme.total⟩] ]

def buttonStyle : Style :=
  Theme.accent.patch { emphasis := { reversed := true } }

def draw (canvas : Canvas) (area : Area) (calculator : Calculator) : Canvas :=
  ((canvas.drawFrame area { title := " Result ", style := Theme.frame }).drawParagraph area.inside
    .left (lines calculator)).drawParagraph (buttonArea area) .left [[⟨buttonText, buttonStyle⟩]]

end TagFormula.ResultPanel
