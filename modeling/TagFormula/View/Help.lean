import TagFormula.Screen.Frame
import TagFormula.Screen.Paragraph
import TagFormula.View.Theme

/-!
# The help overlay

All keys of the editor, in the middle of the screen.
-/

namespace TagFormula.Help

open Screen

/-- The part of a length, in hundredths, rounded to the nearest number, a half upwards. -/
def percent (part length : Nat) : Nat :=
  (2 * part * length + 100) / 200

/-- The overlay: what is left of the screen if 15 hundredths are taken from its left and its right,
and 10 from its top and its bottom. -/
def overlayArea (area : Area) : Area :=
  let left := percent 15 area.width
  let right := percent 85 area.width
  let top := percent 10 area.height
  let bottom := percent 90 area.height
  ((area.dropColumns left).takeColumns (right - left)).rows top (bottom - top)

/-- The columns of the names of keys. -/
def keyColumns : Nat := 18

/-- What a key does. -/
def entry (key action : String) : Line :=
  [⟨String.ofList (key.toList.rightpad keyColumns ' '), Theme.accent⟩, ⟨action, {}⟩]

def heading (text : String) : List Line :=
  [[], [⟨text, Theme.accent.patch { emphasis := { underlined := true } }⟩], []]

def lines : List Line :=
  heading "  Building a formula" ++ [
    entry "  Type" "Filter suggestions",
    entry "  + - * / ( ) ^" "Add an operand",
    entry "  ↑/↓" "Move through suggestions",
    entry "  Enter" "Add highlighted (or first) suggestion",
    entry "  Backspace" "Erase text, then the last tag",
    entry "  Click" "Add a suggestion or delete a chip"] ++
  heading "  Result" ++ [
    entry "  F5/ctrl+r" "Calculate",
    entry "  ctrl+l" "Clear the formula",
    entry "  ESC/ctrl+c" "Quit",
    [],
    [⟨"  Press any key to close", Theme.muted⟩]]

def draw (canvas : Canvas) (area : Area) : Canvas :=
  let overlay := overlayArea area
  ((canvas.wipe overlay).drawFrame overlay
    { title := " Help ", alignment := .center, style := Theme.accent }).drawParagraph
      overlay.inside .left lines

end TagFormula.Help
