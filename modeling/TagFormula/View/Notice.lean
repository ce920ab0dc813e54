import TagFormula.Screen.Frame
import TagFormula.Screen.Paragraph
import TagFormula.View.Theme

/-!
# Notices

A notice stands in the middle of the screen until it is dismissed. Its height is reckoned from the
number of characters of its text.
-/

namespace TagFormula.Notice

open Screen

def defaultTitle : String := "Notice"

/-- What stands below the text. -/
def dismissText : String := "Enter/ESC: dismiss"

/-- The width of the whole that the text asks for. -/
def wantedWidth (text : String) : Nat :=
  saturate (saturate text.length + 4)

def width (text : String) (screenWidth : Nat) : Nat :=
  min (max 30 (min (wantedWidth text) 70)) (screenWidth - 4)

def textColumns (width : Nat) : Nat :=
  max (width - 4) 1

/-- The rows kept for the text. -/
def textRows (text : String) (width : Nat) : Nat :=
  let columns := textColumns width
  max ((wantedWidth text - 4 + columns - 1) / columns) 1

def height (text : String) (width : Nat) : Nat :=
  toWord (textRows text width + 6)

/-- The middle of an area. -/
def centered (width height : Nat) (area : Area) : Area :=
  ((area.dropColumns ((area.width - width) / 2)).takeColumns width).rows
    ((area.height - height) / 2) height

def noticeArea (text : String) (area : Area) : Area :=
  let width := width text area.width
  centered width (height text width) area

/-- Draw a notice. Inside the frame are a free row, the text, a free row, and how to dismiss it; the
rows at the end are left out where there is no room. -/
def draw (canvas : Canvas) (area : Area) (title text : String) : Canvas :=
  let textHeight := textRows text (width text area.width)
  let whole := noticeArea text area
  let body := whole.inside.withoutSides
  let style := Theme.alert.patch { emphasis := { bold := true } }
  let dismissArea := body.rows (textHeight + 2) 1
  let canvas := (canvas.wipe whole).drawFrame whole
    { title := s!" {title} ", alignment := .center, style }
  let canvas := canvas.drawWrapped (body.rows 1 textHeight) .center text
  (canvas.restyle dismissArea Theme.muted).drawParagraph dismissArea .center [[⟨dismissText, {}⟩]]

end TagFormula.Notice
