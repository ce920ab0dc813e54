import TagFormula.Screen.Line

/-!
# Frames

A frame takes the outermost cells of an area. Its title stands in the first row.
-/

namespace TagFormula.Screen

structure Frame where
  title : String
  alignment : Alignment := .left
  style : Style
  deriving DecidableEq, Repr

def Frame.titleLine (frame : Frame) : Line :=
  (rowsOf frame.title).map (⟨·, {}⟩)

namespace Canvas

def fill (canvas : Canvas) (area : Area) (symbol : String) (style : Style) : Canvas :=
  canvas.modifyArea area (·.put symbol style)

/-- Draw the sides and the corners of a frame; where there is room for one of two corners only, the
upper and the left one win. -/
def drawBorder (canvas : Canvas) (area : Area) (style : Style) : Canvas :=
  let right := area.right - 1
  let bottom := area.bottom - 1
  (((((((canvas.fill (area.takeColumns 1) "│" style).fill (area.rows 0 1) "─" style).fill
    (area.dropColumns (area.width - 1)) "│" style).fill (area.rows (area.height - 1) 1) "─"
    style).put right bottom "┘" style).put right area.y "┐" style).put area.x bottom "└"
    style).put area.x area.y "┌" style

/-- Draw a title. One that is too long for the middle loses the columns on its left that half of
the excess makes, and on its right what is too much. -/
def drawTitle (canvas : Canvas) (area : Area) (alignment : Alignment) (title : Line) : Canvas :=
  let columns := title.columns
  let excess := (columns - area.width) / 2
  match alignment with
  | .center =>
    if columns ≤ area.width then
      let area := (area.dropColumns ((area.width - columns) / 2)).takeColumns columns
      canvas.drawLine area .left title
    else if excess = 0 then canvas.drawLine area .left title
    else canvas.drawLine (area.takeColumns (area.width - excess)) .right title
  | _ => canvas.drawLine (area.takeColumns columns) .left title

/-- Draw a frame. -/
def drawFrame (canvas : Canvas) (area : Area) (frame : Frame) : Canvas :=
  let area := area.intersect canvas.area
  if area.isEmpty then canvas
  else
    let titleArea := ((area.rows 0 1).dropColumns 1).takeColumns (area.width - 2)
    (canvas.drawBorder area frame.style).drawTitle titleArea frame.alignment frame.titleLine

end Canvas

end TagFormula.Screen
