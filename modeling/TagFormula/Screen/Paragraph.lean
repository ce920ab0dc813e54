import TagFormula.Screen.Wrap

/-!
# Paragraphs

Rows of glyphs below each other, each aligned in the area and cut where it does not fit. In a
paragraph, glyphs that take no column are not drawn.
-/

namespace TagFormula.Screen

/-- The glyphs for which there is room, if `used` columns are taken already. A glyph that is wider
than the whole room is left out. -/
def fitGlyphs (room used : Nat) : List Glyph → List Glyph
  | [] => []
  | g :: rest =>
    if room < g.columns then fitGlyphs room used rest
    else if room < used + g.columns then []
    else g :: fitGlyphs room (used + g.columns) rest

/-- The columns left free before a row in an area. -/
def Alignment.offset (alignment : Alignment) (area row : Nat) : Nat :=
  match alignment with
  | left => 0
  | center => area / 2 - row / 2
  | right => area - row

namespace Canvas

def drawRow (canvas : Canvas) (x y : Nat) : List Glyph → Canvas
  | [] => canvas
  | g :: rest =>
    if g.columns = 0 then canvas.drawRow x y rest
    else (canvas.put x y g.symbol g.style).drawRow (x + g.columns) y rest

def drawRows (canvas : Canvas) (area : Area) (alignment : Alignment) (y : Nat) :
    List (List Glyph) → Canvas
  | [] => canvas
  | glyphs :: rest =>
    if area.bottom ≤ y then canvas
    else
      let x := area.x + alignment.offset area.width (glyphColumns glyphs)
      (canvas.drawRow x y glyphs).drawRows area alignment (y + 1) rest

def drawParagraph (canvas : Canvas) (area : Area) (alignment : Alignment) (lines : List Line) :
    Canvas :=
  let area := area.intersect canvas.area
  if area.isEmpty then canvas
  else
    let rows := lines.map fun line => fitGlyphs area.width 0 line.glyphs
    canvas.drawRows area alignment area.y rows

/-- Draw a paragraph whose rows are wrapped between words. -/
def drawWrapped (canvas : Canvas) (area : Area) (alignment : Alignment) (text : String) : Canvas :=
  let area := area.intersect canvas.area
  if area.isEmpty then canvas
  else
    let rows := (rowsOf text).flatMap fun row => wrapRow area.width (glyphsOf row {})
    canvas.drawRows area alignment area.y rows

end Canvas

end TagFormula.Screen
