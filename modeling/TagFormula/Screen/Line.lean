import TagFormula.Screen.Canvas
import TagFormula.Text.Cluster
import TagFormula.Text.Columns
import TagFormula.Text.Blank

/-!
# Lines of styled text

A line is drawn cluster by cluster. A cluster that takes two columns is drawn in the first of its
cells and wipes the other; one that takes none is drawn behind the cluster before it. Control
characters are never drawn.
-/

namespace TagFormula.Screen

structure Span where
  text : String
  style : Style := {}
  deriving DecidableEq, Repr

structure Glyph where
  cluster : List Char
  style : Style := {}
  deriving DecidableEq, Repr

abbrev Line := List Span

/-- How a line stands in an area that is wider. -/
inductive Alignment where
  | left
  | center
  | right
  deriving DecidableEq, Repr

namespace Glyph

def columns (g : Glyph) : Nat :=
  Text.columns g.cluster

def symbol (g : Glyph) : String :=
  String.ofList g.cluster

end Glyph

def glyphsOf (text : String) (style : Style) : List Glyph :=
  ((Text.clusters text.toList).filter (!·.any Text.isControl)).map (⟨·, style⟩)

namespace Span

def glyphs (s : Span) : List Glyph :=
  glyphsOf s.text s.style

def columns (s : Span) : Nat :=
  Text.columns s.text.toList

end Span

namespace Line

def columns (line : Line) : Nat :=
  line.foldr (fun span columns => span.columns + columns) 0

def glyphs (line : Line) : List Glyph :=
  line.flatMap Span.glyphs

end Line

/-- The rows of a text: what stands between line feeds, each without a carriage return at its end.
A line feed at the end of the text starts no further row. -/
def rowsOf (text : String) : List String :=
  let pieces := text.toList.splitOn '\n'
  let pieces := if pieces.getLast? = some [] then pieces.dropLast else pieces
  pieces.mapIdx fun i piece =>
    let isBroken := i + 1 < pieces.length || text.toList.getLast? = some '\n'
    String.ofList (if isBroken && piece.getLast? = some '\r' then piece.dropLast else piece)

namespace Canvas

/-- Draw glyphs from a column on, as long as there is room. What takes no column is left out. -/
def drawClipped (canvas : Canvas) (x y room : Nat) : List Glyph → Canvas
  | [] => canvas
  | g :: rest =>
    let columns := g.columns
    if columns = 0 then canvas.drawClipped x y room rest
    else if room < columns then canvas
    else
      let canvas := (canvas.put x y g.symbol g.style).wipeRow (x + 1) y (columns - 1)
      canvas.drawClipped (x + columns) y (room - columns) rest

/-- Write a text from a column on into at most `room` columns. -/
def write (canvas : Canvas) (x y : Nat) (text : String) (room : Nat) (style : Style) : Canvas :=
  canvas.drawClipped x y (min room (canvas.area.right - x)) (glyphsOf text style)

/-- Draw the glyphs of a span from column `x` on up to column `right`; the span starts in column
`start`. -/
def drawGlyphs (canvas : Canvas) (start x y right : Nat) (isFirst : Bool) : List Glyph → Canvas
  | [] => canvas
  | g :: rest =>
    let columns := g.columns
    if right < x + columns then canvas
    else
      let canvas :=
        if isFirst then canvas.put x y g.symbol g.style
        else if x = start then canvas.append x y g.symbol g.style
        else if columns = 0 then canvas.append (x - 1) y g.symbol g.style
        else canvas.put x y g.symbol g.style
      (canvas.wipeRow (x + 1) y (columns - 1)).drawGlyphs start (x + columns) y right false rest

def drawSpan (canvas : Canvas) (area : Area) (span : Span) : Canvas :=
  let area := area.intersect canvas.area
  if area.isEmpty then canvas
  else canvas.drawGlyphs area.x area.x area.y area.right true span.glyphs

def drawSpans (canvas : Canvas) (area : Area) : List Span → Canvas
  | [] => canvas
  | span :: rest =>
    if area.isEmpty then canvas
    else (canvas.drawSpan area span).drawSpans (area.dropColumns span.columns) rest

end Canvas

/-- The longest end of a list of clusters that takes at most a number of columns, and the columns
that it takes. -/
def longestEnd (room : Nat) : List (List Char) → List (List Char) × Nat
  | [] => ([], 0)
  | cluster :: rest =>
    let (kept, columns) := longestEnd room rest
    if kept.length = rest.length && columns + Text.columns cluster ≤ room then
      (cluster :: kept, columns + Text.columns cluster)
    else (kept, columns)

/-- A line without its first columns, and the columns by which what is left has to be moved because
a cluster has been cut. Spans that take no column are left out. -/
def Line.skip (n : Nat) : Line → Nat × Line
  | [] => (0, [])
  | span :: rest =>
    if span.columns ≤ n then Line.skip (n - span.columns) rest
    else
      let rest := rest.filter (0 < ·.columns)
      if n = 0 then (0, span :: rest)
      else
        let room := span.columns - n
        let (kept, columns) := longestEnd room (Text.clusters span.text.toList)
        (room - columns, { span with text := String.ofList kept.flatten } :: rest)

namespace Canvas

/-- Draw a line in the first row of an area. Of a line that does not fit, the end is cut; if it is
not aligned to the left, half of the excess or all of it is cut from its start. -/
def drawLine (canvas : Canvas) (area : Area) (alignment : Alignment) (line : Line) : Canvas :=
  let area := area.intersect canvas.area
  let columns := line.columns
  let indent := match alignment with
    | .left => 0
    | .center => (area.width - columns) / 2
    | .right => area.width - columns
  let excess := match alignment with
    | .left => 0
    | .center => (columns - area.width) / 2
    | .right => columns - area.width
  let (moved, line) := line.skip excess
  if area.isEmpty then canvas
  else canvas.drawSpans (area.dropColumns (indent + moved)) line

/-- Draw lines below each other, from a row of an area on and as far as there are rows. -/
def drawLines (canvas : Canvas) (area : Area) (first : Nat) : List Line → Canvas
  | [] => canvas
  | line :: rest =>
    if area.height ≤ first then canvas
    else (canvas.drawLine (area.rows first 1) .left line).drawLines area (first + 1) rest

end Canvas

end TagFormula.Screen
