import TagFormula.Screen.Line

/-!
# Wrapping a row between words

A row of glyphs is cut into lines that take at most a number of columns. A line ends between two
words, and the blanks there are dropped as far as there was room for them on the line; a word that
is longer than a line is cut.
-/

namespace TagFormula.Screen

/-- The glyph is a blank at which a line may end. -/
def Glyph.isBlank (g : Glyph) : Bool :=
  g.cluster = ['\u200b'] || (g.cluster.all Text.isBlank && g.cluster ≠ ['\u00a0'])

/-- The columns that glyphs take beside each other. -/
def glyphColumns (glyphs : List Glyph) : Nat :=
  glyphs.foldr (fun g columns => g.columns + columns) 0

@[simp] theorem glyphColumns_nil : glyphColumns [] = 0 :=
  rfl

theorem glyphColumns_cons (g : Glyph) (rest : List Glyph) :
    glyphColumns (g :: rest) = g.columns + glyphColumns rest :=
  rfl

theorem glyphColumns_singleton (g : Glyph) : glyphColumns [g] = g.columns :=
  rfl

theorem glyphColumns_append (a b : List Glyph) :
    glyphColumns (a ++ b) = glyphColumns a + glyphColumns b := by
  induction a with
  | nil => rw [List.nil_append, glyphColumns_nil, Nat.zero_add]
  | cons g rest ih => rw [List.cons_append, glyphColumns_cons, glyphColumns_cons, ih, Nat.add_assoc]

/-- A row that is being wrapped: the finished lines, the line begun, the blanks behind it, and the
word behind those. -/
structure Wrap where
  lines : List (List Glyph) := []
  line : List Glyph := []
  blanks : List Glyph := []
  word : List Glyph := []
  /-- The last glyph that counts belongs to a word. -/
  inWord : Bool := false
  deriving DecidableEq, Repr

/-- Drop the glyphs at the start for which there is room. -/
def dropFitting (room : Nat) : List Glyph → List Glyph
  | [] => []
  | g :: rest => if room < g.columns then g :: rest else dropFitting (room - g.columns) rest

namespace Wrap

/-- Put the word on the line. The blanks before it count unless it starts the line. -/
def settleWord (w : Wrap) : Wrap :=
  { w with
    line := (if w.line.isEmpty then [] else w.line ++ w.blanks) ++ w.word
    blanks := []
    word := [] }

/-- The line is empty and the next glyph would make its first word, or the blanks before that,
longer than a line. -/
def overflows (w : Wrap) (room columns : Nat) : Bool :=
  w.line.isEmpty &&
    (room < glyphColumns w.word + columns || room < glyphColumns w.blanks + columns)

/-- There is no room on the line for one more glyph. -/
def isFull (w : Wrap) (room columns : Nat) : Bool :=
  room ≤ glyphColumns w.line ||
    (0 < columns && room ≤ glyphColumns w.line + glyphColumns w.blanks + glyphColumns w.word)

def breakLine (w : Wrap) (room : Nat) : Wrap :=
  { w with
    lines := w.lines ++ [w.line]
    line := []
    blanks := dropFitting (room - glyphColumns w.line) w.blanks }

def append (w : Wrap) (g : Glyph) : Wrap :=
  if g.isBlank then { w with blanks := w.blanks ++ [g], inWord := false }
  else { w with word := w.word ++ [g], inWord := true }

/-- Take the next glyph. One that is wider than a line is left out. -/
def push (room : Nat) (w : Wrap) (g : Glyph) : Wrap :=
  if room < g.columns then w
  else
    let w := if (w.inWord && g.isBlank) || w.overflows room g.columns then w.settleWord else w
    if w.isFull room g.columns then
      let w := w.breakLine room
      if g.isBlank && w.blanks.isEmpty then w else w.append g
    else w.append g

def finish (w : Wrap) : List (List Glyph) :=
  let lines :=
    if w.line.isEmpty && w.word.isEmpty && !w.blanks.isEmpty then w.lines ++ [[]] else w.lines
  let last := w.settleWord.line
  let lines := if last.isEmpty then lines else lines ++ [last]
  if lines.isEmpty then [[]] else lines

end Wrap

/-- Wrap a row of glyphs into lines of at most `room` columns. -/
def wrapRow (room : Nat) (glyphs : List Glyph) : List (List Glyph) :=
  (glyphs.foldl (Wrap.push room) {}).finish

end TagFormula.Screen
