import TagFormula.Screen.Area
import TagFormula.Screen.Style

/-!
# The canvas

A canvas holds the cells of an area. What is drawn outside its area is lost.
-/

namespace TagFormula.Screen

/-- A cell: what is drawn in it and how. -/
structure Cell where
  symbol : String := ""
  style : Style := {}
  deriving DecidableEq, Repr

namespace Cell

/-- What is seen of a cell; without a symbol it is a space. -/
def text (c : Cell) : String :=
  if c.symbol.isEmpty then " " else c.symbol

def put (c : Cell) (symbol : String) (style : Style) : Cell :=
  { symbol, style := c.style.patch style }

/-- Draw a symbol behind the cell's. -/
def append (c : Cell) (symbol : String) (style : Style) : Cell :=
  { symbol := c.symbol ++ symbol, style := c.style.patch style }

def restyle (c : Cell) (style : Style) : Cell :=
  { c with style := c.style.patch style }

end Cell

/-- The cells of an area, row by row. -/
structure Canvas where
  area : Area
  cells : Array Cell
  size_cells : cells.size = area.width * area.height

namespace Canvas

def blank (area : Area) : Canvas where
  area := area
  cells := Array.replicate (area.width * area.height) {}
  size_cells := Array.size_replicate

/-- Where the cell in a column and row is kept. -/
def index (canvas : Canvas) (x y : Nat) : Nat :=
  (y - canvas.area.y) * canvas.area.width + (x - canvas.area.x)

def cell? (canvas : Canvas) (x y : Nat) : Option Cell :=
  if canvas.area.contains x y then canvas.cells[canvas.index x y]? else none

def modify (canvas : Canvas) (x y : Nat) (f : Cell → Cell) : Canvas :=
  if canvas.area.contains x y then
    { canvas with
      cells := canvas.cells.modify (canvas.index x y) f
      size_cells := by simp [canvas.size_cells] }
  else canvas

/-- Drawing never changes the size. -/
@[simp] theorem area_modify (canvas : Canvas) (x y : Nat) (f : Cell → Cell) :
    (canvas.modify x y f).area = canvas.area := by
  unfold modify
  split <;> rfl

/-- A cell of the canvas has its place in the array. -/
theorem index_lt {canvas : Canvas} {x y : Nat} (h : canvas.area.contains x y = true) :
    canvas.index x y < canvas.cells.size := by
  obtain ⟨hx, hx', hy, hy'⟩ := Area.contains_iff.1 h
  have hrow : y - canvas.area.y + 1 ≤ canvas.area.height := by omega
  calc
    canvas.index x y < (y - canvas.area.y + 1) * canvas.area.width := by
      rw [index, Nat.add_mul]
      omega
    _ ≤ canvas.area.height * canvas.area.width := Nat.mul_le_mul_right _ hrow
    _ = canvas.cells.size := by rw [canvas.size_cells, Nat.mul_comm]

theorem index_inj {canvas : Canvas} {x y x' y' : Nat} (h : canvas.area.contains x y = true)
    (h' : canvas.area.contains x' y' = true) (he : canvas.index x y = canvas.index x' y') :
    x = x' ∧ y = y' := by
  obtain ⟨hx, hxw, hy, -⟩ := Area.contains_iff.1 h
  obtain ⟨hx', hxw', hy', -⟩ := Area.contains_iff.1 h'
  have hcolumn : (x - canvas.area.x) = (x' - canvas.area.x) := by
    have := congrArg (· % canvas.area.width) he
    simpa [index, Nat.mul_add_mod_of_lt, Nat.mod_eq_of_lt, show x - canvas.area.x <
      canvas.area.width by omega, show x' - canvas.area.x < canvas.area.width by omega] using this
  have hrow : (y - canvas.area.y) = (y' - canvas.area.y) := by
    rw [index, index, hcolumn] at he
    exact Nat.eq_of_mul_eq_mul_right (by omega) (Nat.add_right_cancel he)
  omega

/-- A change of one cell is seen in that cell only. -/
theorem cell?_modify (canvas : Canvas) (x y x' y' : Nat) (f : Cell → Cell) :
    (canvas.modify x y f).cell? x' y' =
      if x = x' ∧ y = y' then (canvas.cell? x' y').map f else canvas.cell? x' y' := by
  unfold modify
  split
  · next h =>
    simp only [cell?, index, Array.getElem?_modify]
    split
    · next h' =>
      by_cases he : x = x' ∧ y = y'
      · obtain ⟨rfl, rfl⟩ := he
        simp
      · rw [if_neg he, if_neg fun hi => he (index_inj h h' (by rw [index, index, hi]))]
    · simp
  · next h =>
    split
    · next he =>
      obtain ⟨rfl, rfl⟩ := he
      simp [cell?, h]
    · rfl

def modifyArea (canvas : Canvas) (area : Area) (f : Cell → Cell) : Canvas :=
  (area.intersect canvas.area).positions.foldl (fun canvas (x, y) => canvas.modify x y f) canvas

def put (canvas : Canvas) (x y : Nat) (symbol : String) (style : Style) : Canvas :=
  canvas.modify x y (·.put symbol style)

def append (canvas : Canvas) (x y : Nat) (symbol : String) (style : Style) : Canvas :=
  canvas.modify x y (·.append symbol style)

def wipeRow (canvas : Canvas) (x y : Nat) : Nat → Canvas
  | 0 => canvas
  | count + 1 => wipeRow (canvas.modify x y fun _ => {}) (x + 1) y count

def wipe (canvas : Canvas) (area : Area) : Canvas :=
  canvas.modifyArea area fun _ => {}

def restyle (canvas : Canvas) (area : Area) (style : Style) : Canvas :=
  canvas.modifyArea area (·.restyle style)

def row (canvas : Canvas) (y : Nat) : List Cell :=
  (List.range canvas.area.width).filterMap fun column => canvas.cell? (canvas.area.x + column) y

def rows (canvas : Canvas) : List (List Cell) :=
  (List.range canvas.area.height).map fun row => canvas.row (canvas.area.y + row)

end Canvas

end TagFormula.Screen
