/-!
# Areas of a screen

Columns are counted to the right and rows downwards from the top left corner. Every coordinate is a
16-bit word, so an area ends at `limit` at the latest; the fields `right_le` and `bottom_le` keep
that.
-/

namespace TagFormula.Screen

/-- The greatest coordinate. -/
def limit : Nat := 65535

/-- A number as a 16-bit word. -/
def toWord (n : Nat) : Nat :=
  n % (limit + 1)

/-- A number as a coordinate: what is too great becomes the greatest one. -/
def saturate (n : Nat) : Nat :=
  min n limit

theorem saturate_le (n : Nat) : saturate n ≤ limit :=
  Nat.min_le_right ..

structure Area where
  x : Nat
  y : Nat
  width : Nat
  height : Nat
  right_le : x + width ≤ limit := by omega
  bottom_le : y + height ≤ limit := by omega
  deriving DecidableEq, Repr

namespace Area

def empty : Area where
  x := 0
  y := 0
  width := 0
  height := 0
  right_le := Nat.zero_le _
  bottom_le := Nat.zero_le _

/-- The area with a given corner and size, as far as there are coordinates. -/
def clipped (x y width height : Nat) : Area where
  x := saturate x
  y := saturate y
  width := min width (limit - saturate x)
  height := min height (limit - saturate y)
  right_le := by have := saturate_le x; omega
  bottom_le := by have := saturate_le y; omega

/-- The first column behind the area. -/
def right (a : Area) : Nat :=
  a.x + a.width

/-- The first row below the area. -/
def bottom (a : Area) : Nat :=
  a.y + a.height

/-- The area has no cells. -/
def isEmpty (a : Area) : Bool :=
  a.width = 0 || a.height = 0

/-- The cell in a given column and row belongs to the area. -/
def contains (a : Area) (x y : Nat) : Bool :=
  a.x ≤ x && x < a.right && a.y ≤ y && y < a.bottom

def intersect (a b : Area) : Area where
  x := max a.x b.x
  y := max a.y b.y
  width := min a.right b.right - max a.x b.x
  height := min a.bottom b.bottom - max a.y b.y
  right_le := by
    have := a.right_le
    have := b.right_le
    simp only [right]
    omega
  bottom_le := by
    have := a.bottom_le
    have := b.bottom_le
    simp only [bottom]
    omega

def inside (a : Area) : Area where
  x := min (a.x + 1) a.right
  y := min (a.y + 1) a.bottom
  width := a.width - 2
  height := a.height - 2
  right_le := by
    have := a.right_le
    simp only [right]
    omega
  bottom_le := by
    have := a.bottom_le
    simp only [bottom]
    omega

/-- The area without a column on its left and one on its right. Without room for both nothing is
left. -/
def withoutSides (a : Area) : Area :=
  if h : a.width < 2 then empty
  else
    { a with
      x := a.x + 1
      width := a.width - 2
      right_le := by have := a.right_le; omega }

def dropColumns (a : Area) (n : Nat) : Area :=
  { a with
    x := saturate (a.x + n)
    width := a.width - n
    right_le := by have := a.right_le; simp only [saturate]; omega }

def takeColumns (a : Area) (n : Nat) : Area :=
  { a with
    width := min n a.width
    right_le := by have := a.right_le; omega }

/-- The rows of the area from one on, as many as there are up to a number. -/
def rows (a : Area) (first count : Nat) : Area :=
  { a with
    y := min (a.y + first) a.bottom
    height := min count (a.height - first)
    bottom_le := by have := a.bottom_le; simp only [bottom]; omega }

/-- The positions of the area's cells, row by row. -/
def positions (a : Area) : List (Nat × Nat) :=
  (List.range a.height).flatMap fun row =>
    (List.range a.width).map fun column => (a.x + column, a.y + row)

/-- A cell is in an area if both of its coordinates are. -/
theorem contains_iff {a : Area} {x y : Nat} :
    a.contains x y = true ↔ a.x ≤ x ∧ x < a.x + a.width ∧ a.y ≤ y ∧ y < a.y + a.height := by
  simp only [contains, Bool.and_eq_true, decide_eq_true_eq, and_assoc]
  exact Iff.rfl

theorem contains_intersect {a b : Area} {x y : Nat} :
    (a.intersect b).contains x y = (a.contains x y && b.contains x y) := by
  rw [Bool.eq_iff_iff, Bool.and_eq_true, contains_iff, contains_iff, contains_iff]
  simp only [intersect, right, bottom]
  omega

/-- Going over an area meets each of its cells. -/
theorem mem_positions_iff {a : Area} {x y : Nat} :
    (x, y) ∈ a.positions ↔ a.contains x y = true := by
  rw [contains_iff]
  simp only [positions, List.mem_flatMap, List.mem_map, List.mem_range, Prod.mk.injEq]
  constructor
  · rintro ⟨row, hrow, column, hcolumn, rfl, rfl⟩
    omega
  · rintro ⟨hx, hx', hy, hy'⟩
    exact ⟨y - a.y, by omega, x - a.x, by omega, by omega, by omega⟩

end Area

end TagFormula.Screen
