import TagFormula.Screen.Area

/-!
# Areas within and beside each other

* **`Area.Within`**: an area lies inside another one.
* **`Area.Apart`**: two areas have no cell in common, because one lies below the other or beside it.
* What the cuts of an area have to do with it: rows, the inside, the last columns.
-/

namespace TagFormula.Screen

/-- What fits into a coordinate is kept. -/
theorem saturate_of_le {n : Nat} (h : n ≤ limit) : saturate n = n :=
  Nat.min_eq_left h

/-- A word stays a lower bound when a sum is cut at the greatest word. -/
theorem le_saturate {a n : Nat} (h : a ≤ n) (hlimit : a ≤ limit) : a ≤ saturate n :=
  Nat.le_min.2 ⟨h, hlimit⟩

namespace Area

variable {a b c : Area}

/-! ## Within -/

/-- All four sides of `a` lie inside `b`. -/
structure Within (a b : Area) : Prop where
  left : b.x ≤ a.x
  right : a.right ≤ b.right
  top : b.y ≤ a.y
  bottom : a.bottom ≤ b.bottom

theorem Within.trans (hab : a.Within b) (hbc : b.Within c) : a.Within c where
  left := Nat.le_trans hbc.left hab.left
  right := Nat.le_trans hab.right hbc.right
  top := Nat.le_trans hbc.top hab.top
  bottom := Nat.le_trans hab.bottom hbc.bottom

theorem Within.contains {x y : Nat} (hab : a.Within b) (h : a.contains x y = true) :
    b.contains x y = true := by
  obtain ⟨hleft, hright, htop, hbottom⟩ := hab
  rw [contains_iff] at h ⊢
  simp only [Area.right, Area.bottom] at hright hbottom
  omega

/-- Rows are cut at the bottom of the area they are taken from, so they never leave it. -/
theorem rows_within (a : Area) (first count : Nat) : (a.rows first count).Within a where
  left := Nat.le_refl _
  right := Nat.le_refl _
  top := by
    simp only [rows, Area.bottom]
    omega
  bottom := by
    simp only [rows, Area.bottom]
    omega

/-- The inside of a frame, also of an area that is too small for one. -/
theorem inside_within (a : Area) : a.inside.Within a where
  left := by
    simp only [inside, Area.right]
    omega
  right := by
    simp only [inside, Area.right]
    omega
  top := by
    simp only [inside, Area.bottom]
    omega
  bottom := by
    simp only [inside, Area.bottom]
    omega

/-! ## Cuts -/

theorem width_rows (a : Area) (first count : Nat) : (a.rows first count).width = a.width :=
  rfl

theorem height_rows (a : Area) (first count : Nat) :
    (a.rows first count).height = min count (a.height - first) :=
  rfl

theorem width_inside (a : Area) : a.inside.width = a.width - 2 :=
  rfl

theorem height_inside (a : Area) : a.inside.height = a.height - 2 :=
  rfl

theorem y_rows {first count : Nat} (h : first ≤ a.height) : (a.rows first count).y = a.y + first := by
  simp only [rows, Area.bottom]
  omega

/-- Where the rows are not cut, the next ones start right behind them. -/
theorem bottom_rows {first count : Nat} (h : first + count ≤ a.height) :
    (a.rows first count).bottom = a.y + first + count := by
  simp only [rows, Area.bottom]
  omega

/-- An area that does not reach past the last coordinate is not clipped. -/
theorem clipped_eq {x y width height : Nat} (hright : x + width ≤ limit)
    (hbottom : y + height ≤ limit) :
    clipped x y width height = ⟨x, y, width, height, hright, hbottom⟩ := by
  simp only [clipped, saturate, mk.injEq]
  omega

/-- The form in which most drawing asks for an area with cells. -/
theorem isEmpty_eq_false_iff : a.isEmpty = false ↔ 0 < a.width ∧ 0 < a.height := by
  simp only [isEmpty, Bool.or_eq_false_iff, decide_eq_false_iff_not, Nat.pos_iff_ne_zero, ne_eq]

/-- Where there are columns enough, those that are left begin behind the ones that are dropped. -/
theorem x_dropColumns {n : Nat} (h : n ≤ a.width) : (a.dropColumns n).x = a.x + n := by
  have := a.right_le
  exact saturate_of_le (by omega)

/-- Columns are dropped on the left, and the right end stays. -/
theorem right_dropColumns {n : Nat} (h : n ≤ a.width) : (a.dropColumns n).right = a.right := by
  rw [Area.right, x_dropColumns h, Area.right]
  show a.x + n + (a.width - n) = a.x + a.width
  omega

@[simp] theorem dropColumns_zero (a : Area) : a.dropColumns 0 = a := by
  have hx := x_dropColumns (Nat.zero_le a.width)
  cases a
  simp only [dropColumns, mk.injEq, and_true, true_and]
  exact ⟨hx, Nat.sub_zero _⟩

/-- The bound is needed: without it the left end would move past the right one. -/
theorem dropColumns_within {n : Nat} (h : n ≤ a.width) : (a.dropColumns n).Within a where
  left := by
    rw [x_dropColumns h]
    exact Nat.le_add_right ..
  right := Nat.le_of_eq (right_dropColumns h)
  top := Nat.le_refl _
  bottom := Nat.le_refl _

theorem takeColumns_within (a : Area) (n : Nat) : (a.takeColumns n).Within a where
  left := Nat.le_refl _
  right := Nat.add_le_add_left (Nat.min_le_right ..) _
  top := Nat.le_refl _
  bottom := Nat.le_refl _

/-- With a column for each side, what is left lies between them. -/
theorem withoutSides_of_le (h : 2 ≤ a.width) : a.withoutSides.Within a ∧
    a.withoutSides.width = a.width - 2 ∧ a.withoutSides.height = a.height := by
  rw [withoutSides, dif_neg (Nat.not_lt.2 h)]
  refine ⟨⟨Nat.le_succ _, ?_, Nat.le_refl _, Nat.le_refl _⟩, rfl, rfl⟩
  show a.x + 1 + (a.width - 2) ≤ a.x + a.width
  omega

/-! ## Apart -/

/-- No cell belongs to both areas. -/
def Apart (a b : Area) : Prop :=
  ∀ x y, a.contains x y = true → ¬ b.contains x y = true

theorem Apart.symm (h : a.Apart b) : b.Apart a :=
  fun x y hb ha => h x y ha hb

/-- Areas that are apart stay so when they shrink, so parts of different panes are apart as well. -/
theorem Apart.of_within {a' b' : Area} (h : a.Apart b) (ha : a'.Within a) (hb : b'.Within b) :
    a'.Apart b' :=
  fun x y hxa hxb => h x y (ha.contains hxa) (hb.contains hxb)

/-- The case of the panes, which stand one below the other. -/
theorem apart_of_below (h : a.bottom ≤ b.y) : a.Apart b := by
  intro x y ha hb
  rw [contains_iff] at ha hb
  simp only [Area.bottom] at h
  omega

/-- The case of two chips on one row. -/
theorem apart_of_beside (h : a.right ≤ b.x) : a.Apart b := by
  intro x y ha hb
  rw [contains_iff] at ha hb
  simp only [Area.right] at h
  omega

end Area

end TagFormula.Screen
