import TagFormula.Proofs.WordArithmetic

/-!
# The rows that chips need

The height of the formula field is reckoned from a flow of its chips at the first coordinates, in a
virtual area of 255 rows. It is used for a field that stands anywhere, with a frame around the chips and
the row of the text below them. So the flow must not depend on where it starts, and the frame and the
row of the text must be allowed for exactly.

* **`chipPlaces`**, **`chipRows`**: the flow by itself, in rows of a width and without an end, and the
  rows that it takes.
* **`flowChips_eq_places`**: the flow in an area is that one, moved to the area's corner, as far as the
  area has rows. Induction on the chips, the cursor relative to the corner.
* **`requiredHeight_exact`**: the height asked for is the least one that shows all chips.
-/

namespace TagFormula

open Screen

/-! ## The flow by itself -/

/-- The column and row of a chip: those of the cursor, or the start of the next row if there is no room
behind the cursor. -/
def rowPlace (width x y columns : Nat) : Nat × Nat :=
  if 0 < x ∧ width < x + columns then (0, y + 1) else (x, y)

/-- The column and row of each chip in rows of a width, as many rows as it takes, from a cursor on. -/
def chipPlaces (width x y : Nat) : List Chip → List (Nat × Nat)
  | [] => []
  | chip :: rest =>
    let place := rowPlace width x y (chip.columns width)
    place :: chipPlaces width (place.1 + chip.columns width + 1) place.2 rest

/-- The rows that chips need: one more than the greatest row of a chip. -/
def chipRows (width : Nat) (chips : List Chip) : Nat :=
  (chipPlaces width 0 0 chips).foldr (fun place rows => max (place.2 + 1) rows) 0

section

variable {width x y : Nat} {chips : List Chip}

/-- A chip that is no wider than a row ends in its row. -/
theorem rowPlace_fits {columns : Nat} (hcolumns : columns ≤ width) :
    (rowPlace width x y columns).1 + columns ≤ width := by
  unfold rowPlace
  split <;> dsimp only <;> omega

theorem length_chipPlaces : (chipPlaces width x y chips).length = chips.length := by
  induction chips generalizing x y with
  | nil => rfl
  | cons chip rest ih => rw [chipPlaces, List.length_cons, List.length_cons, ih]

/-- No chip is put above the cursor. -/
theorem le_row_of_mem {place : Nat × Nat} (h : place ∈ chipPlaces width x y chips) :
    y ≤ place.2 := by
  induction chips generalizing x y with
  | nil => cases h
  | cons chip rest ih =>
    have hcursor : y ≤ (rowPlace width x y (chip.columns width)).2 := by
      unfold rowPlace
      split
      · exact Nat.le_succ y
      · exact Nat.le_refl y
    rw [chipPlaces, List.mem_cons] at h
    rcases h with rfl | hrest
    · exact hcursor
    · exact Nat.le_trans hcursor (ih hrest)

/-- Every chip starts in the columns of a row. -/
theorem column_le_of_mem {place : Nat × Nat} (h : place ∈ chipPlaces width x y chips) :
    place.1 ≤ width := by
  induction chips generalizing x y with
  | nil => cases h
  | cons chip rest ih =>
    rw [chipPlaces, List.mem_cons] at h
    rcases h with rfl | hrest
    · exact Nat.le_of_add_right_le (rowPlace_fits (chip.columns_le width))
    · exact ih hrest

/-- The rows never go back, so the last chip is on the last one. -/
theorem foldr_max_eq_getLast? :
    (chipPlaces width x y chips).foldr (fun place rows => max (place.2 + 1) rows) 0 =
      (chipPlaces width x y chips).getLast?.elim 0 (·.2 + 1) := by
  induction chips generalizing x y with
  | nil => rfl
  | cons chip rest ih =>
    rw [chipPlaces, List.foldr_cons, ih, List.getLast?_cons]
    cases hlast : (chipPlaces width ((rowPlace width x y (chip.columns width)).1 +
        chip.columns width + 1) (rowPlace width x y (chip.columns width)).2 rest).getLast? with
    | none => rfl
    | some last =>
      -- the chips behind this one are not above it
      have hrow := le_row_of_mem (List.mem_of_getLast? hlast)
      simp only [Option.elim_some, Option.getD_some]
      omega

/-- The last chip stands in the last row. -/
theorem chipRows_eq_getLast? :
    chipRows width chips = (chipPlaces width 0 0 chips).getLast?.elim 0 (·.2 + 1) :=
  foldr_max_eq_getLast?

/-- Each chip is on one of the rows that are counted. -/
theorem row_lt_chipRows {place : Nat × Nat} (h : place ∈ chipPlaces width 0 0 chips) :
    place.2 < chipRows width chips := by
  unfold chipRows
  generalize chipPlaces width 0 0 chips = places at h
  induction places with
  | nil => cases h
  | cons first rest ih =>
    rw [List.foldr_cons]
    rcases List.mem_cons.1 h with rfl | hrest
    · exact Nat.le_max_left ..
    · exact Nat.lt_of_lt_of_le (ih hrest) (Nat.le_max_right ..)

/-- The last row that is counted has a chip on it, so no fewer rows would do. -/
theorem exists_chipPlace_of_pos (h : 0 < chipRows width chips) :
    ∃ place ∈ chipPlaces width 0 0 chips, place.2 + 1 = chipRows width chips := by
  rw [chipRows_eq_getLast?] at h ⊢
  cases hlast : (chipPlaces width 0 0 chips).getLast? with
  | none =>
    rw [hlast] at h
    cases h
  | some place => exact ⟨place, List.mem_of_getLast? hlast, rfl⟩

end

/-! ## The flow in an area -/

/-- The slot of a chip that stands in a column and row counted from a corner. -/
def Chip.slotAt (left top width : Nat) (chip : Chip) (place : Nat × Nat) : ChipSlot :=
  ⟨chip.index, .clipped (left + place.1) (top + place.2) (chip.columns width) 1,
    chip.deleteArea? (left + place.1) (top + place.2) (chip.columns width)⟩

section

variable {area : Area} {x y : Nat}

/-- The flow in an area is the flow at the origin, moved by the corner of the area. -/
theorem chipPlace_eq_rowPlace (hroom : area.right < limit) (hrow : x = 0 ∨ y < area.height)
    (columns : Nat) :
    chipPlace area (area.x + x) (area.y + y) columns =
      (area.x + (rowPlace area.width x y columns).1,
        area.y + (rowPlace area.width x y columns).2) := by
  have hbottom := area.bottom_le
  unfold chipPlace rowPlace
  by_cases hwraps : 0 < x ∧ area.width < x + columns
  · -- the sum is cut, but the area ends before the cut
    have hsum : area.right < saturate (area.x + x + columns) := by
      refine Nat.lt_min.2 ⟨?_, hroom⟩
      rw [Area.right]
      omega
    rw [if_pos hwraps, if_pos ⟨by omega, hsum⟩, saturate_of_le (by omega)]
    rfl
  · -- what the cut sum passes, the sum passes too
    have hstays : ¬ (area.x < area.x + x ∧ area.right < saturate (area.x + x + columns)) := by
      rintro ⟨hx, hsum⟩
      have hsum' := (Nat.lt_min.1 hsum).1
      rw [Area.right] at hsum'
      omega
    rw [if_neg hwraps, if_neg hstays]

/-- The flow in an area is the flow by itself, moved to the area's corner, down to the last row of the
area. -/
theorem flowChips_eq_places (hroom : area.right < limit) (hrow : x = 0 ∨ y < area.height)
    (chips : List Chip) :
    flowChips area (area.x + x) (area.y + y) chips =
      ((chips.zip (chipPlaces area.width x y chips)).takeWhile (·.2.2 < area.height)).map
        fun p => p.1.slotAt area.x area.y area.width p.2 := by
  induction chips generalizing x y with
  | nil => rfl
  | cons chip rest ih =>
    have hfits := rowPlace_fits (x := x) (y := y) (chip.columns_le area.width)
    rw [flowChips_cons, chipPlaces, List.zip_cons_cons, List.takeWhile_cons]
    simp only [chipPlace_eq_rowPlace hroom hrow]
    generalize rowPlace area.width x y (chip.columns area.width) = place at *
    by_cases hinside : place.2 < area.height
    · -- the chip ends in its row, so the cursor behind it is kept as it is
      have hright : area.x + place.1 + chip.columns area.width ≤ area.right := by
        rw [Area.right]
        omega
      have hcursor : saturate (saturate (area.x + place.1 + chip.columns area.width) + 1) =
          area.x + (place.1 + chip.columns area.width + 1) := by
        have hkept : saturate (area.x + place.1 + chip.columns area.width) =
            area.x + place.1 + chip.columns area.width := saturate_of_le (by omega)
        rw [hkept, saturate_of_le (by omega)]
        omega
      have habove : ¬ area.bottom ≤ area.y + place.2 := by
        rw [Area.bottom]
        omega
      rw [if_neg habove, decide_eq_true hinside, if_pos rfl, List.map_cons, hcursor,
        ih (Or.inr hinside)]
      rfl
    · -- the first place below the area ends the flow and what is taken of the places
      have hbelow : area.bottom ≤ area.y + place.2 := by
        rw [Area.bottom]
        omega
      rw [if_pos hbelow, decide_eq_false hinside]
      rfl

/-- The slots are the places of the chips, up to the first row for which there is no room. -/
theorem layoutChips_eq_places (hroom : area.right < limit) (hwidth : 0 < area.width)
    (chips : List Chip) :
    layoutChips chips area =
      ((chips.zip (chipPlaces area.width 0 0 chips)).takeWhile (·.2.2 < area.height)).map
        fun p => p.1.slotAt area.x area.y area.width p.2 := by
  rw [layoutChips, if_neg (Nat.ne_of_gt hwidth)]
  exact flowChips_eq_places (y := 0) hroom (Or.inl rfl) chips

/-- With all the rows that they need, all chips are put in the area. -/
theorem layoutChips_eq_zip (hroom : area.right < limit) (hwidth : 0 < area.width)
    {chips : List Chip} (hrows : chipRows area.width chips ≤ area.height) :
    layoutChips chips area = (chips.zip (chipPlaces area.width 0 0 chips)).map
      fun p => p.1.slotAt area.x area.y area.width p.2 := by
  have hall : ∀ p ∈ chips.zip (chipPlaces area.width 0 0 chips),
      decide (p.2.2 < area.height) = true := fun p hp =>
    decide_eq_true (Nat.lt_of_lt_of_le (row_lt_chipRows (List.of_mem_zip hp).2) hrows)
  have htaken := @List.takeWhile_append_of_pos _ _ _ [] hall
  rw [List.append_nil, List.takeWhile_nil, List.append_nil] at htaken
  rw [layoutChips_eq_places hroom hwidth, htaken]

/-- With fewer rows some chip is left out. -/
theorem length_layoutChips_lt (hroom : area.right < limit) (hwidth : 0 < area.width)
    {chips : List Chip} (hrows : area.height < chipRows area.width chips) :
    (layoutChips chips area).length < chips.length := by
  have hzip : (chips.zip (chipPlaces area.width 0 0 chips)).length = chips.length := by
    rw [List.length_zip, length_chipPlaces, Nat.min_self]
  have htaken := List.takeWhile_prefix (l := chips.zip (chipPlaces area.width 0 0 chips))
    (fun p => decide (p.2.2 < area.height))
  rw [layoutChips_eq_places hroom hwidth, List.length_map]
  refine Nat.lt_of_le_of_ne (hzip ▸ htaken.length_le) fun hlength => ?_
  -- were all chips put in the area, then also the one in the last row
  obtain ⟨place, hplace, hlast⟩ := exists_chipPlace_of_pos (Nat.zero_lt_of_lt hrows)
  obtain ⟨i, hi, rfl⟩ := List.mem_iff_getElem.1 hplace
  have hchip : i < chips.length := length_chipPlaces (x := 0) ▸ hi
  have hmem : (chips[i], (chipPlaces area.width 0 0 chips)[i]) ∈
      chips.zip (chipPlaces area.width 0 0 chips) :=
    List.mem_iff_getElem.2 ⟨i, hzip.symm ▸ hchip, List.getElem_zip⟩
  rw [← htaken.eq_of_length (hlength.trans hzip.symm)] at hmem
  have hrow := List.all_eq_true.1 List.all_takeWhile _ hmem
  rw [decide_eq_true_eq] at hrow
  dsimp only at hrow
  omega

/-- The column and row in which a slot starts. -/
def ChipSlot.corner (slot : ChipSlot) : Nat × Nat :=
  (slot.area.x, slot.area.y)

/-- With rows enough no chip is left out. -/
theorem map_index_layoutChips (hroom : area.right < limit) (hwidth : 0 < area.width)
    {chips : List Chip} (hrows : chipRows area.width chips ≤ area.height) :
    (layoutChips chips area).map (·.index) = chips.map (·.index) := by
  rw [layoutChips_eq_zip hroom hwidth hrows, List.map_map]
  change (chips.zip (chipPlaces area.width 0 0 chips)).map ((·.index) ∘ Prod.fst) = _
  rw [← List.map_map, List.map_fst_zip (Nat.le_of_eq length_chipPlaces.symm)]

theorem map_corner_layoutChips (hroom : area.right < limit) (hwidth : 0 < area.width)
    {chips : List Chip} (hrows : chipRows area.width chips ≤ area.height) :
    (layoutChips chips area).map (·.corner) =
      (chipPlaces area.width 0 0 chips).map fun place => (area.x + place.1, area.y + place.2) := by
  have hright := area.right_le
  have hbottom := area.bottom_le
  -- no sum of a corner and a place is cut, as both are inside the area
  have hcorner : ∀ p ∈ chips.zip (chipPlaces area.width 0 0 chips),
      (p.1.slotAt area.x area.y area.width p.2).corner = (area.x + p.2.1, area.y + p.2.2) := by
    intro p hp
    have hplace := (List.of_mem_zip hp).2
    have hcolumn := column_le_of_mem hplace
    have hrow := row_lt_chipRows hplace
    simp only [ChipSlot.corner, Chip.slotAt, Area.clipped]
    rw [saturate_of_le (by omega), saturate_of_le (by omega)]
  have hsnd : (chips.zip (chipPlaces area.width 0 0 chips)).map Prod.snd =
      chipPlaces area.width 0 0 chips := List.map_snd_zip (Nat.le_of_eq length_chipPlaces)
  calc
    (layoutChips chips area).map (·.corner) =
        (chips.zip (chipPlaces area.width 0 0 chips)).map fun p =>
          (area.x + p.2.1, area.y + p.2.2) := by
      rw [layoutChips_eq_zip hroom hwidth hrows, List.map_map]
      exact List.map_congr_left hcorner
    _ = ((chips.zip (chipPlaces area.width 0 0 chips)).map Prod.snd).map fun place =>
          (area.x + place.1, area.y + place.2) := by
      rw [List.map_map]
      rfl
    _ = _ := by rw [hsnd]

end

/-! ## The height of the field -/

namespace FormulaField

/-- The frame takes a cell on each side of the chips, and the row of the text is below them. -/
theorem chipArea_sides {area : Area} (hwidth : 3 ≤ area.width) (hheight : 2 ≤ area.height) :
    (chipArea area).x = area.x + 1 ∧ (chipArea area).y = area.y + 1 ∧
      (chipArea area).width = area.width - 2 ∧ (chipArea area).height = area.height - 3 ∧
      (chipArea area).right < limit := by
  have := area.right_le
  refine ⟨?_, ?_, rfl, ?_, ?_⟩ <;>
    simp only [chipArea, Area.rows, Area.inside, Area.right, Area.bottom] <;> omega

/-- The virtual area in which the rows are counted starts at the first coordinates. -/
theorem countingArea_sides {width : Nat} (hwidth : width ≤ limit) :
    (countingArea width).x = 0 ∧ (countingArea width).y = 0 ∧
      (countingArea width).width = width - 2 ∧ (countingArea width).height = mostRows := by
  simp only [countingArea, Area.clipped, saturate, mostRows, limit] at *
  omega

/-- The height asked for counts the row of the last chip. -/
theorem requiredHeight_eq_getLast? (chips : List Chip) (width : Nat) :
    requiredHeight chips width =
      ((layoutChips chips (countingArea width)).map (·.corner)).getLast?.elim 0 (·.2 + 1) + 3 := by
  rw [requiredHeight, List.getLast?_map, Option.elim_map]
  rfl

/-- **The height asked for is exactly enough.** If chips need at most 255 rows between the sides of the
frame, a field of a width asks for these rows and three more: two of the frame and one for the text.
Wherever such a field stands, it shows every chip, in the row and column counted from its corner in
which the chip was counted; in a field with one row less, if there are rows at all, some chip is left
out. -/
theorem requiredHeight_exact (chips : List Chip) {width : Nat} (hwidth : 3 ≤ width)
    (hword : width ≤ limit) (hmost : chipRows (width - 2) chips ≤ 255) :
    let rows := chipRows (width - 2) chips
    let places := chipPlaces (width - 2) 0 0 chips
    requiredHeight chips width = rows + 3 ∧
      (layoutChips chips (countingArea width)).map (·.corner) = places ∧
      ∀ (x y : Nat) (hright : x + width ≤ limit) (hbottom : y + (rows + 3) ≤ limit),
        let slots := layoutChips chips (chipArea ⟨x, y, width, rows + 3, hright, hbottom⟩)
        slots.map (·.index) = chips.map (·.index) ∧
          slots.map (·.corner) = places.map (fun place => (x + 1 + place.1, y + 1 + place.2)) ∧
          (0 < rows → (layoutChips chips
            (chipArea ⟨x, y, width, rows + 2, hright, by omega⟩)).length < chips.length) := by
  intro rows places
  obtain ⟨hleft, htop, hcolumns, hheight⟩ := countingArea_sides hword
  -- the area in which the chips are counted stands at the origin, so its corners are the places
  have hcounted : (layoutChips chips (countingArea width)).map (·.corner) = places := by
    have hroom : (countingArea width).right < limit := by
      rw [Area.right]
      omega
    rw [map_corner_layoutChips hroom (by omega) (by rw [hcolumns, hheight]; exact hmost), hleft, htop,
      hcolumns]
    simp only [Nat.zero_add]
    exact List.map_id' places
  refine ⟨?_, hcounted, fun x y hright hbottom => ?_⟩
  · rw [requiredHeight_eq_getLast?, hcounted]
    exact congrArg (· + 3) chipRows_eq_getLast?.symm
  · intro slots
    obtain ⟨hx, hy, hinner, hrows, hroom⟩ :=
      @chipArea_sides ⟨x, y, width, rows + 3, hright, hbottom⟩ hwidth
        (Nat.le_add_left 2 (rows + 1))
    -- in a field of that height the area of the chips has the rows that were counted
    have henough : chipRows (chipArea ⟨x, y, width, rows + 3, hright, hbottom⟩).width chips ≤
        (chipArea ⟨x, y, width, rows + 3, hright, hbottom⟩).height := by
      rw [hinner, hrows]
      exact Nat.le_refl _
    have hcells : 0 < width - 2 := by omega
    have hfree := Nat.lt_of_lt_of_eq hcells hinner.symm
    refine ⟨map_index_layoutChips hroom hfree henough, ?_, fun hpos => ?_⟩
    · rw [map_corner_layoutChips hroom hfree henough, hx, hy, hinner]
    · -- one row less, and the chips of the last one have no slot
      obtain ⟨_, _, hinner', hrows', hroom'⟩ :=
        @chipArea_sides ⟨x, y, width, rows + 2, hright, by omega⟩ hwidth
          (Nat.le_add_left 2 rows)
      refine length_layoutChips_lt hroom' (Nat.lt_of_lt_of_eq hcells hinner'.symm) ?_
      rw [hinner', hrows']
      show rows + 2 - 3 < rows
      omega

/-- Three chips in a field of sixteen columns need two rows, so the field asks for five. -/
theorem requiredHeight_revenue_plus_costs :
    let chips : List Chip := [⟨0, ⟨"Revenue", "100.30", by decide +kernel⟩⟩, ⟨1, .ofOperand .add⟩,
      ⟨2, ⟨"Costs", "40.20", by decide +kernel⟩⟩]
    chipRows 14 chips = 2 ∧ requiredHeight chips 16 = 5 ∧
      (layoutChips chips (chipArea (.clipped 3 4 16 5))).map (·.corner) =
        [(4, 5), (4, 6), (8, 6)] ∧
      (layoutChips chips (chipArea (.clipped 3 4 16 4))).length < 3 := by
  intro chips
  have hrows : chipRows 14 chips = 2 := by decide +kernel
  have hplaces : chipPlaces 14 0 0 chips = [(0, 0), (0, 1), (4, 1)] := by decide +kernel
  have hfield {rows height : Nat} (h : rows = height) (hright : 3 + 16 ≤ limit)
      (hbottom : 4 + rows ≤ limit) :
      (⟨3, 4, 16, rows, hright, hbottom⟩ : Area) = .clipped 3 4 16 height := by
    subst h
    exact (Area.clipped_eq hright hbottom).symm
  obtain ⟨hheight, _, hplaced⟩ :=
    @requiredHeight_exact chips 16 (by decide) (by decide) (hrows ▸ (by decide : 2 ≤ 255))
  obtain ⟨_, hcorners, hless⟩ := hplaced 3 4 (by decide) (hrows ▸ (by decide : 4 + (2 + 3) ≤ limit))
  rw [hfield (congrArg (· + 3) hrows), hplaces] at hcorners
  rw [hfield (congrArg (· + 2) hrows)] at hless
  rw [hrows] at hheight
  exact ⟨hrows, hheight, hcorners, hless (hrows ▸ (by decide : 0 < 2))⟩

end FormulaField

end TagFormula
