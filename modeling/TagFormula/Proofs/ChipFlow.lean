import TagFormula.Proofs.AreaPlacement
import TagFormula.View.ChipLayout

/-!
# Where chips come to stand

The flow carries a cursor, the place behind the last slot. One chip either ends the flow or gets a
slot, and the cursor then stands behind that slot: `flowChips_cons_cases` says it once, and the rest
is induction on the chips.

* **`ChipSlot.Holds`**: a slot is in the area, as wide as its chip, with the delete control at its
  right end.
* **`ChipSlot.From`**, **`ChipSlot.Before`**: the order in which slots are read, row by row, with a
  free column between two on one row.
* **`HasRoom`**: the flow does not get to the last coordinate with chips left.
* **`getElem?_layoutChips`**, **`pairwise_layoutChips`**: with such room the slots are those of the
  first chips, in order.
-/

namespace TagFormula

open Screen

/-! ## Columns of a chip -/

/-- No sign goes on with a space. -/
theorem Text.extend?_space (part : SignEnd) (total : Nat) : part.extend? ' ' total = none := by
  cases part with
  | alef =>
    have hlam : inRanges lamRanges ' ' = false := by decide +kernel
    have hinvisible : isInvisible ' ' = false := by decide +kernel
    simp [SignEnd.extend?, hlam, hinvisible]
  | joinedTifinagh | boundTifinagh =>
    have htifinagh : inRanges tifinaghRanges ' ' = false := by decide +kernel
    simp [SignEnd.extend?, htifinagh]
  | _ => rfl

/-- A blank is one column, whatever follows it. -/
theorem Text.columnsBefore_space (next : Following) (total : Nat) :
    columnsBefore ' ' next total = (1 + total, .plain) := by
  have hemoji : inRanges emojiRanges ' ' = false := by decide +kernel
  have hdefault : inRanges emojiByDefaultRanges ' ' = false := by decide +kernel
  have hbase : inRanges skinToneBaseRanges ' ' = false := by decide +kernel
  have halone : (charColumns ' ' + total, Following.ofChar ' ') = (1 + total, .plain) := rfl
  cases next with
  | sign part =>
    rw [columnsBefore, extend?_space]
    exact halone
  | _ => simp [columnsBefore, hemoji, hdefault, hbase, halone, joiner]

theorem Text.one_le_columns_space (rest : List Char) : 1 ≤ columns (' ' :: rest) := by
  show 1 ≤ (columnsBefore ' ' (measure rest).2 (measure rest).1).1
  rw [columnsBefore_space]
  exact Nat.le_add_right 1 _

namespace Chip

/-- The text of a chip has a blank on both sides of its label. -/
theorem toList_text (chip : Chip) :
    chip.text.toList = ' ' :: (chip.tag.key.toList ++ [' ']) := by
  simp [text, toString]

/-- No chip is empty on the screen, so the cursor moves on with each. -/
theorem one_le_columns_text (chip : Chip) : 1 ≤ Text.columns chip.text.toList := by
  rw [toList_text]
  exact Text.one_le_columns_space _

/-- A label that is too long is cut at the width of the row. -/
theorem columns_le (chip : Chip) (width : Nat) : chip.columns width ≤ width :=
  Nat.min_le_right ..

/-- A chip that can be deleted is wider than its mark where there is room for that. -/
theorem markColumns_lt_columns {chip : Chip} {width : Nat} (hdeletable : chip.deletable = true)
    (hwidth : markColumns < width) : markColumns < chip.columns width := by
  have htext := chip.one_le_columns_text
  simp only [columns, controlColumns, hdeletable, if_true, saturate, limit, markColumns] at *
  omega

end Chip

/-! ## Slots -/

namespace ChipSlot

/-- The slot is one for the chip in an area. -/
structure Holds (slot : ChipSlot) (chip : Chip) (area : Area) : Prop where
  index_eq : slot.index = chip.index
  within : slot.area.Within area
  width_eq : slot.area.width = chip.columns area.width
  height_eq : slot.area.height = 1
  /-- The delete control is the last columns of the slot. -/
  delete_eq : slot.delete = if chip.deletable && Chip.markColumns < slot.area.width then
    some (slot.area.dropColumns (slot.area.width - Chip.markColumns)) else none

/-- The slot starts in a column and row or behind them. -/
def From (slot : ChipSlot) (x y : Nat) : Prop :=
  y < slot.area.y ∨ y = slot.area.y ∧ x ≤ slot.area.x

/-- One slot stands in a row above the other's, or left of it with a free column between them. -/
def Before (slot other : ChipSlot) : Prop :=
  slot.area.bottom ≤ other.area.y ∨ slot.area.y = other.area.y ∧ slot.area.right < other.area.x

theorem Before.apart {slot other : ChipSlot} (h : slot.Before other) :
    slot.area.Apart other.area := by
  rcases h with hbelow | ⟨_, hbeside⟩
  · exact Area.apart_of_below hbelow
  · exact Area.apart_of_beside (Nat.le_of_lt hbeside)

/-- The cursor stands one column behind the slot, and the next slot starts there or further on. -/
theorem Holds.before {slot other : ChipSlot} {chip : Chip} {area : Area} (h : slot.Holds chip area)
    (hother : other.From (slot.area.right + 1) slot.area.y) : slot.Before other := by
  rcases hother with hbelow | ⟨hrow, hbehind⟩
  · left
    rw [Area.bottom, h.height_eq]
    exact hbelow
  · exact Or.inr ⟨hrow, hbehind⟩

/-- The place behind a slot is not left of the area. -/
theorem Holds.left_le_right_succ {slot : ChipSlot} {chip : Chip} {area : Area}
    (h : slot.Holds chip area) : area.x ≤ slot.area.right + 1 := by
  have := h.within.left
  simp only [Area.right]
  omega

/-- The cursor never goes back. -/
theorem From.trans {slot other : ChipSlot} {x y : Nat} (hslot : slot.From x y)
    (hother : other.From (slot.area.right + 1) slot.area.y) : other.From x y := by
  simp only [From, Area.right] at *
  omega

end ChipSlot

/-- The delete control is the right end of the chip's own area, where there is room for it. -/
theorem Chip.deleteArea?_eq (chip : Chip) {x y width : Nat} (hright : x + width ≤ limit)
    (hbottom : y + 1 ≤ limit) :
    chip.deleteArea? x y width = if chip.deletable && markColumns < width then
      some ((Area.mk x y width 1 hright hbottom).dropColumns (width - markColumns)) else none := by
  unfold deleteArea?
  split
  · next h =>
    rw [Bool.and_eq_true, decide_eq_true_eq] at h
    obtain ⟨_, hwidth⟩ := h
    have hword : toWord (x + width - markColumns) = x + width - markColumns :=
      Nat.mod_eq_of_lt (by omega)
    rw [hword, Area.clipped_eq (by omega) hbottom]
    simp only [Area.dropColumns, saturate, Option.some.injEq, Area.mk.injEq]
    exact ⟨by omega, trivial, by omega, trivial⟩
  · rfl

/-! ## The flow -/

/-- The column and row in which a chip is put: at the cursor, or at the start of the next row if there
is no room behind it. -/
def chipPlace (area : Area) (x y width : Nat) : Nat × Nat :=
  if area.x < x ∧ area.right < saturate (x + width) then (area.x, saturate (y + 1)) else (x, y)

/-- One step of the flow: the place of the chip, and the cursor behind it. -/
theorem flowChips_cons (area : Area) (x y : Nat) (chip : Chip) (rest : List Chip) :
    flowChips area x y (chip :: rest) =
      let width := chip.columns area.width
      let place := chipPlace area x y width
      if area.bottom ≤ place.2 then []
      else
        ⟨chip.index, .clipped place.1 place.2 width 1, chip.deleteArea? place.1 place.2 width⟩ ::
          flowChips area (saturate (saturate (place.1 + width) + 1)) place.2 rest := by
  rw [flowChips]
  by_cases h : area.x < x ∧ area.right < saturate (x + chip.columns area.width)
  · simp [chipPlace, h]
  · simp [chipPlace, h]

/-! ## Room -/

/-- The columns that chips take on one row, with a free one behind each. -/
def rowColumns (width : Nat) (chips : List Chip) : Nat :=
  chips.foldr (fun chip columns => chip.columns width + 1 + columns) 0

/-- The flow does not get to the last coordinate with chips left: the area ends before it, or there
is room for all of them on the row. A cursor kept at the last coordinate would seem to leave room. -/
def HasRoom (area : Area) (x : Nat) (chips : List Chip) : Prop :=
  area.right < limit ∨ x + rowColumns area.width chips ≤ area.right + 1

section

variable {area : Area} {x y : Nat}

theorem rowColumns_cons (width : Nat) (chip : Chip) (rest : List Chip) :
    rowColumns width (chip :: rest) = chip.columns width + 1 + rowColumns width rest := rfl

/-- Chips that have room behind the cursor have it further to the left. -/
theorem HasRoom.of_le {x' : Nat} {chips : List Chip} (h : HasRoom area x chips) (hle : x' ≤ x) :
    HasRoom area x' chips := by
  unfold HasRoom at *
  omega

/-- The first of the chips ends on its row, unless the row ends before the last coordinate. -/
theorem HasRoom.fits {chip : Chip} {rest : List Chip} (h : HasRoom area x (chip :: rest)) :
    area.right < limit ∨ x + chip.columns area.width ≤ area.right := by
  rw [HasRoom, rowColumns_cons] at h
  omega

/-- A chip stays on the row of the cursor if it ends there. -/
theorem chipPlace_of_fits {width : Nat} (h : x + width ≤ area.right) :
    chipPlace area x y width = (x, y) := by
  refine if_neg fun hwraps => ?_
  have hright := hwraps.2
  simp only [saturate] at hright
  omega

/-- Behind a chip there is room for the others. -/
theorem HasRoom.behind {chip : Chip} {rest : List Chip} (h : HasRoom area x (chip :: rest))
    (y : Nat) :
    HasRoom area ((chipPlace area x y (chip.columns area.width)).1 +
      chip.columns area.width + 1) rest := by
  by_cases hlimit : area.right < limit
  · exact Or.inl hlimit
  · rw [chipPlace_of_fits (h.fits.resolve_left hlimit)]
    have hrow := h.resolve_left hlimit
    rw [rowColumns_cons] at hrow
    right
    dsimp only
    omega

/-- With room for the other chips the cursor need not be kept at the last coordinate. -/
theorem HasRoom.flowChips_cursor {right : Nat} {rest : List Chip}
    (h : HasRoom area (right + 1) rest) (hright : right ≤ area.right) (y : Nat) :
    flowChips area (saturate (saturate right + 1)) y rest = flowChips area (right + 1) y rest := by
  have hlimit : area.right ≤ limit := area.right_le
  cases rest with
  | nil => rfl
  | cons next more =>
    rw [HasRoom, rowColumns_cons] at h
    have hkept : saturate right = right := saturate_of_le (by omega)
    rw [hkept, saturate_of_le (by omega)]

/-- A chip that is not put below the area is put in it, at the cursor or behind. -/
theorem chipPlace_fits {width : Nat} (hroom : area.right < limit ∨ x + width ≤ area.right)
    (hx : area.x ≤ x) (hy : area.y ≤ y) (hwidth : width ≤ area.width)
    (hrow : (chipPlace area x y width).2 < area.bottom) :
    area.x ≤ (chipPlace area x y width).1 ∧
      (chipPlace area x y width).1 + width ≤ area.right ∧
      area.y ≤ (chipPlace area x y width).2 ∧
      (y < (chipPlace area x y width).2 ∨
        y = (chipPlace area x y width).2 ∧ x ≤ (chipPlace area x y width).1) := by
  have hbottom := area.bottom_le
  unfold chipPlace at *
  split at hrow
  · -- the next row begins at the left end, where the chip has room
    next hwraps =>
    rw [if_pos hwraps]
    simp only [Area.right, Area.bottom, saturate] at *
    omega
  · next hstays =>
    rw [if_neg hstays]
    simp only [Area.right, saturate] at *
    exact ⟨hx, by omega, hy, Or.inr ⟨trivial, Nat.le_refl x⟩⟩

/-- What becomes of one chip: the flow ends above it, or it gets a slot and the flow goes on behind
that, with room for the other chips. -/
theorem flowChips_cons_cases {chip : Chip} {rest : List Chip} (hroom : HasRoom area x (chip :: rest))
    (hx : area.x ≤ x) (hy : area.y ≤ y) :
    flowChips area x y (chip :: rest) = [] ∨
      ∃ slot : ChipSlot, flowChips area x y (chip :: rest) =
          slot :: flowChips area (slot.area.right + 1) slot.area.y rest ∧
        slot.Holds chip area ∧ slot.From x y ∧ HasRoom area (slot.area.right + 1) rest := by
  have hwidth := chip.columns_le area.width
  rw [flowChips_cons]
  dsimp only
  by_cases hbelow : area.bottom ≤ (chipPlace area x y (chip.columns area.width)).2
  · rw [if_pos hbelow]
    exact Or.inl rfl
  · right
    rw [if_neg hbelow]
    obtain ⟨hleft, hright, htop, hfrom⟩ :=
      chipPlace_fits hroom.fits hx hy hwidth (Nat.lt_of_not_le hbelow)
    have hbehind := hroom.behind y
    generalize chipPlace area x y (chip.columns area.width) = place at *
    -- the chip ends inside the area, so its corner and its right end are kept as they are
    have hlimit : place.1 + chip.columns area.width ≤ limit := by
      have hend : area.right ≤ limit := area.right_le
      omega
    have hrow : place.2 + 1 ≤ limit := by
      have := area.bottom_le
      simp only [Area.bottom] at hbelow
      omega
    refine ⟨⟨chip.index, ⟨place.1, place.2, chip.columns area.width, 1, hlimit, hrow⟩,
      chip.deleteArea? place.1 place.2 (chip.columns area.width)⟩, ?_, ?_, hfrom, hbehind⟩
    · rw [Area.clipped_eq hlimit hrow, hbehind.flowChips_cursor hright]
      rfl
    · refine ⟨rfl, ⟨hleft, hright, htop, ?_⟩, rfl, rfl, chip.deleteArea?_eq hlimit hrow⟩
      simp only [Area.bottom] at *
      omega

theorem from_of_mem_flowChips {chips : List Chip} (hroom : HasRoom area x chips) (hx : area.x ≤ x)
    (hy : area.y ≤ y) {slot : ChipSlot} (h : slot ∈ flowChips area x y chips) : slot.From x y := by
  induction chips generalizing x y with
  | nil => cases h
  | cons chip rest ih =>
    rcases flowChips_cons_cases hroom hx hy with hnil | ⟨first, hcons, hholds, hfrom, hbehind⟩
    · rw [hnil] at h
      cases h
    · rw [hcons, List.mem_cons] at h
      rcases h with rfl | hmem
      · exact hfrom
      · -- the rest of the flow starts behind the first slot
        exact hfrom.trans (ih hbehind hholds.left_le_right_succ hholds.within.top hmem)

/-- The slots stand in the order of reading. -/
theorem pairwise_flowChips {chips : List Chip} (hroom : HasRoom area x chips) (hx : area.x ≤ x)
    (hy : area.y ≤ y) : (flowChips area x y chips).Pairwise ChipSlot.Before := by
  induction chips generalizing x y with
  | nil => exact List.Pairwise.nil
  | cons chip rest ih =>
    rcases flowChips_cons_cases hroom hx hy with hnil | ⟨first, hcons, hholds, _, hbehind⟩
    · rw [hnil]
      exact List.Pairwise.nil
    · have hleft := hholds.left_le_right_succ
      rw [hcons, List.pairwise_cons]
      exact ⟨fun slot hslot => hholds.before
        (from_of_mem_flowChips hbehind hleft hholds.within.top hslot),
        ih hbehind hleft hholds.within.top⟩

/-- The slots are those of the first chips. -/
theorem getElem?_flowChips {chips : List Chip} (hroom : HasRoom area x chips) (hx : area.x ≤ x)
    (hy : area.y ≤ y) {i : Nat} {slot : ChipSlot}
    (h : (flowChips area x y chips)[i]? = some slot) :
    ∃ chip, chips[i]? = some chip ∧ slot.Holds chip area := by
  induction chips generalizing x y i with
  | nil => cases h
  | cons chip rest ih =>
    rcases flowChips_cons_cases hroom hx hy with hnil | ⟨first, hcons, hholds, _, hbehind⟩
    · rw [hnil] at h
      cases h
    · rw [hcons] at h
      cases i with
      | zero =>
        cases h
        exact ⟨chip, rfl, hholds⟩
      | succ i => exact ih hbehind hholds.left_le_right_succ hholds.within.top h

end

/-- The slots stand in the order of the chips, each behind those before it. -/
theorem pairwise_layoutChips {area : Area} {chips : List Chip} (hroom : HasRoom area area.x chips) :
    (layoutChips chips area).Pairwise ChipSlot.Before := by
  unfold layoutChips
  split
  · exact List.Pairwise.nil
  · exact pairwise_flowChips hroom (Nat.le_refl _) (Nat.le_refl _)

/-- The slot at a position holds the chip at that position. -/
theorem getElem?_layoutChips {area : Area} {chips : List Chip} (hroom : HasRoom area area.x chips)
    {i : Nat} {slot : ChipSlot} (h : (layoutChips chips area)[i]? = some slot) :
    ∃ chip, chips[i]? = some chip ∧ slot.Holds chip area := by
  unfold layoutChips at h
  split at h
  · cases h
  · exact getElem?_flowChips hroom (Nat.le_refl _) (Nat.le_refl _) h

end TagFormula
