import TagFormula.Proofs.LabelColumns
import TagFormula.Proofs.WordArithmetic

/-!
# Chips at the last column

A chip goes into the next row if there is no room behind the cursor. Whether there is, is told by a sum
that is kept at the greatest coordinate. In an area that ends there, the sum is never greater than the
area's end, so no chip ever goes into the next row: the one that gets to the last coordinate is cut
there, and those behind it have no column at all.

* **`FlowsIn`**: what the layout promises of the slots of chips in an area.
* **`exists_cut_slot`**: in an area that ends at the last coordinate, chips that do not all fit on the
  first row leave a slot that is cut. Induction on the chips, with the columns that are left.
* **`layoutChips_flows_iff`**: that is the only way in which the promise is broken.
-/

namespace TagFormula

open Screen

/-- What the layout promises: no sum leaves the words, the slots are those of the first chips in order,
each is one row high, in the area and as wide as its chip or the area, with the delete control as its
last columns, and they are read row by row with a free column between two on one row. -/
structure FlowsIn (chips : List Chip) (area : Area) : Prop where
  within_words : Word.layoutChips chips area = .ok (layoutChips chips area)
  slots : ∀ (i : Nat) (slot : ChipSlot), (layoutChips chips area)[i]? = some slot →
    ∃ chip, chips[i]? = some chip ∧ slot.index = chip.index ∧ slot.area.height = 1 ∧
      slot.area.Within area ∧
      slot.area.width =
        min (Text.columns chip.tag.key.toList + 2 + chip.controlColumns) area.width ∧
      slot.delete = if chip.deletable && Chip.markColumns < slot.area.width then
        some (slot.area.dropColumns (slot.area.width - Chip.markColumns)) else none
  in_order : (layoutChips chips area).Pairwise ChipSlot.Before

section

variable {area : Area} {chips : List Chip}

/-- Whether chips have room, told by their columns on one row. -/
theorem hasRoom_iff : HasRoom area area.x chips ↔
    area.right < limit ∨ rowColumns area.width chips ≤ area.width + 1 := by
  simp only [HasRoom, Area.right]
  omega

/-! ## Where the layout keeps its promise -/

theorem flowsIn_of_hasRoom (hroom : HasRoom area area.x chips) : FlowsIn chips area where
  within_words := Word.layoutChips_eq hroom
  slots i slot h := by
    have hword : area.width ≤ limit := by
      have := area.right_le
      omega
    obtain ⟨chip, hchip, hholds⟩ := getElem?_layoutChips hroom h
    have hwidth := hholds.width_eq
    rw [chip.columns_eq hword] at hwidth
    exact ⟨chip, hchip, hholds.index_eq, hholds.height_eq, hholds.within, hwidth,
      hholds.delete_eq⟩
  in_order := pairwise_layoutChips hroom

/-- An area without cells gets no slots, and nothing is added up. -/
theorem layoutChips_of_isEmpty (h : area.isEmpty = true) (chips : List Chip) :
    layoutChips chips area = [] ∧ Word.layoutChips chips area = .ok [] := by
  rw [layoutChips, Word.layoutChips]
  by_cases hwidth : area.width = 0
  · rw [if_pos hwidth, if_pos hwidth]
    exact ⟨rfl, rfl⟩
  · have hheight : area.height = 0 := by
      simpa [Area.isEmpty, hwidth] using h
    have hbottom : area.bottom ≤ area.y := by
      rw [Area.bottom, hheight]
      exact Nat.le_refl _
    rw [if_neg hwidth, if_neg hwidth]
    cases chips with
    | nil => exact ⟨rfl, rfl⟩
    | cons chip rest =>
      -- the first chip stays at the cursor, which is below the area
      have hplace (width : Nat) : chipPlace area area.x area.y width = (area.x, area.y) :=
        if_neg fun hwraps => Nat.lt_irrefl _ hwraps.1
      rw [flowChips_cons, Word.flowChips]
      simp only [hplace, hbottom, if_true]
      exact ⟨trivial, rfl⟩

theorem flowsIn_of_isEmpty (h : area.isEmpty = true) : FlowsIn chips area := by
  obtain ⟨hslots, hword⟩ := layoutChips_of_isEmpty h chips
  refine ⟨by rw [hslots, hword], ?_, ?_⟩
  · intro i slot hslot
    rw [hslots] at hslot
    cases hslot
  · rw [hslots]
    exact List.Pairwise.nil

/-! ## Where it is broken -/

/-- In an area that ends at the last coordinate no chip goes into the next row. -/
theorem chipPlace_of_last (hlast : area.right = limit) (x y width : Nat) :
    chipPlace area x y width = (x, y) :=
  if_neg fun hwraps => Nat.not_lt.2 (saturate_le _) (hlast ▸ hwraps.2)

/-- A chip that is cut keeps a column. -/
theorem one_le_columns {width : Nat} (hwidth : 0 < width) (chip : Chip) :
    1 ≤ chip.columns width := by
  have htext := chip.one_le_columns_text
  simp only [Chip.columns, saturate, limit]
  omega

/-- Of chips for which there is no room on the row, one is cut at the last coordinate. -/
theorem exists_cut_slot (hlast : area.right = limit) (hwidth : 0 < area.width) {x y : Nat}
    (hx : x ≤ limit) (hrow : y < area.bottom)
    (h : limit + 1 < x + rowColumns area.width chips) :
    ∃ (i : Nat) (slot : ChipSlot) (chip : Chip), (flowChips area x y chips)[i]? = some slot ∧
      chips[i]? = some chip ∧ slot.area.width < chip.columns area.width := by
  induction chips generalizing x with
  | nil =>
    rw [rowColumns, List.foldr_nil] at h
    omega
  | cons chip rest ih =>
    rw [rowColumns_cons] at h
    rw [flowChips_cons]
    simp only [chipPlace_of_last hlast, if_neg (Nat.not_le.2 hrow)]
    by_cases hfits : x + chip.columns area.width ≤ limit
    · -- this chip has its columns; one of the others has not
      have hkept : saturate (x + chip.columns area.width) = x + chip.columns area.width :=
        saturate_of_le hfits
      have hbehind : limit + 1 <
          saturate (x + chip.columns area.width + 1) + rowColumns area.width rest := by
        cases rest with
        | nil =>
          rw [rowColumns, List.foldr_nil] at h
          omega
        | cons next more =>
          have hnext := one_le_columns hwidth next
          rw [rowColumns_cons] at h ⊢
          rcases Nat.le_total (x + chip.columns area.width + 1) limit with hle | hge
          · rw [saturate_of_le hle]
            omega
          · rw [saturate, Nat.min_eq_right hge]
            omega
      obtain ⟨i, slot, cut, hslot, hchip, hcut⟩ := ih (saturate_le _) hbehind
      refine ⟨i + 1, slot, cut, ?_, hchip, hcut⟩
      rw [hkept]
      exact hslot
    · -- this chip is the one that is cut
      refine ⟨0, _, chip, rfl, rfl, ?_⟩
      simp only [Area.clipped, saturate_of_le hx]
      omega

/-- An area at the last coordinate: there the cursor cannot pass the right end, and what should be on
another row is put there. -/
theorem not_flowsIn (hlast : area.right = limit) (hcells : area.isEmpty = false)
    (h : area.width + 1 < rowColumns area.width chips) : ¬ FlowsIn chips area := by
  intro hflows
  have hword : area.width ≤ limit := by
    have := area.right_le
    omega
  simp only [Area.isEmpty, Bool.or_eq_false_iff, decide_eq_false_iff_not] at hcells
  obtain ⟨hwidth, hheight⟩ := hcells
  have hx : area.x ≤ limit := by
    have := area.right_le
    omega
  obtain ⟨i, slot, chip, hslot, hchip, hcut⟩ := exists_cut_slot hlast (Nat.pos_of_ne_zero hwidth) hx
    (show area.y < area.bottom by rw [Area.bottom]; omega)
    (show limit + 1 < area.x + rowColumns area.width chips by
      rw [← hlast, Area.right]
      omega)
  have hlayout : layoutChips chips area = flowChips area area.x area.y chips := if_neg hwidth
  -- the slot that is cut should have all columns of its chip
  obtain ⟨chip', hchip', _, _, _, hcolumns, _⟩ := hflows.slots i slot (by rw [hlayout, hslot])
  rw [hchip] at hchip'
  cases hchip'
  rw [chip.columns_eq hword, ← hcolumns] at hcut
  exact Nat.lt_irrefl _ hcut

end

/-- **Chips flow as promised, except at the last column.** The layout keeps its promise in every area
that ends before the last coordinate or has no cells, and in one that ends there exactly if all of the
chips fit on one row with a free column between two. -/
theorem layoutChips_flows_iff (chips : List Chip) (area : Area) :
    FlowsIn chips area ↔ area.right < limit ∨ area.isEmpty = true ∨
      rowColumns area.width chips ≤ area.width + 1 := by
  constructor
  · intro hflows
    rcases Nat.lt_or_eq_of_le area.right_le with hright | hlast
    · exact Or.inl hright
    · right
      cases hcells : area.isEmpty with
      | true => exact Or.inl rfl
      | false => exact Or.inr (Nat.le_of_not_lt fun hrow => not_flowsIn hlast hcells hrow hflows)
  · rintro (hright | hempty | hrow)
    · exact flowsIn_of_hasRoom (Or.inl hright)
    · exact flowsIn_of_isEmpty hempty
    · exact flowsIn_of_hasRoom (hasRoom_iff.2 (Or.inr hrow))

/-- In the last five columns a chip that fills the first row leaves no column to the one behind it, and
the second row stays free. If that one can be deleted, the end of its delete control is no word. -/
theorem chip_behind_last_column_is_cut :
    let fee : Tag := ⟨"Fee", "31", by decide +kernel⟩
    let chips : List Chip := [⟨0, fee⟩, ⟨1, .ofOperand .add⟩]
    let area := Area.clipped 65530 0 5 2
    layoutChips chips area = [⟨0, .clipped 65530 0 5 1, some (.clipped 65533 0 2 1)⟩,
        ⟨1, .clipped 65535 0 0 1, none⟩] ∧
      ¬ FlowsIn chips area ∧
      Word.layoutChips [⟨0, fee⟩, ⟨1, fee⟩] area = .error .overflow := by
  intro fee chips area
  have hcolumns : ∀ i < 2, Chip.columns ⟨i, fee⟩ area.width = 5 := by decide +kernel
  have hdeletable : ∀ i < 2, Chip.deletable ⟨i, fee⟩ = true := by decide +kernel
  refine ⟨by decide +kernel, not_flowsIn rfl (by decide) (by decide +kernel), ?_⟩
  unfold Word.layoutChips
  -- both chips are five columns wide; the second one ends behind the greatest word
  simp only [Word.flowChips, Word.deleteArea, hcolumns, hdeletable, Nat.zero_lt_two, Nat.one_lt_two]
  rfl

end TagFormula
