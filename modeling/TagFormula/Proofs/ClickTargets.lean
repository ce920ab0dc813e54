import TagFormula.Proofs.ChipFlow
import TagFormula.Proofs.SessionRun

/-!
# What a click hits

A frame records regions, and a click looks for the first of them that has the cell. The crux is that
no cell has two: the panes lie below each other, the slots of chips beside or below each other, the
rows of the list below each other. So the first region is the only one.

* **`Regions.target?_of_mem`**: where regions are apart, the order of recording does not matter.
* **`Session.fieldHeight_bounds`** and the lemmas on panes: the cuts of a screen that is large enough.
* **`Session.Laid`**, **`Session.layoutRegions_laid`**: the regions are those of the frame's parts.
* **`Session.click_hits_what_is_shown`**: what a click does right after a frame.
-/

namespace TagFormula

open Screen

/-! ## Regions that are apart -/

namespace Regions

variable {regions : Regions} {x y : Nat}

/-- Where no two regions share a cell, the order in which they are searched does not matter. -/
theorem target?_of_mem (hapart : regions.Pairwise fun a b => a.1.Apart b.1)
    {region : Area × Target} (hmem : region ∈ regions) (hcell : region.1.contains x y = true) :
    regions.target? x y = some region.2 := by
  induction regions with
  | nil => cases hmem
  | cons first rest ih =>
    rw [List.pairwise_cons] at hapart
    rcases List.mem_cons.1 hmem with rfl | hrest
    · simp [target?, hcell]
    · -- the first region is another one, so the cell is not in it
      have hfirst : first.1.contains x y = false :=
        Bool.eq_false_iff.2 fun h => hapart.1 region hrest x y h hcell
      simp only [target?, List.find?_cons, hfirst]
      exact ih hapart.2 hrest

theorem target?_eq_none (h : ∀ region ∈ regions, ¬ region.1.contains x y = true) :
    regions.target? x y = none := by
  rw [target?, List.find?_eq_none.2 h]
  rfl

end Regions

namespace Session

/-! ## Panes -/

section

variable (s : Session) {area : Area}

/-- On such a screen the panes are laid out. -/
theorem isTooSmall_eq_false (hwidth : smallestWidth ≤ area.width)
    (hheight : smallestHeight ≤ area.height) : isTooSmall area = false := by
  simp only [isTooSmall, Bool.or_eq_false_iff, decide_eq_false_iff_not]
  omega

/-- The formula field leaves the list four rows and the other panes what they need. -/
theorem fieldHeight_bounds (hheight : smallestHeight ≤ area.height) :
    3 ≤ s.fieldHeight area ∧ s.fieldHeight area + 10 ≤ area.height := by
  simp only [fieldHeight, smallestHeight] at *
  omega

/-- The panes are cut from the screen, and none leaves it. -/
theorem field_within : (s.panes area).field.Within area :=
  Area.rows_within ..

theorem list_within : (s.panes area).list.Within area :=
  Area.rows_within ..

theorem result_within : (s.panes area).result.Within area :=
  Area.rows_within ..

/-- The panes stand one below the other, so no two of them share a cell. -/
theorem field_above_list (hheight : smallestHeight ≤ area.height) :
    (s.panes area).field.bottom ≤ (s.panes area).list.y := by
  obtain ⟨_, hfield⟩ := s.fieldHeight_bounds hheight
  simp only [panes, Panes.split]
  rw [Area.bottom_rows (by omega), Area.y_rows (by omega)]
  omega

theorem list_above_result (hheight : smallestHeight ≤ area.height) :
    (s.panes area).list.bottom ≤ (s.panes area).result.y := by
  obtain ⟨_, hfield⟩ := s.fieldHeight_bounds hheight
  simp only [panes, Panes.split, ResultPanel.height]
  rw [Area.bottom_rows (by omega), Area.y_rows (by omega)]
  omega

/-! ## The parts of a frame that can be clicked -/

/-- The slots of the chips. -/
def slots (area : Area) : List ChipSlot :=
  layoutChips s.editor.chips (FormulaField.chipArea (s.panes area).field)

theorem chipArea_within : (FormulaField.chipArea (s.panes area).field).Within (s.panes area).field :=
  (Area.rows_within ..).trans (Area.inside_within _)

/-- The frame around the chips keeps them away from the last coordinate. -/
theorem chipArea_right_lt (hwidth : smallestWidth ≤ area.width) :
    (FormulaField.chipArea (s.panes area).field).right < limit ∧
      Chip.markColumns < (FormulaField.chipArea (s.panes area).field).width := by
  have := area.right_le
  simp only [FormulaField.chipArea, panes, Panes.split, Area.rows, Area.inside, Area.right,
    smallestWidth, Chip.markColumns] at *
  omega

/-- The chip in a slot is that of the tag with the slot's number. -/
theorem holds_of_getElem?_slots (hwidth : smallestWidth ≤ area.width) {i : Nat} {slot : ChipSlot}
    (h : (s.slots area)[i]? = some slot) : ∃ tag, s.editor.tags[i]? = some tag ∧
      slot.Holds ⟨i, tag⟩ (FormulaField.chipArea (s.panes area).field) := by
  obtain ⟨chip, hchip, hholds⟩ := getElem?_layoutChips (.inl (s.chipArea_right_lt hwidth).1) h
  rw [Editor.chips, List.getElem?_mapIdx, Option.map_eq_some_iff] at hchip
  obtain ⟨tag, htag, rfl⟩ := hchip
  exact ⟨tag, htag, hholds⟩

end

end Session

/-- A chip that can be deleted and has room for it has its delete control at its right end. -/
theorem ChipSlot.Holds.delete_eq_some_iff {slot : ChipSlot} {chip : Chip} {area r : Area}
    (h : slot.Holds chip area) (hwidth : Chip.markColumns < area.width) :
    slot.delete = some r ↔ chip.tag.isOperandLabel = false ∧
      r = slot.area.dropColumns (slot.area.width - Chip.markColumns) := by
  have hdeletable : chip.deletable = true ↔ chip.tag.isOperandLabel = false := by
    simp [Chip.deletable]
  rw [h.delete_eq, ← hdeletable, h.width_eq]
  by_cases hchip : chip.deletable = true
  · simp [hchip, Chip.markColumns_lt_columns hchip hwidth, eq_comm]
  · simp [hchip]

/-- The delete control is a part of its chip. -/
theorem ChipSlot.Holds.delete_within {slot : ChipSlot} {chip : Chip} {area r : Area}
    (h : slot.Holds chip area) (hdelete : slot.delete = some r) : r.Within slot.area := by
  rw [h.delete_eq] at hdelete
  split at hdelete
  · cases hdelete
    exact Area.dropColumns_within (Nat.sub_le ..)
  · cases hdelete

/-- The entry on a row of the list, counted from the first one in view. -/
theorem SuggestionList.getElem?_placed {suggestions : List SuggestionView} {area row : Area} {k : Nat}
    {view : SuggestionView} :
    (placed suggestions area)[k]? = some (row, view) ↔ k < area.inside.height ∧
      suggestions[offset suggestions area.inside.height + k]? = some view ∧
      row = area.inside.rows k 1 := by
  simp only [placed, List.getElem?_mapIdx, List.getElem?_take, List.getElem?_drop,
    Option.map_eq_some_iff, Prod.mk.injEq]
  constructor
  · rintro ⟨view', hview, rfl, rfl⟩
    split at hview
    · next hk => exact ⟨hk, hview, rfl⟩
    · cases hview
  · rintro ⟨hk, hview, rfl⟩
    exact ⟨view, by rw [if_pos hk, hview], rfl, rfl⟩

theorem SuggestionList.within_of_mem_placed {suggestions : List SuggestionView} {area row : Area}
    {view : SuggestionView} (h : (row, view) ∈ placed suggestions area) : row.Within area := by
  obtain ⟨k, hk⟩ := List.mem_iff_getElem?.1 h
  rw [(getElem?_placed.1 hk).2.2]
  exact (Area.rows_within ..).trans (Area.inside_within _)

/-- Each row of the list lies below the ones before it. -/
theorem SuggestionList.pairwise_placed (suggestions : List SuggestionView) (area : Area) :
    (placed suggestions area).Pairwise fun a b => a.1.Apart b.1 := by
  rw [List.pairwise_iff_getElem]
  intro i j hi hj hij
  have hplaced {k : Nat} (hk : k < (placed suggestions area).length) :
      k < area.inside.height ∧ (placed suggestions area)[k].1 = area.inside.rows k 1 :=
    have h := getElem?_placed.1 (List.getElem?_eq_getElem hk)
    ⟨h.1, h.2.2⟩
  obtain ⟨hirow, hi'⟩ := hplaced hi
  obtain ⟨hjrow, hj'⟩ := hplaced hj
  rw [hi', hj']
  apply Area.apart_of_below
  rw [Area.bottom_rows (by omega), Area.y_rows (by omega)]
  omega

/-- The entries with a row are those in view, in their order. -/
theorem SuggestionList.map_snd_placed (suggestions : List SuggestionView) (area : Area) :
    (placed suggestions area).map (·.2) =
      (suggestions.drop (offset suggestions area.inside.height)).take area.inside.height := by
  apply List.ext_getElem?
  intro k
  simp only [placed, List.getElem?_map, List.getElem?_mapIdx, Option.map_map]
  exact Option.map_id' ..

/-- The first entry in view is at most as far as the highlighted one. -/
theorem SuggestionList.offset_le_length (suggestions : List SuggestionView) (height : Nat) :
    offset suggestions height ≤ suggestions.length := by
  unfold offset
  split
  · next i hi =>
    obtain ⟨hlt, _⟩ := List.findIdx?_eq_some_iff_getElem.1 hi
    split <;> omega
  · exact Nat.zero_le _

/-- The suggestions in view are consecutive ones. -/
theorem SuggestionList.map_index_placed (e : Editor) (area : Area) :
    ∃ first count, first + count ≤ e.suggestions.length ∧
      (placed e.suggestions area).map (·.2.index) = List.range' first count := by
  have hoffset := offset_le_length e.suggestions area.inside.height
  generalize hfirst : offset e.suggestions area.inside.height = first at hoffset
  have hindex : (placed e.suggestions area).map (·.2.index) =
      ((List.range e.suggestions.length).drop first).take area.inside.height := by
    rw [Editor.length_suggestions, ← Editor.map_index_suggestions, ← List.map_drop, ← List.map_take,
      ← hfirst, ← map_snd_placed, List.map_map]
    rfl
  refine ⟨first, min (first + area.inside.height) e.suggestions.length - first, by omega, ?_⟩
  rw [hindex, List.take_drop, List.take_range, List.range_eq_range', List.drop_range']
  simp

theorem SuggestionList.mem_of_mem_placed {suggestions : List SuggestionView} {area row : Area}
    {view : SuggestionView} (h : (row, view) ∈ placed suggestions area) : view ∈ suggestions := by
  obtain ⟨k, hk⟩ := List.mem_iff_getElem?.1 h
  exact List.mem_of_getElem? (getElem?_placed.1 hk).2.1

theorem ResultPanel.buttonArea_within (area : Area) : (buttonArea area).Within area :=
  (Area.dropColumns_within (Nat.sub_le ..)).trans
    ((Area.rows_within ..).trans (Area.inside_within _))

/-! ## The regions of a frame -/

/-- The suggestion that a click commits. -/
def Target.suggestion? : Target → Option Nat
  | .suggestion index => some index
  | _ => none

namespace Session

/-- What the regions of a frame have to do with its parts. -/
structure Laid (s : Session) (area : Area) (regions : Regions) : Prop where
  apart : regions.Pairwise fun a b => a.1.Apart b.1
  within : ∀ region ∈ regions, region.1.Within area
  /-- There is one button. -/
  calculate_once : regions.countP (·.2 = .calculate) = 1
  /-- A tag is deleted at the right end of its slot, unless its label is an operand. -/
  delete_iff : ∀ r i, (r, .delete i) ∈ regions ↔ ∃ slot tag, (s.slots area)[i]? = some slot ∧
    slot.index = i ∧ s.editor.tags[i]? = some tag ∧ tag.isOperandLabel = false ∧
    r = slot.area.dropColumns (slot.area.width - Chip.markColumns)
  /-- A suggestion is committed in its row. -/
  suggestion_iff : ∀ r j, (r, .suggestion j) ∈ regions ↔ ∃ view,
    (r, view) ∈ SuggestionList.placed s.editor.suggestions (s.panes area).list ∧
    s.editor.suggestions[j]? = some view
  suggestions_consecutive : ∃ first count, first + count ≤ s.editor.suggestions.length ∧
    regions.filterMap (·.2.suggestion?) = List.range' first count

section

variable (s : Session) {area : Area}

/-- The regions by the panes they are in. -/
theorem layoutRegions_eq (hwidth : smallestWidth ≤ area.width)
    (hheight : smallestHeight ≤ area.height) :
    s.layoutRegions area = deleteRegions (s.slots area) ++
      (SuggestionList.placed s.editor.suggestions (s.panes area).list).map
        (fun (row, view) => (row, .suggestion view.index)) ++
      [(ResultPanel.buttonArea (s.panes area).result, .calculate)] := by
  rw [layoutRegions, if_neg (by rw [isTooSmall_eq_false hwidth hheight]; decide)]
  simp only [SuggestionList.rows, List.map_map]
  rfl

/-- Each chip that can be deleted has a region for it. -/
theorem mem_deleteRegions {slots : List ChipSlot} {region : Area × Target} :
    region ∈ deleteRegions slots ↔ ∃ slot ∈ slots, ∃ r, slot.delete = some r ∧
      region = (r, .delete slot.index) := by
  simp only [deleteRegions, List.mem_filterMap, Option.map_eq_some_iff, eq_comm (a := region)]

/-- The delete regions are those of the tags that are no operands, each at the end of its own slot. -/
theorem delete_mem_deleteRegions_iff (hwidth : smallestWidth ≤ area.width) {r : Area} {i : Nat} :
    (r, .delete i) ∈ deleteRegions (s.slots area) ↔ ∃ slot tag, (s.slots area)[i]? = some slot ∧
      slot.index = i ∧ s.editor.tags[i]? = some tag ∧ tag.isOperandLabel = false ∧
      r = slot.area.dropColumns (slot.area.width - Chip.markColumns) := by
  obtain ⟨_, hmark⟩ := s.chipArea_right_lt hwidth
  rw [mem_deleteRegions]
  constructor
  · rintro ⟨slot, hslot, r, hdelete, heq⟩
    cases heq
    -- a slot has the index of its place in the list, so the index names the tag
    obtain ⟨i, hi⟩ := List.mem_iff_getElem?.1 hslot
    obtain ⟨tag, htag, hholds⟩ := s.holds_of_getElem?_slots hwidth hi
    obtain ⟨hlabel, hr⟩ := (hholds.delete_eq_some_iff hmark).1 hdelete
    have hindex : slot.index = i := hholds.index_eq
    exact ⟨slot, tag, by rw [hindex, hi], rfl, by rw [hindex, htag], hlabel, hr⟩
  · rintro ⟨slot, tag, hi, hindex, htag, hlabel, hr⟩
    obtain ⟨tag', htag', hholds⟩ := s.holds_of_getElem?_slots hwidth hi
    cases htag.symm.trans htag'
    exact ⟨slot, List.mem_of_getElem? hi, r, (hholds.delete_eq_some_iff hmark).2 ⟨hlabel, hr⟩,
      by rw [hindex]⟩

theorem within_of_mem_deleteRegions (hwidth : smallestWidth ≤ area.width)
    {region : Area × Target} (h : region ∈ deleteRegions (s.slots area)) :
    region.1.Within (s.panes area).field := by
  obtain ⟨slot, hslot, r, hdelete, rfl⟩ := mem_deleteRegions.1 h
  obtain ⟨i, hi⟩ := List.mem_iff_getElem?.1 hslot
  obtain ⟨_, _, hholds⟩ := s.holds_of_getElem?_slots hwidth hi
  exact (hholds.delete_within hdelete).trans (hholds.within.trans s.chipArea_within)

/-- The delete controls are apart because the slots are. -/
theorem pairwise_deleteRegions (hwidth : smallestWidth ≤ area.width) :
    (deleteRegions (s.slots area)).Pairwise fun a b => a.1.Apart b.1 := by
  rw [deleteRegions, List.pairwise_filterMap]
  have hbefore : (s.slots area).Pairwise ChipSlot.Before :=
    pairwise_layoutChips (.inl (s.chipArea_right_lt hwidth).1)
  refine List.Pairwise.imp_of_mem (fun {a b} ha hb hab => ?_) hbefore
  intro region hregion region' hregion'
  rw [Option.map_eq_some_iff] at hregion hregion'
  obtain ⟨r, hr, rfl⟩ := hregion
  obtain ⟨r', hr', rfl⟩ := hregion'
  obtain ⟨i, hi⟩ := List.mem_iff_getElem?.1 ha
  obtain ⟨j, hj⟩ := List.mem_iff_getElem?.1 hb
  obtain ⟨_, _, hholds⟩ := s.holds_of_getElem?_slots hwidth hi
  obtain ⟨_, _, hholds'⟩ := s.holds_of_getElem?_slots hwidth hj
  exact hab.apart.of_within (hholds.delete_within hr) (hholds'.delete_within hr')

/-- The regions come from three widgets; each is one of theirs. -/
theorem mem_layoutRegions_iff (hwidth : smallestWidth ≤ area.width)
    (hheight : smallestHeight ≤ area.height) {region : Area × Target} :
    region ∈ s.layoutRegions area ↔ region ∈ deleteRegions (s.slots area) ∨
      (∃ row view, (row, view) ∈
          SuggestionList.placed s.editor.suggestions (s.panes area).list ∧
        region = (row, .suggestion view.index)) ∨
      region = (ResultPanel.buttonArea (s.panes area).result, .calculate) := by
  rw [layoutRegions_eq s hwidth hheight]
  simp only [List.mem_append, List.mem_map, List.mem_singleton, Prod.exists, or_assoc,
    eq_comm (a := region)]

/-- Regions of one pane are apart by themselves, and the panes lie below each other. -/
theorem pairwise_layoutRegions (hwidth : smallestWidth ≤ area.width)
    (hheight : smallestHeight ≤ area.height) :
    (s.layoutRegions area).Pairwise fun a b => a.1.Apart b.1 := by
  have hlist {region : Area × Target} (h : region ∈
      (SuggestionList.placed s.editor.suggestions (s.panes area).list).map
        fun (row, view) => (row, Target.suggestion view.index)) :
      region.1.Within (s.panes area).list := by
    obtain ⟨⟨row, view⟩, hplaced, rfl⟩ := List.mem_map.1 h
    exact SuggestionList.within_of_mem_placed hplaced
  have hbutton := ResultPanel.buttonArea_within (s.panes area).result
  have hfieldList := Area.apart_of_below (s.field_above_list hheight)
  have hlistResult := Area.apart_of_below (s.list_above_result hheight)
  -- the list is between the other two
  have hfieldResult : (s.panes area).field.Apart (s.panes area).result := by
    apply Area.apart_of_below
    have := s.field_above_list hheight
    have := s.list_above_result hheight
    simp only [Area.bottom] at *
    omega
  -- inside a widget the regions are apart, and between two of them their panes are
  rw [layoutRegions_eq s hwidth hheight, List.pairwise_append, List.pairwise_append,
    List.pairwise_map]
  refine ⟨⟨s.pairwise_deleteRegions hwidth, SuggestionList.pairwise_placed _ _, ?_⟩,
    List.pairwise_singleton .., ?_⟩
  · intro region hregion row hrow
    exact hfieldList.of_within (s.within_of_mem_deleteRegions hwidth hregion) (hlist hrow)
  · intro region hregion button hmem
    rw [List.mem_singleton.1 hmem]
    rcases List.mem_append.1 hregion with hdelete | hrow
    · exact hfieldResult.of_within (s.within_of_mem_deleteRegions hwidth hdelete) hbutton
    · exact hlistResult.of_within (hlist hrow) hbutton

theorem within_of_mem_layoutRegions (hwidth : smallestWidth ≤ area.width)
    (hheight : smallestHeight ≤ area.height) {region : Area × Target}
    (h : region ∈ s.layoutRegions area) : region.1.Within area := by
  rcases (s.mem_layoutRegions_iff hwidth hheight).1 h with hdelete | ⟨row, view, hplaced, rfl⟩ | rfl
  · exact (s.within_of_mem_deleteRegions hwidth hdelete).trans s.field_within
  · exact (SuggestionList.within_of_mem_placed hplaced).trans s.list_within
  · exact (ResultPanel.buttonArea_within _).trans s.result_within

/-- What is laid out can be clicked as it is shown, on a screen that is large enough. -/
theorem layoutRegions_laid (hwidth : smallestWidth ≤ area.width)
    (hheight : smallestHeight ≤ area.height) : s.Laid area (s.layoutRegions area) where
  apart := s.pairwise_layoutRegions hwidth hheight
  within _ h := s.within_of_mem_layoutRegions hwidth hheight h
  calculate_once := by
    -- the other two widgets have no button
    have hdelete : (deleteRegions (s.slots area)).countP (·.2 = .calculate) = 0 := by
      rw [List.countP_eq_zero]
      intro region hregion
      obtain ⟨slot, _, r, _, rfl⟩ := mem_deleteRegions.1 hregion
      simp
    rw [layoutRegions_eq s hwidth hheight, List.countP_append, List.countP_append, hdelete,
      List.countP_map]
    simp [Function.comp_def]
  delete_iff r i := by
    rw [s.mem_layoutRegions_iff hwidth hheight, s.delete_mem_deleteRegions_iff hwidth]
    simp
  suggestion_iff r j := by
    rw [s.mem_layoutRegions_iff hwidth hheight]
    constructor
    · -- only the middle one of the three widgets has suggestions
      rintro (hdelete | ⟨row, view, hplaced, heq⟩ | heq)
      · obtain ⟨slot, _, r', _, heq⟩ := mem_deleteRegions.1 hdelete
        cases heq
      · cases heq
        obtain ⟨i, hi⟩ := List.mem_iff_getElem?.1 (SuggestionList.mem_of_mem_placed hplaced)
        obtain ⟨hindex, _⟩ := Editor.index_of_getElem?_suggestions hi
        exact ⟨view, hplaced, by rw [hindex, hi]⟩
      · cases heq
    · rintro ⟨view, hplaced, hview⟩
      obtain ⟨hindex, _⟩ := Editor.index_of_getElem?_suggestions hview
      exact Or.inr (Or.inl ⟨r, view, hplaced, by rw [hindex]⟩)
  suggestions_consecutive := by
    obtain ⟨first, count, hle, hindex⟩ :=
      SuggestionList.map_index_placed s.editor (s.panes area).list
    refine ⟨first, count, hle, ?_⟩
    have hdelete : (deleteRegions (s.slots area)).filterMap (·.2.suggestion?) = [] := by
      rw [List.filterMap_eq_nil_iff]
      intro region hregion
      obtain ⟨slot, _, r, _, rfl⟩ := mem_deleteRegions.1 hregion
      rfl
    rw [layoutRegions_eq s hwidth hheight, List.filterMap_append, List.filterMap_append, hdelete,
      List.filterMap_map, ← hindex]
    simp [Function.comp_def, Target.suggestion?]

end

/-! ## Clicks -/

/-- The left button is pressed in a cell. -/
def leftClick (x y : Nat) : Event :=
  .mouse (.press .left) x y

/-- In normal mode the left button clicks; in another mode it closes what is open. -/
theorem handle_leftClick {s : Session} (hmode : s.mode = .normal) (x y : Nat) :
    s.handle (leftClick x y) = s.click x y := by
  simp only [leftClick, handle, moveMouse, hmode]

section

variable {s : Session} {area : Area} {x y : Nat} {r : Area}

/-- The tag at that position goes, and the highlight with it. -/
theorem click_delete (hlaid : s.Laid area s.regions) {i : Nat} (hmem : (r, .delete i) ∈ s.regions)
    (hcell : r.contains x y = true) :
    ∃ tag, s.editor.tags[i]? = some tag ∧ tag.isOperandLabel = false ∧ s.click x y =
      ({ s with editor := { s.editor with tags := s.editor.tags.eraseIdx i, highlighted := none } },
        .goesOn) := by
  obtain ⟨_, tag, _, _, htag, hlabel, _⟩ := (hlaid.delete_iff r i).1 hmem
  refine ⟨tag, htag, hlabel, ?_⟩
  rw [click, Regions.target?_of_mem hlaid.apart hmem hcell]
  simp only [Editor.delete?, htag]
  rfl

/-- The entry that is shown on the row is added. -/
theorem click_suggestion (hlaid : s.Laid area s.regions) {j : Nat}
    (hmem : (r, .suggestion j) ∈ s.regions) (hcell : r.contains x y = true) :
    ∃ view, (r, view) ∈ SuggestionList.placed s.editor.suggestions (s.panes area).list ∧
      s.editor.suggestions[j]? = some view ∧
      s.click x y = ({ s with editor := s.editor.add view.tag }, .goesOn) := by
  obtain ⟨view, hplaced, hview⟩ := (hlaid.suggestion_iff r j).1 hmem
  obtain ⟨_, hshown⟩ := Editor.index_of_getElem?_suggestions hview
  refine ⟨view, hplaced, hview, ?_⟩
  rw [click, Regions.target?_of_mem hlaid.apart hmem hcell]
  simp only [Editor.select?, hshown]
  rfl

theorem click_calculate (hlaid : s.Laid area s.regions) (hmem : (r, .calculate) ∈ s.regions)
    (hcell : r.contains x y = true) : s.click x y = (s.calculate, .goesOn) := by
  rw [click, Regions.target?_of_mem hlaid.apart hmem hcell]

/-- A click that hits nothing is not handled. -/
theorem click_outside (h : ∀ region ∈ s.regions, ¬ region.1.contains x y = true) :
    s.click x y = (s, .ignored) := by
  rw [click, Regions.target?_eq_none h]

/-- Taking out an element that does not pass a filter leaves what passes it. -/
theorem filter_eraseIdx_of_not {α : Type} {p : α → Bool} {l : List α} {i : Nat} {a : α}
    (ha : l[i]? = some a) (hp : p a = false) : (l.eraseIdx i).filter p = l.filter p := by
  induction l generalizing i with
  | nil => cases ha
  | cons b rest ih =>
    cases i with
    | zero =>
      cases ha
      simp [hp]
    | succ i =>
      rw [List.getElem?_cons_succ] at ha
      rw [List.eraseIdx_cons_succ, List.filter_cons, List.filter_cons, ih ha]

/-- Wherever a click is, the tags with the label of an operand stay. -/
theorem click_keeps_operand_labels (hlaid : s.Laid area s.regions) (x y : Nat) :
    s.editor.tags.filter (·.isOperandLabel) <+:
      (s.click x y).1.editor.tags.filter (·.isOperandLabel) := by
  -- of the four outcomes two leave the tags as they are
  have hkept (h : (s.click x y).1.editor.tags = s.editor.tags) :
      s.editor.tags.filter (·.isOperandLabel) <+:
        (s.click x y).1.editor.tags.filter (·.isOperandLabel) :=
    ⟨[], by rw [List.append_nil, h]⟩
  by_cases h : ∃ region ∈ s.regions, region.1.contains x y = true
  · obtain ⟨⟨r, target⟩, hmem, hcell⟩ := h
    cases target with
    | delete i =>
      -- the tag that is deleted is no operand
      obtain ⟨tag, htag, hlabel, hclick⟩ := click_delete hlaid hmem hcell
      refine ⟨[], ?_⟩
      rw [List.append_nil, hclick]
      exact (filter_eraseIdx_of_not htag hlabel).symm
    | suggestion j =>
      obtain ⟨view, _, _, hclick⟩ := click_suggestion hlaid hmem hcell
      rw [hclick]
      simp only [Editor.add, List.filter_append]
      exact List.prefix_append ..
    | calculate =>
      have hclick := click_calculate hlaid hmem hcell
      apply hkept
      rcases calculate_eq_or s with ⟨_, _, hcalculate⟩ | ⟨_, _, hcalculate⟩
      · rw [hcalculate] at hclick
        exact congrArg (·.1.editor.tags) hclick
      · rw [hcalculate] at hclick
        exact congrArg (·.1.editor.tags) hclick
  · have hclick : s.click x y = (s, .ignored) :=
      click_outside fun region hregion hcell => h ⟨region, hregion, hcell⟩
    exact hkept (congrArg (·.1.editor.tags) hclick)

end

/-- **What is clicked is what is laid out.** The regions of a frame on a screen that is large enough
are the delete marks of the chips, the rows of the suggestions in view and the button, and no two have
a cell in common. So a left click in normal mode right after the frame deletes the tag whose mark is
in the cell, commits the suggestion listed in its row, calculates, or is ignored; and no tag with the
label of an operand is ever removed. On a smaller screen nothing can be clicked. -/
theorem click_hits_what_is_shown (s : Session) (area : Area) :
    (smallestWidth ≤ area.width → smallestHeight ≤ area.height →
      s.Laid area (s.draw area).1.regions ∧
      (s.mode = .normal → ∀ x y,
        let drawn := (s.draw area).1
        let clicked := drawn.handle (leftClick x y)
        (∀ r i, (r, .delete i) ∈ drawn.regions → r.contains x y = true →
          ∃ tag, s.editor.tags[i]? = some tag ∧ tag.isOperandLabel = false ∧
            clicked = ({ drawn with editor :=
              { s.editor with tags := s.editor.tags.eraseIdx i, highlighted := none } },
              .goesOn)) ∧
        (∀ r j, (r, .suggestion j) ∈ drawn.regions → r.contains x y = true →
          ∃ view, (r, view) ∈
              SuggestionList.placed s.editor.suggestions (s.panes area).list ∧
            s.editor.suggestions[j]? = some view ∧
            clicked = ({ drawn with editor := s.editor.add view.tag }, .goesOn)) ∧
        (∀ r, (r, .calculate) ∈ drawn.regions → r.contains x y = true →
          clicked = (drawn.calculate, .goesOn)) ∧
        ((∀ region ∈ drawn.regions, ¬ region.1.contains x y = true) →
          clicked = (drawn, .ignored)) ∧
        s.editor.tags.filter (·.isOperandLabel) <+:
          clicked.1.editor.tags.filter (·.isOperandLabel))) ∧
    (area.width < smallestWidth ∨ area.height < smallestHeight → (s.draw area).1.regions = []) := by
  refine ⟨fun hwidth hheight => ?_, fun hsmall => ?_⟩
  · have hlaid := s.layoutRegions_laid hwidth hheight
    refine ⟨hlaid, fun hmode x y => ?_⟩
    intro drawn clicked
    -- a frame changes nothing that the regions depend on
    have hdrawn : drawn.Laid area drawn.regions := drawn.layoutRegions_laid hwidth hheight
    have hclicked : clicked = drawn.click x y := handle_leftClick (s := drawn) hmode x y
    rw [hclicked]
    exact ⟨fun r i => click_delete hdrawn, fun r j => click_suggestion hdrawn,
      fun r => click_calculate hdrawn, click_outside, click_keeps_operand_labels hdrawn x y⟩
  · have htooSmall : isTooSmall area = true := by
      simp only [isTooSmall, Bool.or_eq_true, decide_eq_true_eq]
      exact hsmall
    show s.layoutRegions area = []
    rw [layoutRegions, if_pos htooSmall]

/-- On the smallest screen a click removes a tag, commits a suggestion or calculates, according to its
cell. -/
theorem click_on_smallest_screen :
    let fee : Tag := ⟨"Fee", "7", by decide +kernel⟩
    let s := opened ⟨⟨[fee]⟩, [fee, .ofOperand .add], "", none⟩ 0 []
    let drawn := (s.draw (.clipped 0 0 40 14)).1
    smallestWidth ≤ (Area.clipped 0 0 40 14).width ∧
      smallestHeight ≤ (Area.clipped 0 0 40 14).height ∧ s.mode = .normal ∧
      (drawn.handle (leftClick 7 1)).1.editor.tags = [.ofOperand .add] ∧
      (drawn.handle (leftClick 1 5)).1.editor.tags = [fee, .ofOperand .add, fee] ∧
      drawn.handle (leftClick 26 9) = (drawn.calculate, .goesOn) ∧
      drawn.handle (leftClick 0 0) = (drawn, .ignored) ∧
      (s.draw (.clipped 0 0 39 14)).1.regions = [] := by
  intro fee s drawn
  obtain ⟨hlarge, _⟩ := click_hits_what_is_shown s (.clipped 0 0 40 14)
  obtain ⟨_, hclick⟩ := hlarge (by decide) (by decide)
  obtain ⟨hdelete, _⟩ := hclick rfl 7 1
  obtain ⟨_, hsuggestion, _⟩ := hclick rfl 1 5
  obtain ⟨_, _, hcalculate, _⟩ := hclick rfl 26 9
  obtain ⟨_, _, _, houtside, _⟩ := hclick rfl 0 0
  obtain ⟨_, hsmall⟩ := click_hits_what_is_shown s (.clipped 0 0 39 14)
  have hmark : (Area.clipped 6 1 2 1, .delete 0) ∈ drawn.regions := by decide +kernel
  have hrow : (Area.clipped 1 5 38 1, .suggestion 0) ∈ drawn.regions := by decide +kernel
  have hbutton : (Area.clipped 26 9 13 1, .calculate) ∈ drawn.regions := by decide +kernel
  obtain ⟨_, _, _, hdeleted⟩ := hdelete _ 0 hmark (by decide)
  obtain ⟨view, _, hview, hcommitted⟩ := hsuggestion _ 0 hrow (by decide)
  have hfee : view = ⟨0, fee, false⟩ := by
    have hfirst : s.editor.suggestions[0]? = some ⟨0, fee, false⟩ := by decide +kernel
    exact Option.some.inj (hview.symm.trans hfirst)
  refine ⟨by decide, by decide, rfl, ?_, ?_, hcalculate _ hbutton (by decide),
    houtside (by decide +kernel), hsmall (by decide)⟩
  · rw [hdeleted]
    rfl
  · rw [hcommitted, hfee]
    rfl

end Session

end TagFormula
