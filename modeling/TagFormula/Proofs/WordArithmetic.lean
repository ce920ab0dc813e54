import TagFormula.Proofs.ClickTargets

/-!
# The layout of a frame stays within words

Coordinates are 16-bit words. Where a sum could be too great the layout keeps it at the greatest word,
or it takes the plain sum because it cannot be. The second is the subject here: the layout is computed
once more, with plain sums and differences that have no result where it is not a word, and with bounds
that have no number between them where they are in the wrong order. The crux is that the frame around
the chips, the rows and the button ends before the last coordinate, and that the widest notice is far
from it.

* **`Word.add`**, **`Word.sub`**, **`Word.clamp`**: arithmetic that can fail.
* **`Word.flowChips`**, **`Word.requiredHeight`**, **`Word.rows`**, **`Word.buttonArea`**,
  **`Word.notice`**: the parts of a frame by this arithmetic.
* **`Word.layoutChips_eq`** and its siblings: each part has a result, and it is that of the layout.
* **`Word.frame`**, **`Session.frame_within_words`**: so has the whole, on every screen.
-/

namespace TagFormula

open Screen

namespace Word

/-! ## Arithmetic that can fail -/

/-- Why there is no result. -/
inductive Fault where
  /-- A sum is greater than the greatest word. -/
  | overflow
  /-- A difference is less than zero. -/
  | underflow
  /-- The lower of two bounds is greater than the upper one. -/
  | crossedBounds
  deriving DecidableEq, Repr

/-- The plain sum. -/
def add (a b : Nat) : Except Fault Nat :=
  if a + b ≤ limit then .ok (a + b) else .error .overflow

/-- The plain difference. -/
def sub (a b : Nat) : Except Fault Nat :=
  if b ≤ a then .ok (a - b) else .error .underflow

/-- The number between two bounds that is nearest to a given one. -/
def clamp (n low high : Nat) : Except Fault Nat :=
  if low ≤ high then .ok (max low (min n high)) else .error .crossedBounds

section

variable {a b : Nat}

theorem add_eq (h : a + b ≤ limit) : add a b = .ok (a + b) :=
  if_pos h

theorem sub_eq (h : b ≤ a) : sub a b = .ok (a - b) :=
  if_pos h

/-- Where the bounds are in order, it does not matter which is applied first. -/
theorem clamp_eq {n low high : Nat} (h : low ≤ high) :
    clamp n low high = .ok (min (max n low) high) := by
  rw [clamp, if_pos h]
  congr 1
  omega

end

theorem bind_ok {α β : Type} (a : α) (f : α → Except Fault β) : (.ok a >>= f) = f a := rfl

theorem pure_eq {α : Type} (a : α) : (pure a : Except Fault α) = .ok a := rfl

/-! ## Chips -/

/-- The delete control of a chip. Its left end is the right end of the chip less the mark. -/
def deleteArea (chip : Chip) (x y width : Nat) : Except Fault (Option Area) :=
  if chip.deletable && Chip.markColumns < width then do
    let right ← add x width
    let left ← sub right Chip.markColumns
    pure (some (.clipped left y Chip.markColumns 1))
  else pure none

/-- The right end of a chip is a coordinate, so neither the sum nor the difference fails. -/
theorem deleteArea_eq (chip : Chip) {x y width : Nat} (hright : x + width ≤ limit) :
    deleteArea chip x y width = .ok (chip.deleteArea? x y width) := by
  unfold deleteArea Chip.deleteArea?
  split
  · next h =>
    rw [Bool.and_eq_true, decide_eq_true_eq] at h
    have hword : toWord (x + width - Chip.markColumns) = x + width - Chip.markColumns :=
      Nat.mod_eq_of_lt (by omega)
    rw [add_eq hright, bind_ok, sub_eq (by omega), bind_ok, hword]
    rfl
  · rfl

/-- The flow of chips. The cursor is kept at the greatest word. -/
def flowChips (area : Area) (x y : Nat) : List Chip → Except Fault (List ChipSlot)
  | [] => pure []
  | chip :: rest =>
    let width := chip.columns area.width
    let place := chipPlace area x y width
    if area.bottom ≤ place.2 then pure []
    else do
      let delete ← deleteArea chip place.1 place.2 width
      let slots ← flowChips area (saturate (saturate (place.1 + width) + 1)) place.2 rest
      pure (⟨chip.index, .clipped place.1 place.2 width 1, delete⟩ :: slots)

/-- Induction on the chips. The cursor behind a chip is where a sum of the flow could fail. -/
theorem flowChips_eq {area : Area} {x y : Nat} {chips : List Chip} (hroom : HasRoom area x chips)
    (hx : area.x ≤ x) (hy : area.y ≤ y) :
    flowChips area x y chips = .ok (TagFormula.flowChips area x y chips) := by
  induction chips generalizing x y with
  | nil => rfl
  | cons chip rest ih =>
    have hwidth := chip.columns_le area.width
    rw [flowChips, flowChips_cons]
    dsimp only
    by_cases hbelow : area.bottom ≤ (chipPlace area x y (chip.columns area.width)).2
    · rw [if_pos hbelow, if_pos hbelow, pure_eq]
    · -- a chip that gets a slot ends inside the area, and the cursor behind it is not left of the area
      obtain ⟨hleft, hright, htop, _⟩ :=
        chipPlace_fits hroom.fits hx hy hwidth (Nat.lt_of_not_le hbelow)
      have hbehind := hroom.behind y
      rw [if_neg hbelow, if_neg hbelow]
      generalize chipPlace area x y (chip.columns area.width) = place at *
      have hend := area.right_le
      have hx' : area.x ≤ limit := by omega
      have hcursor : area.x ≤ saturate (saturate (place.1 + chip.columns area.width) + 1) :=
        le_saturate (Nat.le_succ_of_le (le_saturate (by omega) hx')) hx'
      have hkept : saturate (saturate (place.1 + chip.columns area.width) + 1) ≤
          place.1 + chip.columns area.width + 1 :=
        Nat.le_trans (Nat.min_le_left ..) (Nat.succ_le_succ (Nat.min_le_left ..))
      rw [deleteArea_eq chip (Nat.le_trans hright hend), bind_ok,
        ih (hbehind.of_le hkept) hcursor htop, bind_ok, pure_eq]

/-- The flow, in an area with columns. -/
def layoutChips (chips : List Chip) (area : Area) : Except Fault (List ChipSlot) :=
  if area.width = 0 then pure [] else flowChips area area.x area.y chips

theorem layoutChips_eq {area : Area} {chips : List Chip} (hroom : HasRoom area area.x chips) :
    layoutChips chips area = .ok (TagFormula.layoutChips chips area) := by
  unfold layoutChips TagFormula.layoutChips
  split
  · rfl
  · exact flowChips_eq hroom (Nat.le_refl _) (Nat.le_refl _)

/-- The height that the formula field asks for: the rows of its chips, the row of the text and two of
the frame. -/
def requiredHeight (chips : List Chip) (width : Nat) : Except Fault Nat := do
  let slots ← layoutChips chips (FormulaField.countingArea width)
  let rows ← slots.getLast?.elim (pure 0) fun slot => add slot.area.y 1
  add rows 3

/-- No slot is below the rows in which chips are counted. -/
theorem y_lt_of_mem_layoutChips {area : Area} (hroom : area.right < limit) {chips : List Chip}
    {slot : ChipSlot} (h : slot ∈ TagFormula.layoutChips chips area) : slot.area.y < area.bottom := by
  obtain ⟨i, hi⟩ := List.mem_iff_getElem?.1 h
  obtain ⟨_, _, hholds⟩ := getElem?_layoutChips (.inl hroom) hi
  have hbottom := hholds.within.bottom
  rw [Area.bottom, hholds.height_eq] at hbottom
  exact hbottom

/-- The rows that are counted are few, so that the frame can be added. -/
theorem requiredHeight_eq (chips : List Chip) {width : Nat} (hwidth : width ≤ limit) :
    requiredHeight chips width = .ok (FormulaField.requiredHeight chips width) := by
  have hroom : (FormulaField.countingArea width).right < limit := by
    simp only [FormulaField.countingArea, Area.clipped, Area.right, saturate, limit] at *
    omega
  have hbottom : (FormulaField.countingArea width).bottom ≤ FormulaField.mostRows := by
    simp only [FormulaField.countingArea, Area.clipped, Area.bottom, saturate]
    omega
  rw [requiredHeight, layoutChips_eq (.inl hroom), bind_ok, FormulaField.requiredHeight]
  cases hlast : (TagFormula.layoutChips chips (FormulaField.countingArea width)).getLast? with
  | none => rfl
  | some slot =>
    have hrow := y_lt_of_mem_layoutChips hroom (List.mem_of_getLast? hlast)
    simp only [FormulaField.mostRows] at hbottom
    rw [Option.elim_some, Option.elim_some, add_eq (by simp only [limit]; omega), bind_ok,
      add_eq (by simp only [limit]; omega)]

/-- The height of the formula field. -/
def fieldHeight (s : Session) (area : Area) : Except Fault Nat := do
  let height ← requiredHeight s.editor.chips area.width
  clamp height 3 (area.height / 3)

theorem fieldHeight_eq (s : Session) {area : Area} (hheight : smallestHeight ≤ area.height) :
    fieldHeight s area = .ok (s.fieldHeight area) := by
  have hwidth : area.width ≤ limit := by
    have := area.right_le
    omega
  have hbounds : 3 ≤ area.height / 3 := by
    simp only [smallestHeight] at hheight
    omega
  rw [fieldHeight, requiredHeight_eq _ hwidth, bind_ok, clamp_eq hbounds]
  rfl

/-! ## Suggestions -/

/-- The first suggestion in view. Positions in a list are not coordinates, and there is no greatest
one. -/
def offset (suggestions : List SuggestionView) (height : Nat) : Except Fault Nat :=
  match suggestions.findIdx? (·.highlighted) with
  | some i => if 0 < height && height ≤ i then sub (i + 1) height else pure 0
  | none => pure 0

/-- The highlighted entry is at least as far as the list is high, so the difference does not fail. -/
theorem offset_eq (suggestions : List SuggestionView) (height : Nat) :
    offset suggestions height = .ok (SuggestionList.offset suggestions height) := by
  unfold offset SuggestionList.offset
  cases suggestions.findIdx? (·.highlighted) with
  | none => rfl
  | some i =>
    dsimp only
    split
    · next h =>
      rw [Bool.and_eq_true, decide_eq_true_eq, decide_eq_true_eq] at h
      exact sub_eq (by omega)
    · rfl

/-- Items with the rows that are counted from one on. With each item the count goes on, so the row
behind it has to be a word as well. -/
def countRows {α : Type} (y : Nat) : List α → Except Fault (List (Nat × α))
  | [] => pure []
  | a :: rest => do
    let next ← add y 1
    let more ← countRows next rest
    pure ((y, a) :: more)

/-- The rows of all items, and the one behind them, are words. -/
theorem countRows_eq {α : Type} {y : Nat} {items : List α} (h : y + items.length ≤ limit) :
    countRows y items = .ok (items.mapIdx fun i a => (y + i, a)) := by
  induction items generalizing y with
  | nil => rfl
  | cons a rest ih =>
    rw [List.length_cons] at h
    rw [countRows, add_eq (by omega), bind_ok, ih (by omega), bind_ok, List.mapIdx_cons]
    simp only [Nat.add_comm, Nat.add_left_comm]
    rfl

/-- The rows of the list, counted from the first. -/
def rows (suggestions : List SuggestionView) (area : Area) : Except Fault (List (Area × Nat)) := do
  let inside := area.inside
  let first ← offset suggestions inside.height
  let counted ← countRows inside.y ((suggestions.drop first).take inside.height)
  pure (counted.map fun (y, suggestion) => (.clipped inside.x y inside.width 1, suggestion.index))

theorem rows_eq (suggestions : List SuggestionView) (area : Area) :
    rows suggestions area = .ok (SuggestionList.rows suggestions area) := by
  have hright := area.inside.right_le
  have hbottom := area.inside.bottom_le
  -- the entries in view are no more than the rows of the inside
  have hcount : area.inside.y + ((suggestions.drop (SuggestionList.offset suggestions
      area.inside.height)).take area.inside.height).length ≤ limit := by
    rw [List.length_take]
    omega
  simp only [rows, offset_eq, bind_ok, countRows_eq hcount, pure_eq]
  congr 1
  apply List.ext_getElem
  · simp [SuggestionList.rows, SuggestionList.placed]
  · intro i hi hi'
    have hrow : i < area.inside.height := by
      rw [List.length_map, List.length_mapIdx, List.length_take] at hi
      exact (Nat.lt_min.1 hi).1
    -- one row of the inside, by its corner or by its place among the rows
    have harea : Area.clipped area.inside.x (area.inside.y + i) area.inside.width 1 =
        area.inside.rows i 1 := by
      rw [Area.clipped_eq hright (by omega)]
      simp only [Area.rows, Area.bottom, Area.mk.injEq, true_and]
      omega
    simp only [SuggestionList.rows, SuggestionList.placed, List.getElem_map, List.getElem_mapIdx,
      harea]

/-! ## The button and the notice -/

/-- The button, at the right end of its row. -/
def buttonArea (area : Area) : Except Fault Area := do
  let inside := area.inside
  let width := min ResultPanel.buttonText.length inside.width
  let right ← add inside.x inside.width
  let left ← sub right width
  pure (.clipped left inside.y width (min inside.height 1))

/-- The button is no wider than the row, so it does not start before it. -/
theorem buttonArea_eq (area : Area) : buttonArea area = .ok (ResultPanel.buttonArea area) := by
  have hright := area.inside.right_le
  have hbottom := area.inside.bottom_le
  rw [buttonArea, add_eq hright, bind_ok, sub_eq (by omega), bind_ok, pure_eq, ResultPanel.buttonArea,
    Area.clipped_eq (by omega) (by omega)]
  congr 1
  simp only [Area.dropColumns, Area.rows, Area.bottom, Area.mk.injEq]
  rw [saturate_of_le (by omega)]
  omega

/-- The rows kept for a text: as many as its characters fill, and a begun one. -/
def textRows (text : String) (width : Nat) : Except Fault Nat := do
  let columns := Notice.textColumns width
  let characters := Notice.wantedWidth text - 4
  let filled := characters / columns
  let begun ← if characters % columns = 0 then pure filled else add filled 1
  pure (max begun 1)

/-- The rows kept for the text of a notice, and the area of the whole. -/
def notice (text : String) (area : Area) : Except Fault (Nat × Area) := do
  let width := Notice.width text area.width
  let rows ← textRows text width
  let height ← add rows 6
  let left ← add area.x ((area.width - width) / 2)
  let top ← add area.y ((area.height - height) / 2)
  pure (rows, .clipped left top (min width area.width) (min height area.height))

/-- A quotient that is rounded up, told by the remainder. -/
theorem add_sub_one_div {n d : Nat} (hd : 0 < d) :
    (n + d - 1) / d = if n % d = 0 then n / d else n / d + 1 := by
  have hdivision := Nat.div_add_mod n d
  have hlt := Nat.mod_lt n hd
  split
  · next hzero =>
    apply Nat.div_eq_of_lt_le
    · rw [Nat.mul_comm]
      omega
    · rw [Nat.add_mul, Nat.mul_comm]
      omega
  · next hrest =>
    apply Nat.div_eq_of_lt_le
    · rw [Nat.add_mul, Nat.mul_comm]
      omega
    · rw [Nat.add_mul, Nat.add_mul, Nat.mul_comm]
      omega

/-- The columns for the text of a notice on a screen that is large enough. -/
theorem textColumns_bounds (text : String) {width : Nat} (hwidth : smallestWidth ≤ width) :
    26 ≤ Notice.textColumns (Notice.width text width) := by
  simp only [Notice.textColumns, Notice.width, smallestWidth] at *
  omega

/-- The columns of a notice are not few, so its rows are not many. -/
theorem textRows_eq (text : String) {width : Nat} (hwidth : smallestWidth ≤ width) :
    textRows text (Notice.width text width) =
        .ok (Notice.textRows text (Notice.width text width)) ∧
      Notice.textRows text (Notice.width text width) + 6 ≤ limit := by
  have hcolumns := textColumns_bounds text hwidth
  have hwanted : Notice.wantedWidth text ≤ limit := saturate_le _
  have hfilled : (Notice.wantedWidth text - 4) / Notice.textColumns (Notice.width text width) ≤
      (Notice.wantedWidth text - 4) / 26 := Nat.div_le_div_left hcolumns (by decide)
  rw [textRows, Notice.textRows]
  dsimp only
  rw [add_sub_one_div (by omega)]
  simp only [limit] at *
  split
  · rw [pure_eq, bind_ok, pure_eq]
    exact ⟨rfl, by omega⟩
  · rw [add_eq (by simp only [limit]; omega), bind_ok, pure_eq]
    exact ⟨rfl, by omega⟩

/-- The notice is put into the middle of the screen, and is no larger than it. -/
theorem notice_eq (text : String) {area : Area} (hwidth : smallestWidth ≤ area.width) :
    notice text area = .ok (Notice.textRows text (Notice.width text area.width),
      Notice.noticeArea text area) := by
  obtain ⟨hrows, hheight⟩ := textRows_eq text hwidth
  have hright := area.right_le
  have hbottom := area.bottom_le
  have hword : Notice.height text (Notice.width text area.width) =
      Notice.textRows text (Notice.width text area.width) + 6 := by
    rw [Notice.height, toWord, Nat.mod_eq_of_lt (by omega)]
  rw [notice, hrows, bind_ok, add_eq hheight, bind_ok, add_eq (by omega), bind_ok,
    add_eq (by omega), bind_ok, pure_eq, Notice.noticeArea, hword,
    Area.clipped_eq (by omega) (by omega)]
  congr 2
  simp only [Notice.centered, Area.dropColumns, Area.takeColumns, Area.rows, Area.bottom,
    Area.mk.injEq]
  rw [saturate_of_le (by omega)]
  omega

end Word

/-! ## The whole frame -/

namespace Session

/-- The text of the notice that stands above the frame. -/
def shownNotice? (s : Session) : Option String :=
  if s.mode = .notice then s.notice else none

/-- Where that notice stands: the rows kept for its text, and the area of the whole. -/
def noticePlace? (s : Session) (area : Area) : Option (Nat × Area) :=
  if isTooSmall area then none
  else s.shownNotice?.map fun text =>
    (Notice.textRows text (Notice.width text area.width), Notice.noticeArea text area)

/-- What stands above a frame: that notice, or the help. -/
theorem drawOverlay_eq (s : Session) (canvas : Canvas) (area : Area) :
    s.drawOverlay canvas area = s.shownNotice?.elim
      (if s.mode = .help then Help.draw canvas area else canvas)
      (Notice.draw canvas area "Invalid expression") := by
  unfold drawOverlay shownNotice?
  cases s.mode <;> cases s.notice <;> simp

end Session

namespace Word

/-- The place of the notice, if one is shown. -/
def noticePlace (s : Session) (area : Area) : Except Fault (Option (Nat × Area)) :=
  match s.shownNotice? with
  | none => pure none
  | some text => do
    let place ← notice text area
    pure (some place)

/-- A frame by arithmetic that can fail: the regions that can be clicked, and where the notice
stands. -/
def frame (s : Session) (area : Area) : Except Fault (Regions × Option (Nat × Area)) :=
  if Session.isTooSmall area then pure ([], none)
  else do
    let height ← fieldHeight s area
    let panes := Panes.split area height
    let slots ← layoutChips s.editor.chips (FormulaField.chipArea panes.field)
    let listed ← rows s.editor.suggestions panes.list
    let button ← buttonArea panes.result
    let place ← noticePlace s area
    pure (Session.deleteRegions slots ++
      listed.map (fun (row, index) => (row, .suggestion index)) ++ [(button, .calculate)], place)

section

variable (s : Session) {area : Area}

theorem noticePlace_eq (hwidth : smallestWidth ≤ area.width)
    (hheight : smallestHeight ≤ area.height) :
    noticePlace s area = .ok (s.noticePlace? area) := by
  have hlarge : Session.isTooSmall area = false := Session.isTooSmall_eq_false hwidth hheight
  unfold noticePlace Session.noticePlace?
  rw [hlarge]
  cases s.shownNotice? with
  | none => rfl
  | some text =>
    dsimp only
    rw [notice_eq text hwidth]
    rfl

theorem frame_of_isTooSmall (h : Session.isTooSmall area = true) :
    frame s area = .ok (s.layoutRegions area, s.noticePlace? area) := by
  rw [frame, Session.layoutRegions, Session.noticePlace?, if_pos h, if_pos h, if_pos h, pure_eq]

/-- On any other screen all parts have a result. -/
theorem frame_of_large (hwidth : smallestWidth ≤ area.width)
    (hheight : smallestHeight ≤ area.height) :
    frame s area = .ok (s.layoutRegions area, s.noticePlace? area) := by
  have hlarge : ¬ Session.isTooSmall area = true := by
    rw [Session.isTooSmall_eq_false hwidth hheight]
    decide
  obtain ⟨hroom, _⟩ := s.chipArea_right_lt hwidth
  -- with the height of the formula field known, the panes are those of the session
  have hpanes : Panes.split area (s.fieldHeight area) = s.panes area := rfl
  rw [frame, Session.layoutRegions, if_neg hlarge, if_neg hlarge]
  simp only [fieldHeight_eq s hheight, bind_ok, hpanes, layoutChips_eq (.inl hroom), rows_eq,
    buttonArea_eq, noticePlace_eq s hwidth hheight, pure_eq]

end

end Word

namespace Session

/-- **A frame never leaves the words.** Whatever the tags, the catalog, the suggestions, the mode and
the notice are, and however large the screen is, the plain sums and differences of the layout of the
chips, of the height that the formula field asks for, of the rows of the list, of the button and of a
notice are words, the bounds of the height of the formula field are in order, and what is computed
that way is what the frame lays out. On a screen that is large enough for a session the list keeps a
row inside its frame. -/
theorem frame_within_words (s : Session) (area : Area) :
    Word.frame s area = .ok (s.layoutRegions area, s.noticePlace? area) ∧
      (smallestWidth ≤ area.width → smallestHeight ≤ area.height →
        3 ≤ area.height / 3 ∧ Word.fieldHeight s area = .ok (s.fieldHeight area) ∧
        1 ≤ (s.panes area).list.inside.height) := by
  refine ⟨?_, fun _ hheight => ⟨?_, Word.fieldHeight_eq s hheight, ?_⟩⟩
  · by_cases hsmall : isTooSmall area = true
    · exact Word.frame_of_isTooSmall s hsmall
    · simp only [isTooSmall, Bool.or_eq_true, decide_eq_true_eq, not_or, Nat.not_lt] at hsmall
      exact Word.frame_of_large s hsmall.1 hsmall.2
  · simp only [smallestHeight] at hheight
    omega
  · obtain ⟨_, hfield⟩ := s.fieldHeight_bounds hheight
    simp only [panes, Panes.split, Area.inside, Area.rows, ResultPanel.height, Area.bottom]
    omega

/-- With a notice on the largest screen there is, and with chips on the smallest one. -/
theorem frame_on_largest_and_smallest_screen :
    let fee : Tag := ⟨"Fee", "9", by decide +kernel⟩
    let s := opened ⟨⟨[fee]⟩, [fee, .ofOperand .add], "", none⟩ 0 []
    let failed := s.openNotice "Invalid expression: the formula is empty"
    let largest := Area.clipped 0 0 limit limit
    let smallest := Area.clipped 0 0 smallestWidth smallestHeight
    Word.frame failed largest =
        .ok (failed.layoutRegions largest, some (1, .clipped 32745 32764 44 7)) ∧
      Word.fieldHeight s smallest = .ok 4 ∧ 1 ≤ (s.panes smallest).list.inside.height := by
  intro fee s failed largest smallest
  obtain ⟨hframe, _⟩ := frame_within_words failed largest
  obtain ⟨_, hlarge⟩ := frame_within_words s smallest
  obtain ⟨_, hfield, hlist⟩ := hlarge (by decide) (by decide)
  have hplace : failed.noticePlace? largest = some (1, .clipped 32745 32764 44 7) := by
    decide +kernel
  have hheight : s.fieldHeight smallest = 4 := by decide +kernel
  rw [hplace] at hframe
  rw [hheight] at hfield
  exact ⟨hframe, hfield, hlist⟩

end Session

end TagFormula
