import TagFormula.Proofs.ClickTargets
import TagFormula.Proofs.GlyphCells

/-!
# The rows of the suggestion list

Which entries are in view is reckoned from the highlighted one, and each of them has a row. The rows
that are reported for clicks and the lines that are drawn are made in two ways; they agree: what is
seen in a row is the marker, the key and the value of the entry that is reported with it, whatever the
other rows and the frame hold.

* **`SuggestionList.getElem?_rows`**: the rows in order, each with the position of its entry.
* **`SuggestionList.draw_eq_foldl`**: the lines that are drawn below each other are those of the rows.
* **`SuggestionList.cell?_draw`**: a row shows its own line.
* **`SuggestionList.shows_draw`**: cell by cell, the spans of that line.
* **`SuggestionList.inView`**: all of it, with the highlighted entry in view.
-/

namespace TagFormula

open Screen

namespace SuggestionList

variable {suggestions : List SuggestionView} {area : Area}

/-! ## The offset -/

/-- If no two entries have a property, the first one that has it is the one. -/
theorem findIdx?_of_countP_le_one {α : Type} {p : α → Bool} {l : List α} {i : Nat} {a : α}
    (honce : l.countP p ≤ 1) (hi : l[i]? = some a) (ha : p a = true) : l.findIdx? p = some i := by
  induction l generalizing i with
  | nil => cases hi
  | cons b rest ih =>
    rw [List.findIdx?_cons]
    by_cases hb : p b = true
    · rw [if_pos hb]
      rw [List.countP_cons_of_pos hb] at honce
      cases i with
      | zero => rfl
      | succ i =>
        have : 0 < rest.countP p := List.countP_pos_iff.2 ⟨a, List.mem_of_getElem? hi, ha⟩
        omega
    · rw [if_neg hb]
      rw [List.countP_cons_of_neg hb] at honce
      cases i with
      | zero =>
        cases hi
        exact absurd ha hb
      | succ i => rw [ih honce hi, Option.map_some]

/-- The list is moved so far that the highlighted entry is in its last row, and not at all if it is in
view without that. -/
theorem offset_of_highlighted (honce : suggestions.countP (·.highlighted) ≤ 1) {i : Nat}
    {view : SuggestionView} (hi : suggestions[i]? = some view) (hview : view.highlighted = true)
    {height : Nat} (hheight : 0 < height) : offset suggestions height = i + 1 - height := by
  simp only [offset, findIdx?_of_countP_le_one honce hi hview]
  by_cases h : height ≤ i
  · rw [if_pos (by simp [hheight, h])]
  · rw [if_neg (by simp [h])]
    omega

/-- The list is moved only for an entry that would be below the last row. -/
theorem highlighted_of_offset_ne_zero {height : Nat} (h : offset suggestions height ≠ 0) :
    ∃ i view, suggestions[i]? = some view ∧ view.highlighted = true ∧ height ≤ i := by
  unfold offset at h
  split at h
  · next i hi =>
    obtain ⟨hlt, hview, _⟩ := List.findIdx?_eq_some_iff_getElem.1 hi
    split at h
    · next hle =>
      rw [Bool.and_eq_true, decide_eq_true_eq, decide_eq_true_eq] at hle
      exact ⟨i, _, List.getElem?_eq_getElem hlt, hview, hle.2⟩
    · exact absurd rfl h
  · exact absurd rfl h

/-- All rows are filled if there are entries enough. -/
theorem min_length_sub_offset (suggestions : List SuggestionView) (height : Nat) :
    min height (suggestions.length - offset suggestions height) = min height suggestions.length := by
  unfold offset
  split
  · next i hi =>
    obtain ⟨hlt, _⟩ := List.findIdx?_eq_some_iff_getElem.1 hi
    split <;> omega
  · rfl

/-! ## The rows -/

theorem length_rows : (rows suggestions area).length = min area.inside.height suggestions.length := by
  rw [rows, placed, List.length_map, List.length_mapIdx, List.length_take, List.length_drop,
    min_length_sub_offset]

/-- Consecutive entries stand in consecutive rows. -/
theorem getElem?_rows
    (hindex : ∀ i (view : SuggestionView), suggestions[i]? = some view → view.index = i) {k i : Nat}
    {row : Area} : (rows suggestions area)[k]? = some (row, i) ↔
      k < min area.inside.height (suggestions.length - offset suggestions area.inside.height) ∧
      i = offset suggestions area.inside.height + k ∧ row = area.inside.rows k 1 := by
  simp only [rows, List.getElem?_map, Option.map_eq_some_iff, Prod.exists, Prod.mk.injEq,
    getElem?_placed]
  constructor
  · rintro ⟨row, view, ⟨hk, hview, hrow⟩, rfl, rfl⟩
    obtain ⟨hlt, _⟩ := List.getElem?_eq_some_iff.1 hview
    exact ⟨by omega, hindex _ view hview, hrow⟩
  · rintro ⟨hk, rfl, rfl⟩
    have hview := List.getElem?_eq_getElem
      (show offset suggestions area.inside.height + k < suggestions.length by omega)
    exact ⟨_, _, ⟨by omega, hview, rfl⟩, rfl, hindex _ _ hview⟩

/-- The highlighted entry is one of those in view. -/
theorem highlighted_mem_rows
    (hindex : ∀ i (view : SuggestionView), suggestions[i]? = some view → view.index = i)
    (honce : suggestions.countP (·.highlighted) ≤ 1) (hheight : 0 < area.inside.height) {i : Nat}
    {view : SuggestionView} (hi : suggestions[i]? = some view) (hview : view.highlighted = true) :
    ∃ row, (row, i) ∈ rows suggestions area := by
  have hoffset := offset_of_highlighted honce hi hview hheight
  obtain ⟨hlt, _⟩ := List.getElem?_eq_some_iff.1 hi
  have hrow : (rows suggestions area)[i - offset suggestions area.inside.height]? =
      some (area.inside.rows (i - offset suggestions area.inside.height) 1, i) :=
    (getElem?_rows hindex).2 ⟨by omega, by omega, rfl⟩
  exact ⟨_, List.mem_of_getElem? hrow⟩

/-! ## The drawing -/

/-- Drawing line after line, from the top, each in its row. Induction on the views. -/
theorem foldl_drawLine_eq (draw : SuggestionView → Line) (views : List SuggestionView) (first : Nat)
    (h : first + views.length ≤ area.height) (canvas : Canvas) :
    (views.mapIdx fun k view => (area.rows (first + k) 1, view)).foldl
        (fun canvas (row, view) => canvas.drawLine row .left (draw view)) canvas =
      canvas.drawLines area first (views.map draw) := by
  induction views generalizing first canvas with
  | nil => rfl
  | cons view rest ih =>
    rw [List.length_cons] at h
    rw [List.mapIdx_cons, List.foldl_cons, List.map_cons, Canvas.drawLines, if_neg (by omega),
      ← ih (first + 1) (by omega)]
    simp only [Nat.add_zero, Nat.add_assoc, Nat.add_comm 1]

/-- The marker, a space, the key and the value of an entry. -/
def spans (view : SuggestionView) : Line :=
  [⟨if view.highlighted then ">" else " ", Theme.accent⟩, ⟨" ", {}⟩,
    ⟨view.tag.key, if view.highlighted then Theme.highlight else {}⟩,
    ⟨"  " ++ view.tag.value, Theme.muted⟩]

/-- The line of an entry is made of these spans. -/
theorem line_eq_spans (view : SuggestionView) : line view = spans view :=
  rfl

/-- The list is drawn as a frame with the lines of the entries in view below each other in it. -/
theorem draw_eq_drawLines (hsome : suggestions ≠ []) (canvas : Canvas) (total : Nat) :
    draw canvas area suggestions total = (canvas.drawFrame area
        { title := title suggestions.length total, style := Theme.frame }).drawLines area.inside 0
      (((suggestions.drop (offset suggestions area.inside.height)).take area.inside.height).map
        spans) := by
  have hempty : suggestions.isEmpty = false := List.isEmpty_eq_false_iff.2 hsome
  simp only [draw, hempty, Bool.false_eq_true, if_false, List.map_congr_left fun _ _ => line_eq_spans _]

/-- The lines that are drawn below each other are those of the rows that a click finds. -/
theorem draw_eq_foldl (hsome : suggestions ≠ []) (canvas : Canvas) (total : Nat) :
    draw canvas area suggestions total = (placed suggestions area).foldl
      (fun canvas (row, view) => canvas.drawLine row .left (spans view)) (canvas.drawFrame area
        { title := title suggestions.length total, style := Theme.frame }) := by
  rw [draw_eq_drawLines hsome, ← foldl_drawLine_eq spans _ 0]
  · simp only [placed, Nat.zero_add]
  · rw [Nat.zero_add, List.length_take]
    exact Nat.min_le_left ..

/-- What is seen in a row is the line of its entry, drawn into the frame. -/
theorem cell?_draw {row : Area} {view : SuggestionView} (h : (row, view) ∈ placed suggestions area)
    {x y : Nat} (hxy : row.contains x y = true) (canvas : Canvas) (total : Nat) :
    (draw canvas area suggestions total).cell? x y = ((canvas.drawFrame area
        { title := title suggestions.length total, style := Theme.frame }).drawLine row .left
      (spans view)).cell? x y := by
  rw [draw_eq_foldl (List.ne_nil_of_mem (mem_of_mem_placed h))]
  generalize canvas.drawFrame area _ = framed
  have hdraws : ∀ a ∈ placed suggestions area,
      Canvas.Draws framed.area (fun x y => a.1.contains x y = true) fun canvas =>
        canvas.drawLine a.1 .left (spans a.2) :=
    fun a _ => Canvas.draws_drawLine fun _ _ => id
  have hrow := Canvas.cell?_foldl_of_apart hdraws rfl (pairwise_placed suggestions area) h hxy
  exact hrow

/-- Where the list is on the screen, the frame leaves the rows as they were. -/
theorem cell?_draw_of_within {row : Area} {view : SuggestionView}
    (h : (row, view) ∈ placed suggestions area) {x y : Nat} (hxy : row.contains x y = true)
    {canvas : Canvas} (hwithin : area.Within canvas.area) (total : Nat) :
    (draw canvas area suggestions total).cell? x y =
      (canvas.drawLine row .left (spans view)).cell? x y := by
  have hframe : Canvas.Draws canvas.area (Canvas.Rim (area.intersect canvas.area)) fun canvas =>
      canvas.drawFrame area { title := title suggestions.length total, style := Theme.frame } :=
    Canvas.draws_drawFrame
  rw [Area.intersect_eq_left hwithin] at hframe
  have hline : Canvas.Draws canvas.area (fun x y => row.contains x y = true) fun canvas =>
      canvas.drawLine row .left (spans view) := Canvas.draws_drawLine fun _ _ => id
  have hinside : area.inside.contains x y = true := by
    obtain ⟨k, hk⟩ := List.mem_iff_getElem?.1 h
    rw [(getElem?_placed.1 hk).2.2] at hxy
    exact (Area.rows_within ..).contains hxy
  rw [cell?_draw h hxy]
  exact hline.cell?_congr (hframe.area_eq rfl) rfl
    (hframe.cell?_of_not rfl fun hrim => hrim.2 hinside)

/-- Where the list is on the screen, each span of the line of an entry is seen in the row, behind the
columns of those before it. -/
theorem shows_draw {row : Area} {view : SuggestionView} (h : (row, view) ∈ placed suggestions area)
    {canvas : Canvas} (hwithin : area.Within canvas.area) (total : Nat) {front back : Line}
    {span : Span} (hspans : spans view = front ++ span :: back) :
    (draw canvas area suggestions total).Shows (row.x + front.columns) row.y row.right span := by
  obtain ⟨k, hk⟩ := List.mem_iff_getElem?.1 h
  obtain ⟨hlt, _, hrow⟩ := getElem?_placed.1 hk
  have hheight : 0 < row.height := by
    rw [hrow, Area.height_rows]
    omega
  have hshows : (canvas.drawLine row .left (front ++ span :: back)).Shows (row.x + front.columns)
      row.y row.right span :=
    Canvas.shows_drawLine ((within_of_mem_placed h).trans hwithin) hheight
  rw [← hspans] at hshows
  refine hshows.congr fun c hc hright => (cell?_draw_of_within h ?_ hwithin total).symm
  rw [Area.contains_iff]
  rw [Area.right] at hright
  omega

/-- Each row of the list is that of an entry. -/
theorem exists_placed_of_mem_rows
    (hindex : ∀ i (view : SuggestionView), suggestions[i]? = some view → view.index = i) {row : Area}
    {i : Nat} (h : (row, i) ∈ rows suggestions area) :
    ∃ view, suggestions[i]? = some view ∧ (row, view) ∈ placed suggestions area := by
  obtain ⟨⟨row', view⟩, hplaced, heq⟩ := List.mem_map.1 h
  obtain ⟨rfl, hi⟩ := Prod.mk.inj heq
  obtain ⟨k, hk⟩ := List.mem_iff_getElem?.1 hplaced
  have hview := (getElem?_placed.1 hk).2.1
  refine ⟨view, ?_, hplaced⟩
  rw [← hi, hindex _ view hview, hview]

/-! ## The list in view -/

theorem rows_eq_iff {a row : Area} {k : Nat} (hk : k < a.height) : row = a.rows k 1 ↔
    row.x = a.x ∧ row.y = a.y + k ∧ row.width = a.width ∧ row.height = 1 := by
  have hy : (a.rows k 1).y = a.y + k := Area.y_rows (Nat.le_of_lt hk)
  have hheight : (a.rows k 1).height = 1 := by
    simp only [Area.rows]
    omega
  constructor
  · rintro rfl
    exact ⟨rfl, hy, rfl, hheight⟩
  · rintro ⟨hx, hrow, hwidth, hone⟩
    cases row
    simp only at hx hrow hwidth hone
    subst hx hwidth
    rw [← hy] at hrow
    rw [← hheight] at hone
    subst hrow hone
    rfl

/-- What is in view of a list, which row it has, and what is drawn there. -/
structure InView (suggestions : List SuggestionView) (area : Area) : Prop where
  /-- Consecutive entries from the offset on, on consecutive rows from the first one of the inside. -/
  getElem? : ∀ k row i, (rows suggestions area)[k]? = some (row, i) ↔
    k < min area.inside.height (suggestions.length - offset suggestions area.inside.height) ∧
    i = offset suggestions area.inside.height + k ∧ row.x = area.inside.x ∧
    row.y = area.inside.y + k ∧ row.width = area.inside.width ∧ row.height = 1
  length : (rows suggestions area).length = min area.inside.height suggestions.length
  highlighted : ∀ i (view : SuggestionView), suggestions[i]? = some view →
    view.highlighted = true → ∃ row, (row, i) ∈ rows suggestions area
  /-- The list starts at its first entry unless the highlighted one would be out of view. -/
  offset_eq_zero : (∀ i (view : SuggestionView), suggestions[i]? = some view →
    view.highlighted = true → i < area.inside.height) → offset suggestions area.inside.height = 0
  /-- The list is drawn as a frame with a line for each entry in view, below each other in it. -/
  drawLines : suggestions ≠ [] → ∀ canvas total, draw canvas area suggestions total =
    (canvas.drawFrame area
      { title := title suggestions.length total, style := Theme.frame }).drawLines area.inside 0
      (((suggestions.drop (offset suggestions area.inside.height)).take area.inside.height).map
        spans)
  /-- In the row of an entry its line is seen, over the frame and over what was there before. -/
  drawn : ∀ row i, (row, i) ∈ rows suggestions area → ∃ view, suggestions[i]? = some view ∧
    ∀ canvas total x y, row.contains x y = true →
      (draw canvas area suggestions total).cell? x y = ((canvas.drawFrame area
          { title := title suggestions.length total, style := Theme.frame }).drawLine row .left
        (spans view)).cell? x y ∧
      (area.Within canvas.area → (draw canvas area suggestions total).cell? x y =
        (canvas.drawLine row .left (spans view)).cell? x y)
  /-- Cell by cell: the marker in the first column of the row, which tells the highlighted entry, from
  the third column on the key, and the value behind it. -/
  shown : ∀ row i, (row, i) ∈ rows suggestions area → ∃ view, suggestions[i]? = some view ∧
    ∀ (canvas : Canvas) total, area.Within canvas.area →
      let drawn := draw canvas area suggestions total
      drawn.Shows row.x row.y row.right
          ⟨if view.highlighted then ">" else " ", Theme.accent⟩ ∧
        drawn.Shows (row.x + 1) row.y row.right ⟨" ", {}⟩ ∧
        drawn.Shows (row.x + 2) row.y row.right
          ⟨view.tag.key, if view.highlighted then Theme.highlight else {}⟩ ∧
        drawn.Shows (row.x + 2 + Text.columns view.tag.key.toList) row.y row.right
          ⟨"  " ++ view.tag.value, Theme.muted⟩

/-- The highlighted entry is in view, and each row shows the entry that is reported with it. -/
theorem inView (hindex : ∀ i (view : SuggestionView), suggestions[i]? = some view → view.index = i)
    (honce : suggestions.countP (·.highlighted) ≤ 1) (hheight : 0 < area.inside.height) :
    InView suggestions area where
  getElem? k row i := by
    rw [getElem?_rows hindex]
    refine and_congr_right fun hk => and_congr_right fun _ => rows_eq_iff ?_
    omega
  length := length_rows
  highlighted _ _ hi hview := highlighted_mem_rows hindex honce hheight hi hview
  offset_eq_zero h := by
    by_cases hzero : offset suggestions area.inside.height = 0
    · exact hzero
    · obtain ⟨i, view, hi, hview, hle⟩ := highlighted_of_offset_ne_zero hzero
      exact absurd (h i view hi hview) (Nat.not_lt.2 hle)
  drawLines := draw_eq_drawLines
  drawn row i hmem := by
    obtain ⟨view, hview, hplaced⟩ := exists_placed_of_mem_rows hindex hmem
    exact ⟨view, hview, fun canvas total x y hxy => ⟨cell?_draw hplaced hxy canvas total,
      fun hwithin => cell?_draw_of_within hplaced hxy hwithin total⟩⟩
  shown row i hmem := by
    obtain ⟨view, hview, hplaced⟩ := exists_placed_of_mem_rows hindex hmem
    refine ⟨view, hview, fun canvas total hwithin => ?_⟩
    have hshows (front : Line) {back : Line} {span : Span}
        (hspans : spans view = front ++ span :: back) :
        (draw canvas area suggestions total).Shows (row.x + front.columns) row.y row.right span :=
      shows_draw hplaced hwithin total hspans
    have hmarker : Span.columns ⟨if view.highlighted then ">" else " ", Theme.accent⟩ = 1 := by
      cases view.highlighted <;> decide
    have hspace : Span.columns ⟨" ", {}⟩ = 1 := by decide
    have hafterMarker := hshows [_] rfl
    have hkey := hshows [_, _] rfl
    have hvalue := hshows [_, _, _] rfl
    simp only [Line.columns, List.foldr_cons, List.foldr_nil, hmarker, hspace, Nat.add_zero,
      ← Nat.add_assoc] at hafterMarker hkey hvalue
    exact ⟨hshows [] rfl, hafterMarker, hkey, hvalue⟩

/-- With two rows and the last of three entries highlighted, the list starts at the second entry, and
the second row shows the third one with its marker. -/
theorem inView_rent_wages_taxes :
    let views : List SuggestionView := [⟨0, ⟨"Rent", "812", by decide +kernel⟩, false⟩,
      ⟨1, ⟨"Wages", "2344", by decide +kernel⟩, false⟩,
      ⟨2, ⟨"Taxes", "457", by decide +kernel⟩, true⟩]
    let area : Area := .clipped 3 5 20 4
    (∀ i (view : SuggestionView), views[i]? = some view → view.index = i) ∧
      views.countP (·.highlighted) ≤ 1 ∧ 0 < area.inside.height ∧
      (rows views area).map (·.2) = [1, 2] ∧
      String.join (((draw (.blank area) area views 3).row 7).map Cell.text) =
        "│> Taxes  457      │" ∧ InView views area := by
  intro views area
  have hindex : ∀ i (view : SuggestionView), views[i]? = some view → view.index = i := by
    intro i view hi
    match i with
    | 0 | 1 | 2 =>
      cases hi
      rfl
  exact ⟨hindex, by decide, by decide, by decide, by decide +kernel,
    inView hindex (by decide) (by decide)⟩

end SuggestionList

end TagFormula
