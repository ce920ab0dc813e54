import TagFormula.Proofs.AreaPlacement
import TagFormula.Screen.Frame

/-!
# Drawing, cell by cell

All drawing is made of changes of single cells, and which cells are changed and how depends on the
canvas' area only, never on what is drawn already. So a drawing is told by a change for each cell, and
two drawings with no cell in common do not see each other.

* **`Canvas.Draws`**: a drawing changes each cell by itself, and only cells of a part of the screen.
* **`draws_drawLine`**, **`draws_drawFrame`**: a line is drawn in its area, a frame around the inside of
  its own. One lemma for each step of drawing, from single cells upwards.
* **`Canvas.cell?_foldl_of_apart`**: of drawings that are apart, each is seen as if it were the only one.
-/

namespace TagFormula.Screen

/-! ## Parts of areas -/

namespace Area

variable {a b : Area} {x y : Nat}

/-- Dropping columns takes cells away only, also where the bound is passed. -/
theorem contains_of_dropColumns {n : Nat} (h : (a.dropColumns n).contains x y = true) :
    a.contains x y = true := by
  have := a.right_le
  rw [contains_iff] at h ⊢
  simp only [dropColumns, saturate] at h
  omega

theorem contains_of_takeColumns {n : Nat} (h : (a.takeColumns n).contains x y = true) :
    a.contains x y = true := by
  rw [contains_iff] at h ⊢
  simp only [takeColumns] at h
  omega

theorem contains_of_intersect (h : (a.intersect b).contains x y = true) :
    a.contains x y = true := by
  rw [contains_intersect, Bool.and_eq_true] at h
  exact h.1

/-- An area on the screen is not cut by it. -/
theorem intersect_eq_left (h : a.Within b) : a.intersect b = a := by
  obtain ⟨hleft, hright, htop, hbottom⟩ := h
  cases a
  dsimp only [Area.right, Area.bottom] at hleft hright htop hbottom
  simp only [intersect, Area.right, Area.bottom, mk.injEq]
  omega

/-- The inside of an area is what has a cell of the area on each side. -/
theorem contains_inside_iff : a.inside.contains x y = true ↔
    a.x < x ∧ x + 1 < a.right ∧ a.y < y ∧ y + 1 < a.bottom := by
  rw [contains_iff]
  simp only [inside, Area.right, Area.bottom]
  omega

end Area

namespace Canvas

/-! ## Drawings -/

/-- On canvases of an area `draw` changes each cell by itself, and only cells of `part`. -/
def Draws (screen : Area) (part : Nat → Nat → Prop) (draw : Canvas → Canvas) : Prop :=
  ∃ change : Nat → Nat → Cell → Cell, (∀ x y, ¬ part x y → change x y = id) ∧
    ∀ canvas : Canvas, canvas.area = screen → (draw canvas).area = screen ∧
      ∀ x y, (draw canvas).cell? x y = (canvas.cell? x y).map (change x y)

section

variable {screen : Area} {part : Nat → Nat → Prop} {draw next : Canvas → Canvas}
  {canvas : Canvas} {x y : Nat}

/-- Drawing leaves the size of the canvas as it is. -/
theorem Draws.area_eq (h : Draws screen part draw) (harea : canvas.area = screen) :
    (draw canvas).area = screen := by
  obtain ⟨change, _, hdraw⟩ := h
  exact (hdraw canvas harea).1

/-- The cells outside of the part keep what they hold. -/
theorem Draws.cell?_of_not (h : Draws screen part draw) (harea : canvas.area = screen)
    (hxy : ¬ part x y) : (draw canvas).cell? x y = canvas.cell? x y := by
  obtain ⟨change, hid, hdraw⟩ := h
  rw [(hdraw canvas harea).2, hid x y hxy, Option.map_id_fun, id]

/-- What is drawn in a cell depends on what was in that cell only. -/
theorem Draws.cell?_congr (h : Draws screen part draw) {canvas' : Canvas}
    (harea : canvas.area = screen) (harea' : canvas'.area = screen)
    (hcell : canvas.cell? x y = canvas'.cell? x y) :
    (draw canvas).cell? x y = (draw canvas').cell? x y := by
  obtain ⟨change, _, hdraw⟩ := h
  rw [(hdraw canvas harea).2, (hdraw canvas' harea').2, hcell]

/-- Only the canvases of the area matter. -/
theorem Draws.of_eq (h : Draws screen part draw)
    (heq : ∀ canvas : Canvas, canvas.area = screen → next canvas = draw canvas) :
    Draws screen part next := by
  obtain ⟨change, hid, hdraw⟩ := h
  refine ⟨change, hid, fun canvas harea => ?_⟩
  rw [heq canvas harea]
  exact hdraw canvas harea

theorem draws_id : Draws screen part fun canvas => canvas :=
  ⟨fun _ _ => id, fun _ _ _ => rfl, fun canvas harea =>
    ⟨harea, fun x y => by rw [Option.map_id_fun, id]⟩⟩

/-- Two steps with one part, the form in which a widget is put together. -/
theorem Draws.comp (h : Draws screen part draw) (hnext : Draws screen part next) :
    Draws screen part fun canvas => next (draw canvas) := by
  obtain ⟨change, hid, hdraw⟩ := h
  obtain ⟨change', hid', hdraw'⟩ := hnext
  refine ⟨fun x y => change' x y ∘ change x y, fun x y hxy => ?_, fun canvas harea => ?_⟩
  · dsimp only
    rw [hid x y hxy, hid' x y hxy]
    rfl
  · obtain ⟨harea', hcell⟩ := hdraw canvas harea
    obtain ⟨harea'', hcell'⟩ := hdraw' _ harea'
    refine ⟨harea'', fun x y => ?_⟩
    rw [hcell', hcell, Option.map_map]

/-- Induction on the items that are drawn one after the other. -/
theorem draws_foldl {α : Type} {draw : α → Canvas → Canvas} {items : List α}
    (h : ∀ a ∈ items, Draws screen part (draw a)) :
    Draws screen part fun canvas => items.foldl (fun canvas a => draw a canvas) canvas := by
  induction items with
  | nil => exact draws_id
  | cons a rest ih =>
    exact (h a (List.mem_cons_self ..)).comp (ih fun b hb => h b (List.mem_cons_of_mem a hb))

/-! ## Cells and areas -/

/-- The only step that writes a cell. All other drawing is built from it. -/
theorem draws_modify (hxy : part x y) (f : Cell → Cell) :
    Draws screen part fun canvas => canvas.modify x y f := by
  refine ⟨fun x' y' => if x = x' ∧ y = y' then f else id, fun x' y' hout => ?_,
    fun canvas harea => ⟨by rw [area_modify, harea], fun x' y' => ?_⟩⟩
  · refine if_neg ?_
    rintro ⟨rfl, rfl⟩
    exact hout hxy
  · rw [cell?_modify]
    dsimp only
    split
    · rfl
    · rw [Option.map_id_fun, id]

theorem draws_wipeRow {count : Nat} (h : ∀ k < count, part (x + k) y) :
    Draws screen part fun canvas => canvas.wipeRow x y count := by
  induction count generalizing x with
  | zero => exact draws_id
  | succ count ih =>
    refine (draws_modify (h 0 (Nat.succ_pos count)) fun _ => {}).comp (ih fun k hk => ?_)
    rw [Nat.add_assoc, Nat.add_comm 1 k]
    exact h (k + 1) (Nat.succ_lt_succ hk)

/-- A fill or a restyle changes the cells of its area. -/
theorem draws_modifyArea {area : Area} (h : ∀ x y, area.contains x y = true → part x y)
    (f : Cell → Cell) : Draws screen part fun canvas => canvas.modifyArea area f := by
  have hdraws : Draws screen part fun canvas =>
      (area.intersect screen).positions.foldl (fun canvas p => canvas.modify p.1 p.2 f) canvas :=
    draws_foldl fun p hp =>
      draws_modify (h p.1 p.2 (Area.contains_of_intersect (Area.mem_positions_iff.1 hp))) f
  exact hdraws.of_eq fun canvas harea => by rw [modifyArea, harea]

/-! ## Lines -/

/-- A glyph that takes no column is drawn behind the one before it, so never in front of the start. -/
theorem draws_drawGlyphs {start right : Nat} {glyphs : List Glyph} {isFirst : Bool}
    (hpart : ∀ c, start ≤ c → c < right → part c y) (hstart : start < right) (hx : start ≤ x)
    (hfirst : isFirst = true → x = start) :
    Draws screen part fun canvas => canvas.drawGlyphs start x y right isFirst glyphs := by
  induction glyphs generalizing x isFirst with
  | nil => exact draws_id
  | cons g rest ih =>
    by_cases hroom : right < x + g.columns
    · -- no room: the drawing ends
      exact draws_id.of_eq fun canvas _ => by simp only [drawGlyphs, if_pos hroom]
    · have hrest : Draws screen part fun canvas =>
          canvas.drawGlyphs start (x + g.columns) y right false rest :=
        ih (by omega) fun h => by cases h
      have hwipe : Draws screen part fun canvas => canvas.wipeRow (x + 1) y (g.columns - 1) :=
        draws_wipeRow fun k hk => hpart _ (by omega) (by omega)
      -- a glyph without columns goes to the cell before it, or to the first one
      have hput : Draws screen part fun canvas =>
          if isFirst then canvas.put x y g.symbol g.style
          else if x = start then canvas.append x y g.symbol g.style
          else if g.columns = 0 then canvas.append (x - 1) y g.symbol g.style
          else canvas.put x y g.symbol g.style := by
        split
        · next h =>
          have := hfirst h
          exact draws_modify (hpart _ hx (by omega)) _
        · split
          · exact draws_modify (hpart _ hx (by omega)) _
          · split
            · exact draws_modify (hpart _ (by omega) (by omega)) _
            · exact draws_modify (hpart _ hx (by omega)) _
      exact ((hput.comp hwipe).comp hrest).of_eq fun canvas _ => by
        simp only [drawGlyphs, if_neg hroom]

/-- A span is cut at the right end of its area. -/
theorem draws_drawSpan {area : Area} {span : Span}
    (h : ∀ x y, area.contains x y = true → part x y) :
    Draws screen part fun canvas => canvas.drawSpan area span := by
  by_cases hempty : (area.intersect screen).isEmpty = true
  · exact draws_id.of_eq fun canvas harea => by simp only [drawSpan, harea, if_pos hempty]
  · have hsize := Area.isEmpty_eq_false_iff.1 (Bool.eq_false_iff.2 hempty)
    have hdraws : Draws screen part fun canvas => canvas.drawGlyphs (area.intersect screen).x
        (area.intersect screen).x (area.intersect screen).y (area.intersect screen).right true
        span.glyphs := by
      refine draws_drawGlyphs (fun c hc hright => ?_) ?_ (Nat.le_refl _) (fun _ => rfl)
      · refine h c _ (Area.contains_of_intersect (b := screen) (Area.contains_iff.2 ?_))
        rw [Area.right] at hright
        omega
      · rw [Area.right]
        omega
    exact hdraws.of_eq fun canvas harea => by simp only [drawSpan, harea, if_neg hempty]

theorem draws_drawSpans {area : Area} {spans : List Span}
    (h : ∀ x y, area.contains x y = true → part x y) :
    Draws screen part fun canvas => canvas.drawSpans area spans := by
  induction spans generalizing area with
  | nil => exact draws_id
  | cons span rest ih =>
    by_cases hempty : area.isEmpty = true
    · exact draws_id.of_eq fun canvas _ => by simp only [drawSpans, if_pos hempty]
    · have hspan : Draws screen part fun canvas => canvas.drawSpan area span := draws_drawSpan h
      have hrest : Draws screen part fun canvas =>
          canvas.drawSpans (area.dropColumns span.columns) rest :=
        ih fun x y hxy => h x y (Area.contains_of_dropColumns hxy)
      exact (hspan.comp hrest).of_eq fun canvas _ => by
        simp only [drawSpans, if_neg hempty]

/-- A line is drawn in its area. -/
theorem draws_drawLine {area : Area} {alignment : Alignment} {line : Line}
    (h : ∀ x y, area.contains x y = true → part x y) :
    Draws screen part fun canvas => canvas.drawLine area alignment line := by
  -- what is drawn, and where in the area, is known from the area of the screen
  obtain ⟨n, spans, heq⟩ : ∃ n spans, ∀ canvas : Canvas, canvas.area = screen →
      canvas.drawLine area alignment line = if (area.intersect screen).isEmpty then canvas
        else canvas.drawSpans ((area.intersect screen).dropColumns n) spans := by
    refine ⟨?_, ?_, fun canvas harea => ?_⟩
    rotate_left 2
    · unfold drawLine
      rw [harea]
  by_cases hempty : (area.intersect screen).isEmpty = true
  · exact draws_id.of_eq fun canvas harea => by rw [heq canvas harea, if_pos hempty]
  · have hdraws : Draws screen part fun canvas =>
        canvas.drawSpans ((area.intersect screen).dropColumns n) spans :=
      draws_drawSpans fun x y hxy =>
        h x y (Area.contains_of_intersect (Area.contains_of_dropColumns hxy))
    exact hdraws.of_eq fun canvas harea => by rw [heq canvas harea, if_neg hempty]

/-! ## Frames -/

/-- The outermost cells of an area. -/
def Rim (area : Area) (x y : Nat) : Prop :=
  area.contains x y = true ∧ ¬ area.inside.contains x y = true

/-- The four sides of an area are on its rim. -/
theorem rim_of_side {area side : Area} {x y : Nat}
    (hside : side ∈ [area.takeColumns 1, area.rows 0 1, area.dropColumns (area.width - 1),
      area.rows (area.height - 1) 1])
    (h : side.contains x y = true) : Rim area x y := by
  have hright := area.right_le
  rw [Rim, Area.contains_inside_iff, Area.contains_iff]
  rw [Area.contains_iff] at h
  simp only [List.mem_cons, List.not_mem_nil, or_false] at hside
  rcases hside with rfl | rfl | rfl | rfl
  · simp only [Area.takeColumns, Area.right, Area.bottom] at *
    omega
  · simp only [Area.rows, Area.right, Area.bottom] at *
    omega
  · simp only [Area.dropColumns, saturate, Area.right, Area.bottom] at *
    omega
  · simp only [Area.rows, Area.right, Area.bottom] at *
    omega

/-- A border changes the rim only; what is inside the frame stays. -/
theorem draws_drawBorder {area : Area} (hempty : area.isEmpty = false) (style : Style) :
    Draws screen (Rim area) fun canvas => canvas.drawBorder area style := by
  have hsize := Area.isEmpty_eq_false_iff.1 hempty
  have hfill (side : Area) (symbol : String) (hside : side ∈ [area.takeColumns 1, area.rows 0 1,
      area.dropColumns (area.width - 1), area.rows (area.height - 1) 1]) :
      Draws screen (Rim area) fun canvas => canvas.fill side symbol style :=
    draws_modifyArea (fun _ _ => rim_of_side hside) _
  have hcorner {x y : Nat} (symbol : String) (hx : x = area.x ∨ x = area.right - 1)
      (hy : y = area.y ∨ y = area.bottom - 1) :
      Draws screen (Rim area) fun canvas => canvas.put x y symbol style := by
    refine draws_modify ?_ _
    rw [Rim, Area.contains_inside_iff, Area.contains_iff]
    simp only [Area.right, Area.bottom] at *
    omega
  have hleft := hfill (area.takeColumns 1) "│" (by simp)
  have htop := hfill (area.rows 0 1) "─" (by simp)
  have hright := hfill (area.dropColumns (area.width - 1)) "│" (by simp)
  have hbottom := hfill (area.rows (area.height - 1) 1) "─" (by simp)
  -- the sides in the order in which they are drawn, then the corners over them
  have hall := ((((((hleft.comp htop).comp hright).comp hbottom).comp
    (hcorner "┘" (.inr rfl) (.inr rfl))).comp
    (hcorner "┐" (.inr rfl) (.inl rfl))).comp
    (hcorner "└" (.inl rfl) (.inr rfl))).comp (hcorner "┌" (.inl rfl) (.inl rfl))
  exact hall.of_eq fun canvas _ => rfl

/-- A title is part of a line of the area, wherever it is aligned. -/
theorem draws_drawTitle {area : Area} {alignment : Alignment} {title : Line}
    (h : ∀ x y, area.contains x y = true → part x y) :
    Draws screen part fun canvas => canvas.drawTitle area alignment title := by
  have hline {side : Area} (alignment : Alignment)
      (hside : ∀ x y, side.contains x y = true → area.contains x y = true) :
      Draws screen part fun canvas => canvas.drawLine side alignment title :=
    draws_drawLine fun x y hxy => h x y (hside x y hxy)
  -- the other alignments cut the same line on the left or on both sides
  have hstart : Draws screen part fun canvas =>
      canvas.drawLine (area.takeColumns title.columns) .left title :=
    hline .left fun _ _ => Area.contains_of_takeColumns
  cases alignment with
  | left => exact hstart
  | right => exact hstart
  | center =>
    unfold drawTitle
    dsimp only
    split
    · exact hline .left fun _ _ hxy =>
        Area.contains_of_dropColumns (Area.contains_of_takeColumns hxy)
    · split
      · exact hline .left fun _ _ => id
      · exact hline .right fun _ _ => Area.contains_of_takeColumns

/-- A frame is drawn around the inside of its area. -/
theorem draws_drawFrame {area : Area} {frame : Frame} :
    Draws screen (Rim (area.intersect screen)) fun canvas => canvas.drawFrame area frame := by
  cases hempty : (area.intersect screen).isEmpty with
  | true => exact draws_id.of_eq fun canvas harea => by simp only [drawFrame, harea, hempty, if_true]
  | false =>
    generalize hwhole : area.intersect screen = whole at hempty
    have htitle : Draws screen (Rim whole) fun canvas =>
        canvas.drawTitle (((whole.rows 0 1).dropColumns 1).takeColumns (whole.width - 2))
          frame.alignment frame.titleLine := by
      -- the title is in the first row, which is no part of the inside
      refine draws_drawTitle fun x y hxy => ?_
      have hrow := Area.contains_of_dropColumns (Area.contains_of_takeColumns hxy)
      rw [Rim, Area.contains_inside_iff]
      rw [Area.contains_iff] at hrow ⊢
      simp only [Area.rows, Area.bottom] at *
      omega
    exact ((draws_drawBorder hempty frame.style).comp htitle).of_eq fun canvas harea => by
      simp only [drawFrame, harea, hwhole, hempty, Bool.false_eq_true, if_false]

/-! ## Drawings that are apart -/

section

variable {α : Type} {places : List α} {part : α → Nat → Nat → Prop} {draw : α → Canvas → Canvas}
  (hdraws : ∀ a ∈ places, Draws screen (part a) (draw a))

include hdraws

/-- A cell that no item of a list covers keeps what it holds. -/
theorem cell?_foldl_of_not (harea : canvas.area = screen) (h : ∀ a ∈ places, ¬ part a x y) :
    (places.foldl (fun canvas a => draw a canvas) canvas).cell? x y = canvas.cell? x y := by
  induction places generalizing canvas with
  | nil => rfl
  | cons a rest ih =>
    have ha := hdraws a (List.mem_cons_self ..)
    rw [List.foldl_cons, ih (fun b hb => hdraws b (List.mem_cons_of_mem a hb)) (ha.area_eq harea)
      fun b hb => h b (List.mem_cons_of_mem a hb), ha.cell?_of_not harea (h a (List.mem_cons_self ..))]

/-- Of drawings that are apart, each is seen as if it were the only one. -/
theorem cell?_foldl_of_apart (harea : canvas.area = screen)
    (hapart : places.Pairwise fun a b => ∀ x y, part a x y → ¬ part b x y) {a : α}
    (ha : a ∈ places) (hxy : part a x y) :
    (places.foldl (fun canvas a => draw a canvas) canvas).cell? x y =
      (draw a canvas).cell? x y := by
  induction places generalizing canvas with
  | nil => cases ha
  | cons b rest ih =>
    rw [List.pairwise_cons] at hapart
    have hb := hdraws b (List.mem_cons_self ..)
    have hrest : ∀ c ∈ rest, Draws screen (part c) (draw c) := fun c hc =>
      hdraws c (List.mem_cons_of_mem b hc)
    rw [List.foldl_cons]
    rcases List.mem_cons.1 ha with rfl | ha
    · exact cell?_foldl_of_not hrest (hb.area_eq harea) fun c hc => hapart.1 c hc x y hxy
    · -- the cell is another drawing's, so the first one leaves it as it is
      rw [ih hrest (hb.area_eq harea) hapart.2 ha]
      exact (hrest a ha).cell?_congr (hb.area_eq harea) harea
        (hb.cell?_of_not harea fun hxb => hapart.1 a ha x y hxb hxy)

end

end

end Canvas

end TagFormula.Screen
