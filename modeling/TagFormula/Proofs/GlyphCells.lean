import TagFormula.Proofs.CellwiseDrawing
import TagFormula.Screen.Wrap

/-!
# Which cell shows which glyph

A line is drawn span by span and glyph by glyph from the left, and what is drawn later may go over
what is there already. Still each glyph that has room is seen: the next one is drawn behind the columns
that it takes, and only what takes no column at all is added to its cell.

* **`cellText`**: what stands in the cell of a glyph, with what shares the cell.
* **`Canvas.Shows`**: the glyphs of a span are seen, each in its cell and in the style of the span.
* **`draws_drawGlyphs_behind`**, **`cell?_drawGlyphs_marks`**: glyphs leave alone what is to the left of
  them, but for the cell next to them, to which the first ones are added if they take no column.
* **`shows_drawSpan`**, **`shows_drawLine`**: of what is drawn from the left every span is seen.
-/

namespace TagFormula.Screen

/-- What glyphs look like when they share a cell. -/
def symbols (glyphs : List Glyph) : String :=
  String.join (glyphs.map Glyph.symbol)

/-- What stands in the cell of a glyph that takes columns, between the other glyphs of its span. What
takes no column goes into the cell to its left, and at the start of the span into the first one. -/
def cellText (before : List Glyph) (g : Glyph) (after : List Glyph) : String :=
  (if glyphColumns before = 0 then symbols before else "") ++ g.symbol ++
    if g.columns = 1 then symbols (after.takeWhile (·.columns = 0)) else ""

/-- The glyphs of a span are seen in a row from the column `x` on and up to the column `right`. Each
that takes columns stands behind the columns of those before it. If the glyphs take more columns than
the span counts, the rest of them may be drawn over. -/
def Canvas.Shows (canvas : Canvas) (x y right : Nat) (span : Span) : Prop :=
  ∀ before g after, span.glyphs = before ++ g :: after → 0 < g.columns →
    glyphColumns before < span.columns → x + glyphColumns before + g.columns ≤ right →
    ∃ under : Style, canvas.cell? (x + glyphColumns before) y =
      some ⟨cellText before g after, under.patch span.style⟩

/-- To put a style over a cell a second time changes nothing. -/
theorem Style.patch_patch (base top : Style) : (base.patch top).patch top = base.patch top := by
  have hor (a b : Option Color) : a.or (a.or b) = a.or b := by rw [← Option.or_assoc, Option.or_self]
  simp only [patch, Emphasis.union, hor, Bool.or_assoc, Bool.or_self]

@[simp] theorem symbols_nil : symbols [] = "" :=
  rfl

theorem symbols_cons (g : Glyph) (rest : List Glyph) :
    symbols (g :: rest) = g.symbol ++ symbols rest := by
  rw [symbols, List.map_cons, String.join_cons, symbols]

namespace Canvas

variable {canvas : Canvas} {screen : Area} {part : Nat → Nat → Prop} {start x y right : Nat}
  {glyphs before after rest : List Glyph} {g : Glyph} {style under : Style} {text : String}

/-- Every cell of the area has something in it. -/
theorem exists_cell? (h : canvas.area.contains x y = true) : ∃ cell, canvas.cell? x y = some cell := by
  rw [cell?, if_pos h]
  exact ⟨_, Array.getElem?_eq_getElem (index_lt h)⟩

/-- A cell that is written has the symbol, and the style over the one that was there. -/
theorem cell?_put (h : canvas.area.contains x y = true) (symbol : String) (style : Style) :
    ∃ under : Style, (canvas.put x y symbol style).cell? x y = some ⟨symbol, under.patch style⟩ := by
  obtain ⟨cell, hcell⟩ := exists_cell? h
  refine ⟨cell.style, ?_⟩
  rw [put, cell?_modify, if_pos ⟨rfl, rfl⟩, hcell]
  rfl

/-- A symbol that is added in the style which the cell has already. -/
theorem cell?_append (h : canvas.cell? x y = some ⟨text, under.patch style⟩) (symbol : String) :
    (canvas.append x y symbol style).cell? x y = some ⟨text ++ symbol, under.patch style⟩ := by
  rw [append, cell?_modify, if_pos ⟨rfl, rfl⟩, h, Option.map_some, Cell.append, Style.patch_patch]

@[simp] theorem area_wipeRow (canvas : Canvas) (x y count : Nat) :
    (canvas.wipeRow x y count).area = canvas.area := by
  have hdraws : Draws canvas.area (fun _ _ => True) fun canvas => canvas.wipeRow x y count :=
    draws_wipeRow fun _ _ => trivial
  exact hdraws.area_eq rfl

/-! ## Glyph by glyph -/

/-- The first glyph is always put, as there is no cell before it to which it could be joined. -/
theorem drawGlyphs_first (canvas : Canvas) (hroom : start + g.columns ≤ right) :
    canvas.drawGlyphs start start y right true (g :: rest) =
      ((canvas.put start y g.symbol g.style).wipeRow (start + 1) y (g.columns - 1)).drawGlyphs start
        (start + g.columns) y right false rest := by
  rw [drawGlyphs]
  simp only [if_neg (Nat.not_lt.2 hroom), if_true]

/-- Glyphs at the start of a span, behind such as take no column. -/
theorem drawGlyphs_start (canvas : Canvas) (hroom : start + g.columns ≤ right) :
    canvas.drawGlyphs start start y right false (g :: rest) =
      ((canvas.append start y g.symbol g.style).wipeRow (start + 1) y (g.columns - 1)).drawGlyphs
        start (start + g.columns) y right false rest := by
  rw [drawGlyphs]
  simp only [if_neg (Nat.not_lt.2 hroom), if_true, Bool.false_eq_true, if_false]

/-- A glyph without columns joins the cell before it, any other one gets its own. -/
theorem drawGlyphs_behind (canvas : Canvas) (hx : start < x) (hroom : x + g.columns ≤ right) :
    canvas.drawGlyphs start x y right false (g :: rest) =
      ((if g.columns = 0 then canvas.append (x - 1) y g.symbol g.style
        else canvas.put x y g.symbol g.style).wipeRow (x + 1) y (g.columns - 1)).drawGlyphs start
        (x + g.columns) y right false rest := by
  rw [drawGlyphs]
  simp only [if_neg (Nat.not_lt.2 hroom), if_neg (Nat.ne_of_gt hx), Bool.false_eq_true, if_false]

/-- Glyphs that are drawn behind a column change no cell to the left of it but the next one. -/
theorem draws_drawGlyphs_behind (hx : start < x) (hpart : ∀ c, x ≤ c + 1 → part c y) :
    Draws screen part fun canvas => canvas.drawGlyphs start x y right false glyphs := by
  induction glyphs generalizing x with
  | nil => exact draws_id
  | cons g rest ih =>
    by_cases hroom : x + g.columns ≤ right
    · have hrest : Draws screen part fun canvas =>
          canvas.drawGlyphs start (x + g.columns) y right false rest :=
        ih (by omega) fun c hc => hpart c (by omega)
      have hwipe : Draws screen part fun canvas => canvas.wipeRow (x + 1) y (g.columns - 1) :=
        draws_wipeRow fun k _ => hpart _ (by omega)
      have hput : Draws screen part fun canvas =>
          if g.columns = 0 then canvas.append (x - 1) y g.symbol g.style
          else canvas.put x y g.symbol g.style := by
        split
        · exact draws_modify (hpart _ (by omega)) _
        · exact draws_modify (hpart _ (by omega)) _
      exact ((hput.comp hwipe).comp hrest).of_eq fun canvas _ => drawGlyphs_behind canvas hx hroom
    · -- no room: the drawing ends
      exact draws_id.of_eq fun canvas _ => by
        rw [drawGlyphs]
        simp only [if_pos (Nat.lt_of_not_le hroom)]

/-- The first glyph that takes columns leaves the cell next to it alone, too. -/
theorem draws_drawGlyphs_of_pos (hx : start < x) (hg : g.columns ≠ 0)
    (hpart : ∀ c, x ≤ c → part c y) :
    Draws screen part fun canvas => canvas.drawGlyphs start x y right false (g :: rest) := by
  by_cases hroom : x + g.columns ≤ right
  · have hput : Draws screen part fun canvas => canvas.put x y g.symbol g.style :=
      draws_modify (hpart x (Nat.le_refl x)) _
    have hwipe : Draws screen part fun canvas => canvas.wipeRow (x + 1) y (g.columns - 1) :=
      draws_wipeRow fun k _ => hpart _ (by omega)
    have hrest : Draws screen part fun canvas =>
        canvas.drawGlyphs start (x + g.columns) y right false rest :=
      draws_drawGlyphs_behind (by omega) fun c hc => hpart c (by omega)
    exact ((hput.comp hwipe).comp hrest).of_eq fun canvas _ => by
      rw [drawGlyphs_behind canvas hx hroom, if_neg hg]
  · exact draws_id.of_eq fun canvas _ => by
      rw [drawGlyphs]
      simp only [if_pos (Nat.lt_of_not_le hroom)]

/-- The cell to the left of where glyphs are drawn: the first ones are added to it as long as they take
no column. -/
theorem cell?_drawGlyphs_marks (hx : start ≤ x) (hright : x + 1 ≤ right)
    (hcell : canvas.cell? x y = some ⟨text, under.patch style⟩)
    (hstyle : ∀ g ∈ glyphs, g.style = style) :
    (canvas.drawGlyphs start (x + 1) y right false glyphs).cell? x y =
      some ⟨text ++ symbols (glyphs.takeWhile (·.columns = 0)), under.patch style⟩ := by
  induction glyphs generalizing canvas text with
  | nil => rw [drawGlyphs, hcell, List.takeWhile_nil, symbols_nil, String.append_empty]
  | cons g rest ih =>
    obtain ⟨hg, hrest⟩ := List.forall_mem_cons.1 hstyle
    by_cases hcolumns : g.columns = 0
    · have happend := cell?_append hcell g.symbol
      rw [drawGlyphs_behind canvas (Nat.lt_succ_of_le hx) (by omega), if_pos hcolumns, hcolumns, hg,
        List.takeWhile_cons_of_pos (by simp [hcolumns]), symbols_cons, ← String.append_assoc]
      exact ih happend hrest
    · -- the first glyph with columns goes behind the cell, and so does all after it
      have hdraws : Draws canvas.area (fun c _ => x < c) fun canvas =>
          canvas.drawGlyphs start (x + 1) y right false (g :: rest) :=
        draws_drawGlyphs_of_pos (Nat.lt_succ_of_le hx) hcolumns fun c hc => hc
      rw [List.takeWhile_cons_of_neg (by simp [hcolumns]), symbols_nil, String.append_empty,
        hdraws.cell?_of_not rfl (Nat.lt_irrefl x), hcell]

/-- What is drawn behind a glyph leaves its cell as it is, but for glyphs without a column that follow
a narrow one directly. -/
theorem cell?_behind_glyph (hx : start ≤ x) (hg : 0 < g.columns) (hroom : x + g.columns ≤ right)
    (hcell : canvas.cell? x y = some ⟨text, under.patch style⟩)
    (hstyle : ∀ g ∈ after, g.style = style) :
    ((canvas.wipeRow (x + 1) y (g.columns - 1)).drawGlyphs start (x + g.columns) y right false
        after).cell? x y =
      some ⟨text ++ if g.columns = 1 then symbols (after.takeWhile (·.columns = 0)) else "",
        under.patch style⟩ := by
  by_cases hone : g.columns = 1
  · rw [hone, if_pos rfl]
    rw [hone] at hroom
    exact cell?_drawGlyphs_marks hx hroom hcell hstyle
  · have hwipe : Draws canvas.area (fun c _ => x < c) fun canvas =>
        canvas.wipeRow (x + 1) y (g.columns - 1) := draws_wipeRow fun k _ => by omega
    have hrest : Draws canvas.area (fun c _ => x < c) fun canvas =>
        canvas.drawGlyphs start (x + g.columns) y right false after :=
      draws_drawGlyphs_behind (by omega) fun c hc => by omega
    rw [(hwipe.comp hrest).cell?_of_not rfl (Nat.lt_irrefl x), hcell, if_neg hone,
      String.append_empty]

/-- The glyph is seen that is drawn behind the start of a span, whatever is drawn before it. -/
theorem cell?_drawGlyphs_behind (hx : start ≤ x) (hbehind : start < x + glyphColumns before)
    (hg : 0 < g.columns) (hroom : x + glyphColumns before + g.columns ≤ right)
    (hcontains : canvas.area.contains (x + glyphColumns before) y = true)
    (hstyle : ∀ h ∈ before ++ g :: after, h.style = style) :
    ∃ under : Style, (canvas.drawGlyphs start x y right false (before ++ g :: after)).cell?
        (x + glyphColumns before) y =
      some ⟨g.symbol ++ if g.columns = 1 then symbols (after.takeWhile (·.columns = 0)) else "",
        under.patch style⟩ := by
  induction before generalizing canvas x with
  | nil =>
    obtain ⟨hgstyle, hafter⟩ := List.forall_mem_cons.1 hstyle
    rw [glyphColumns_nil, Nat.add_zero] at *
    -- what is put into the cell now stays there, but for the marks behind it
    obtain ⟨under, hput⟩ := cell?_put hcontains g.symbol g.style
    refine ⟨under, ?_⟩
    rw [List.nil_append, drawGlyphs_behind canvas hbehind hroom, if_neg (Nat.ne_of_gt hg)]
    rw [hgstyle] at hput ⊢
    exact cell?_behind_glyph hx hg hroom hput hafter
  | cons b rest ih =>
    have hrest := (List.forall_mem_cons.1 hstyle).2
    rw [glyphColumns_cons, ← Nat.add_assoc] at hbehind hroom hcontains ⊢
    have hb : x + b.columns ≤ right := by omega
    by_cases hstart : x = start
    · -- still in the first cell, as all glyphs so far take no column
      subst hstart
      rw [List.cons_append, drawGlyphs_start canvas hb]
      refine ih (by omega) (by omega) (by omega) ?_ hrest
      rw [area_wipeRow, append, area_modify]
      exact hcontains
    · rw [List.cons_append, drawGlyphs_behind canvas (by omega) hb]
      refine ih (by omega) (by omega) (by omega) ?_ hrest
      have harea : (if b.columns = 0 then canvas.append (x - 1) y b.symbol b.style
          else canvas.put x y b.symbol b.style).area = canvas.area := by
        split <;> exact area_modify ..
      rw [area_wipeRow, harea]
      exact hcontains

/-- At the start of a span the glyphs that take no column share the cell of the first one that does. -/
theorem cell?_drawGlyphs_start (hzero : glyphColumns before = 0) (hg : 0 < g.columns)
    (hroom : start + g.columns ≤ right)
    (hcell : canvas.cell? start y = some ⟨text, under.patch style⟩)
    (hstyle : ∀ h ∈ before ++ g :: after, h.style = style) :
    (canvas.drawGlyphs start start y right false (before ++ g :: after)).cell? start y =
      some ⟨text ++ symbols before ++ g.symbol ++
        if g.columns = 1 then symbols (after.takeWhile (·.columns = 0)) else "",
        under.patch style⟩ := by
  induction before generalizing canvas text with
  | nil =>
    obtain ⟨hgstyle, hafter⟩ := List.forall_mem_cons.1 hstyle
    have happend := cell?_append hcell g.symbol
    rw [List.nil_append, drawGlyphs_start canvas hroom, symbols_nil, String.append_empty, hgstyle]
    exact cell?_behind_glyph (Nat.le_refl start) hg hroom happend hafter
  | cons b rest ih =>
    obtain ⟨hb, hrest⟩ := List.forall_mem_cons.1 hstyle
    rw [glyphColumns_cons, Nat.add_eq_zero_iff] at hzero
    obtain ⟨hcolumns, hzero⟩ := hzero
    have happend := cell?_append hcell b.symbol
    rw [List.cons_append, drawGlyphs_start canvas (by omega), hcolumns, hb, symbols_cons,
      ← String.append_assoc]
    exact ih hzero happend hrest

/-- Each glyph of a span that takes columns is seen in its cell. -/
theorem cell?_drawGlyphs (hg : 0 < g.columns)
    (hroom : start + glyphColumns before + g.columns ≤ right)
    (hcontains : ∀ c, start ≤ c → c < right → canvas.area.contains c y = true)
    (hstyle : ∀ h ∈ before ++ g :: after, h.style = style) :
    ∃ under : Style, (canvas.drawGlyphs start start y right true (before ++ g :: after)).cell?
        (start + glyphColumns before) y = some ⟨cellText before g after, under.patch style⟩ := by
  cases before with
  | nil =>
    obtain ⟨hgstyle, hafter⟩ := List.forall_mem_cons.1 hstyle
    rw [glyphColumns_nil, Nat.add_zero] at hroom ⊢
    obtain ⟨under, hput⟩ := cell?_put (hcontains start (Nat.le_refl _) (by omega)) g.symbol style
    refine ⟨under, ?_⟩
    rw [List.nil_append, drawGlyphs_first canvas hroom, hgstyle, cellText, glyphColumns_nil,
      if_pos rfl, symbols_nil, String.empty_append]
    exact cell?_behind_glyph (Nat.le_refl start) hg hroom hput hafter
  | cons b rest =>
    obtain ⟨hb, hrest⟩ := List.forall_mem_cons.1 hstyle
    rw [glyphColumns_cons, ← Nat.add_assoc] at hroom ⊢
    rw [List.cons_append, drawGlyphs_first canvas (by omega), cellText, glyphColumns_cons]
    -- the glyphs before may all be in the first cell, and then they share it
    by_cases hzero : b.columns + glyphColumns rest = 0
    · obtain ⟨hcolumns, hrestZero⟩ := Nat.add_eq_zero_iff.1 hzero
      obtain ⟨under, hput⟩ := cell?_put (hcontains start (Nat.le_refl _) (by omega)) b.symbol style
      refine ⟨under, ?_⟩
      rw [if_pos hzero, hcolumns, hrestZero, hb, symbols_cons]
      exact cell?_drawGlyphs_start hrestZero hg (by omega) hput hrest
    · rw [if_neg hzero, String.empty_append]
      refine cell?_drawGlyphs_behind (by omega) (by omega) hg hroom ?_ hrest
      rw [area_wipeRow, put, area_modify]
      exact hcontains _ (by omega) (by omega)

/-! ## Spans and lines -/

/-- All glyphs of a span have its style. -/
theorem style_of_mem_glyphs {span : Span} {g : Glyph} (h : g ∈ span.glyphs) : g.style = span.style := by
  rw [Span.glyphs, glyphsOf] at h
  obtain ⟨cluster, _, rfl⟩ := List.mem_map.1 h
  rfl

variable {area : Area} {span : Span}

/-- A span that is drawn into an area of the screen is seen there from the left. -/
theorem shows_drawSpan (hwithin : area.Within canvas.area) (hheight : 0 < area.height) :
    (canvas.drawSpan area span).Shows area.x area.y area.right span := by
  intro before g after hglyphs hg _ hroom
  have hempty : area.isEmpty = false := by
    rw [Area.right] at hroom
    exact Area.isEmpty_eq_false_iff.2 ⟨by omega, hheight⟩
  have hstyle : ∀ h ∈ before ++ g :: after, h.style = span.style := by
    rw [← hglyphs]
    exact fun h hmem => style_of_mem_glyphs hmem
  have hcontains (c : Nat) (hc : area.x ≤ c) (hright : c < area.right) :
      canvas.area.contains c area.y = true := by
    refine hwithin.contains (Area.contains_iff.2 ?_)
    rw [Area.right] at hright
    omega
  rw [drawSpan, Area.intersect_eq_left hwithin, hempty, hglyphs]
  exact cell?_drawGlyphs hg hroom hcontains hstyle

/-- What a span is seen by are the cells of the row up to the last column. -/
theorem Shows.congr {canvas' : Canvas} (h : canvas.Shows x y right span)
    (hcell : ∀ c, x ≤ c → c < right → canvas.cell? c y = canvas'.cell? c y) :
    canvas'.Shows x y right span := by
  intro before g after hglyphs hg hcolumns hroom
  rw [← hcell _ (Nat.le_add_right ..) (by omega)]
  exact h before g after hglyphs hg hcolumns hroom

/-- What is drawn behind the columns of a span leaves the span as it is seen. -/
theorem Shows.of_draws {draw : Canvas → Canvas} (h : canvas.Shows x y right span)
    (hdraws : Draws canvas.area (fun c _ => x + span.columns ≤ c) draw) :
    (draw canvas).Shows x y right span := by
  intro before g after hglyphs hg hcolumns hroom
  obtain ⟨under, hcell⟩ := h before g after hglyphs hg hcolumns hroom
  refine ⟨under, ?_⟩
  rw [hdraws.cell?_of_not rfl (by omega), hcell]

/-- Where there is no room nothing has to be seen. -/
theorem shows_of_le (h : right ≤ x) : canvas.Shows x y right span :=
  fun _ _ _ _ hg _ hroom => by omega

/-- In an area without columns there is nothing to be seen of a span. -/
theorem shows_of_width {columns : Nat} (h : area.width = 0) :
    canvas.Shows (area.x + columns) y area.right span := by
  apply shows_of_le
  rw [Area.right, h]
  exact Nat.add_le_add_left (Nat.zero_le columns) _

/-- Of the spans that are drawn beside each other each is seen behind the columns of those before it. -/
theorem shows_drawSpans {front back : List Span} (hwithin : area.Within canvas.area)
    (hheight : 0 < area.height) :
    (canvas.drawSpans area (front ++ span :: back)).Shows (area.x + Line.columns front) area.y
      area.right span := by
  by_cases hwidth : area.width = 0
  · exact shows_of_width hwidth
  have hempty : area.isEmpty = false :=
    Area.isEmpty_eq_false_iff.2 ⟨Nat.pos_of_ne_zero hwidth, hheight⟩
  induction front generalizing canvas area with
  | nil =>
    rw [List.nil_append, drawSpans, hempty, if_neg Bool.false_ne_true]
    -- the spans behind this one begin where it ends, and do not touch its cells
    refine Shows.of_draws (shows_drawSpan hwithin hheight) (draws_drawSpans fun c r hc => ?_)
    have := area.right_le
    rw [Area.contains_iff] at hc
    simp only [Area.dropColumns, saturate] at hc
    show area.x + span.columns ≤ c
    omega
  | cons first front ih =>
    have hcolumns : Line.columns (first :: front) = first.columns + Line.columns front := rfl
    rw [List.cons_append, drawSpans, hempty, if_neg Bool.false_ne_true, hcolumns, ← Nat.add_assoc]
    by_cases hroom : area.width ≤ first.columns
    · -- the first span takes the whole width
      refine shows_of_le ?_
      rw [Area.right]
      omega
    · -- there are columns left behind the first span, and they begin where it ends
      have hfirst : first.columns ≤ area.width := Nat.le_of_not_le hroom
      have hleft : 0 < (area.dropColumns first.columns).width := by
        show 0 < area.width - first.columns
        omega
      have hdraws : Draws canvas.area (fun _ _ => True) fun canvas => canvas.drawSpan area first :=
        draws_drawSpan fun _ _ _ => trivial
      rw [← Area.x_dropColumns hfirst, ← Area.right_dropColumns hfirst]
      refine ih ?_ hheight (Nat.ne_of_gt hleft) (Area.isEmpty_eq_false_iff.2 ⟨hleft, hheight⟩)
      rw [hdraws.area_eq rfl]
      exact (Area.dropColumns_within hfirst).trans hwithin

/-- A line from which nothing is cut only loses the spans that take no column. -/
theorem skip_zero (line : Line) : line.skip 0 = (0, line.filter (0 < ·.columns)) := by
  induction line with
  | nil => rfl
  | cons span rest ih =>
    rw [Line.skip]
    by_cases hcolumns : span.columns = 0
    · rw [if_pos (Nat.le_of_eq hcolumns), hcolumns, Nat.sub_zero, ih,
        List.filter_cons_of_neg (by simp [hcolumns])]
    · rw [if_neg (by omega), if_pos rfl, List.filter_cons_of_pos (by simp; omega)]

theorem columns_filter (line : Line) :
    Line.columns (line.filter (0 < ·.columns)) = line.columns := by
  induction line with
  | nil => rfl
  | cons span rest ih =>
    have hcolumns : Line.columns (span :: rest) = span.columns + Line.columns rest := rfl
    by_cases hzero : span.columns = 0
    · rw [List.filter_cons_of_neg (by simp [hzero]), ih, hcolumns, hzero, Nat.zero_add]
    · rw [List.filter_cons_of_pos (by simp; omega), hcolumns, ← ih]
      rfl

/-- Of a line that is drawn from the left each span is seen behind the columns of those before it. -/
theorem shows_drawLine {front back : Line} (hwithin : area.Within canvas.area)
    (hheight : 0 < area.height) :
    (canvas.drawLine area .left (front ++ span :: back)).Shows (area.x + front.columns) area.y
      area.right span := by
  by_cases hspan : span.columns = 0
  · intro before g after _ _ hcolumns
    omega
  · have hfilter : (front ++ span :: back).filter (0 < ·.columns) =
        front.filter (0 < ·.columns) ++ span :: back.filter (0 < ·.columns) := by
      rw [List.filter_append, List.filter_cons_of_pos (by simp; omega)]
    rw [drawLine, Area.intersect_eq_left hwithin, ← columns_filter]
    simp only [skip_zero, hfilter, Nat.add_zero, Area.dropColumns_zero]
    by_cases hwidth : area.width = 0
    · exact shows_of_width hwidth
    · rw [Area.isEmpty_eq_false_iff.2 ⟨Nat.pos_of_ne_zero hwidth, hheight⟩]
      exact shows_drawSpans hwithin hheight

end Canvas

end TagFormula.Screen
