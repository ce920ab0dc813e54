import TagFormula.Proofs.CalculatorRun
import TagFormula.Proofs.CellwiseDrawing
import TagFormula.Proofs.NoticeText
import TagFormula.Proofs.WordArithmetic

/-!
# The rows of a notice

A notice keeps as many rows for its text as the characters of the text fill, but the text is wrapped
between words, and a line that ends early takes columns that were counted for the next one. So there can
be one line more than rows, and then the last line is not seen.

* **`Notice.lt_textRows_iff`**: the rows, told without a quotient.
* **`Notice.Suffices`**: where the rows of a notice are enough for its lines.
* **`Notice.linesFor_of_second_line`**, **`Notice.linesFor_of_break`**: words on two lines, and words for
  which the end of the first line is known.
* **`Notice.unexpected_lines`** and the lemmas beside it: the lines of each kind of notice. A refused number can
  be of any length; the other notices differ in the digits of a position only.
* **`Session.notice_rows_suffice_iff`**: the notice of a calculation that fails.
-/

namespace TagFormula

open Screen Text

namespace Notice

/-! ## The rows -/

/-- There is a row behind some lines if these do not take all characters. -/
theorem lt_textRows_iff {text : String} (hne : 0 < text.length) (hshort : text.length + 4 ≤ limit)
    (width lines : Nat) :
    lines < textRows text width ↔ lines * textColumns width < text.length := by
  have hwanted : wantedWidth text - 4 = text.length := by
    rw [wantedWidth, saturate_of_le (Nat.le_trans (Nat.le_add_right _ 4) hshort),
      saturate_of_le hshort, Nat.add_sub_cancel]
  have hcolumns : 0 < textColumns width := Nat.lt_of_lt_of_le Nat.one_pos (Nat.le_max_right ..)
  have hquotient : lines + 1 ≤ (text.length + textColumns width - 1) / textColumns width ↔
      lines * textColumns width < text.length := by
    rw [Nat.le_div_iff_mul_le hcolumns, Nat.add_mul, Nat.one_mul]
    omega
  rw [textRows, hwanted, ← hquotient]
  constructor
  · intro h
    rcases Nat.eq_zero_or_pos lines with rfl | hpos
    · -- a text that is not empty takes a row
      rw [hquotient, Nat.zero_mul]
      exact hne
    · omega
  · intro h
    omega

/-- The columns for a text that is not short, on a screen that is large enough. -/
theorem le_textColumns {text : String} (hlong : 36 ≤ text.length) {screen : Nat}
    (hscreen : smallestWidth ≤ screen) : 32 ≤ textColumns (width text screen) := by
  have hwanted : 40 ≤ wantedWidth text :=
    le_saturate (Nat.add_le_add_right (le_saturate hlong (by decide)) 4) (by decide)
  simp only [textColumns, width, smallestWidth] at *
  omega

/-! ## The lines -/

/-- The rows of a notice are enough. A refused token goes on the first line if there is room, else it
takes lines of its own, and the words behind it need their columns on the last of these or the row of
another line. In the other two notices with a position, it does not fit on the second line if two rows are
kept and the words before it take too much of that line. -/
def Suffices (columns : Nat) : FormulaError Float → Prop
  | .unexpected lexeme position =>
    let quoted := lexeme.text.length + 2
    let digits := (Nat.toDigits 10 position).length
    let last := (quoted - 1) % columns + 1
    quoted + 31 ≤ columns ∨
      columns < last + 44 + digits ∧
        (last + 13 + digits ≤ columns ∨ 2 * columns < last + 44 + digits)
  | .tooDeep position =>
    let digits := (Nat.toDigits 10 position).length
    ¬ (digits + 64 ≤ 2 * columns ∧ columns < digits + if columns < 40 then 30 else 23)
  | .unbalanced position =>
    let digits := (Nat.toDigits 10 position).length
    ¬ (digits + 55 ≤ 2 * columns ∧ columns < min 42 (digits + 24))
  | _ => True

/-- A token and its position that are not long need no more rows than are kept. -/
theorem suffices_of_short {lexeme : Lexeme Float} {position columns : Nat} (hcolumns : 32 ≤ columns)
    (hshort : lexeme.text.length + (Nat.toDigits 10 position).length ≤ 17) :
    Suffices columns (.unexpected lexeme position) := by
  have hlast : (lexeme.text.length + 2 - 1) % columns = lexeme.text.length + 2 - 1 :=
    Nat.mod_eq_of_lt (by omega)
  simp only [Suffices, hlast]
  omega

/-- Words finish a number of lines that leaves their characters a row for the line begun if rows are
enough, and a row for the last line finished in any case. -/
structure LinesFor (columns : Nat) (words : List Nat) (enough : Prop) : Prop where
  enough_iff : (words.foldl (Filling.word columns) {}).finished * columns + 1 < spread words ↔ enough
  but_one : ((words.foldl (Filling.word columns) {}).finished - 1) * columns + 1 < spread words

section

variable {columns first : Nat} {words : List Nat} {enough enough' : Prop}

theorem LinesFor.congr (h : LinesFor columns words enough) (hiff : enough ↔ enough') :
    LinesFor columns words enough' :=
  ⟨h.enough_iff.trans hiff, h.but_one⟩

/-- All words are on the first line, or some of them are on a second one. A text that needs a second line
has the characters for a second row. -/
theorem linesFor_of_second_line (k : Nat) (hpos : ∀ c ∈ first :: words, 0 < c)
    (hline : first + spread (words.take k) ≤ columns) (hrest : spread (words.drop k) ≤ columns + 1)
    (henough : enough) : LinesFor columns (first :: words) enough := by
  obtain ⟨hfirst, hpos⟩ := List.forall_mem_cons.1 hpos
  have hfinished := Filling.finished_foldl_word k (f := ⟨0, first⟩) hfirst hpos hline hrest
  have hspread := spread_cons first words
  rw [← Filling.foldl_word_of_first (Nat.le_trans (Nat.le_add_right ..) hline)] at hfinished
  have hrows : ((first :: words).foldl (Filling.word columns) {}).finished * columns + 1 <
      spread (first :: words) := by
    rw [hfinished]
    simp only
    split <;> omega
  refine ⟨iff_of_true hrows henough, Nat.lt_of_le_of_lt ?_ hrows⟩
  exact Nat.succ_le_succ (Nat.mul_le_mul_right columns (Nat.sub_le ..))

/-- The first line ends behind `j` words more, and the others need a third line unless all of them have
room on the second. The rows are enough if they have, or if the characters ask for a third row. -/
theorem linesFor_of_break (j k : Nat) (hpos : ∀ c ∈ first :: words, 0 < c)
    (hline : first + spread (words.take j) ≤ columns)
    (hbreak : columns < first + spread (words.take (j + 1)))
    (hsecond : spread ((words.drop j).take (k + 1)) ≤ columns + 1)
    (hrest : spread (words.drop (j + (k + 1))) ≤ columns + 1) :
    LinesFor columns (first :: words)
      (spread (words.drop j) ≤ columns + 1 ∨ 2 * columns + 1 < spread (first :: words)) := by
  obtain ⟨hfirst, hpos⟩ := List.forall_mem_cons.1 hpos
  have hfinished :=
    Filling.finished_foldl_word_of_break j k (f := ⟨0, first⟩) hfirst hpos hline hbreak hsecond hrest
  have hspread := spread_cons first words
  have hsplit : spread words = spread (words.take (j + 1)) + spread (words.drop (j + 1)) := by
    rw [← spread_append, List.take_append_drop]
  rw [← Filling.foldl_word_of_first (Nat.le_trans (Nat.le_add_right ..) hline)] at hfinished
  simp only at hfinished
  split at hfinished
  · constructor <;> rw [hfinished] <;> omega
  · constructor <;> rw [hfinished] <;> omega

end

section

variable {columns position : Nat} (hcolumns : 32 ≤ columns)

include hcolumns

/-- The words before a refused token take thirty columns of the first line. -/
theorem foldl_word_unexpected (lexeme : Lexeme Float) (position : Nat) :
    (FormulaError.unexpected lexeme position).columns.foldl (Filling.word columns) {} =
      ((FormulaError.unexpected lexeme position).columns.drop 4).foldl (Filling.word columns)
        (Filling.place columns 0 31 (lexeme.text.length + 2)) := by
  have hlead : 7 + spread (((FormulaError.unexpected lexeme position).columns.drop 1).take 2) ≤
      columns := by
    simp only [FormulaError.columns, List.take, List.drop, spread]
    omega
  rw [FormulaError.columns, Filling.foldl_word_of_first (by omega)]
  exact Filling.foldl_word_drop (f := ⟨0, 7⟩) (Nat.succ_pos 6) hlead

/-- The words behind a refused token take the rest of its line, or one line more. -/
theorem finished_foldl_position {f : Filling} (hused : 0 < f.used) (hline : f.used ≤ columns)
    (hdigits : (Nat.toDigits 10 position).length ≤ 20) (lexeme : Lexeme Float) :
    (((FormulaError.unexpected lexeme position).columns.drop 4).foldl
        (Filling.word columns) f).finished =
      if f.used + 13 + (Nat.toDigits 10 position).length ≤ columns then f.finished
      else f.finished + 1 := by
  have hspread : f.used + 13 + (Nat.toDigits 10 position).length =
      f.used + spread ((FormulaError.unexpected lexeme position).columns.drop 4) := by
    simp only [FormulaError.columns, List.drop, spread]
    omega
  rw [hspread]
  refine Filling.finished_foldl_word 0 hused (fun c hc => ?_) hline ?_
  · exact FormulaError.columns_pos (.unexpected lexeme position) c (List.mem_of_mem_drop hc)
  · rw [List.drop_zero]
    omega

/-- The lines of such a notice, by the place of the token: its position may go on a line of its own. -/
theorem finished_unexpected {lexeme : Lexeme Float} {lines last : Nat}
    (hplace : Filling.place columns 0 31 (lexeme.text.length + 2) = ⟨lines, last⟩)
    (hpos : 0 < last) (hline : last ≤ columns) (hdigits : (Nat.toDigits 10 position).length ≤ 20) :
    ((FormulaError.unexpected lexeme position).columns.foldl (Filling.word columns) {}).finished =
      if last + 13 + (Nat.toDigits 10 position).length ≤ columns then lines else lines + 1 := by
  rw [foldl_word_unexpected hcolumns, hplace]
  exact finished_foldl_position hcolumns hpos hline hdigits lexeme

/-- The lines of a notice about a token that may not stand where it does. -/
theorem unexpected_lines (lexeme : Lexeme Float)
    (hdigits : (Nat.toDigits 10 position).length ≤ 20) :
    LinesFor columns (FormulaError.unexpected lexeme position).columns
      (Suffices columns (.unexpected lexeme position)) := by
  have hspread : spread (FormulaError.unexpected lexeme position).columns =
      lexeme.text.length + 2 + 45 + (Nat.toDigits 10 position).length := by
    simp only [FormulaError.columns, spread]
    omega
  simp only [Suffices]
  by_cases hfirst : 31 + (lexeme.text.length + 2) ≤ columns
  · -- all on the first line, or the words behind the token on the second
    have hfinished :=
      finished_unexpected hcolumns (Filling.place_of_le hfirst) (by omega) hfirst hdigits
    split at hfinished
    · constructor <;> rw [hfinished, hspread] <;> omega
    · constructor <;> rw [hfinished, hspread] <;> omega
  · -- the token starts the second line, fills whole lines, and ends on the last one
    obtain ⟨whole, hplace, hsplit⟩ :=
      Filling.exists_place_of_lt (Nat.succ_pos 30) (Nat.succ_pos _) (Nat.lt_of_not_le hfirst)
    have hline : (lexeme.text.length + 2 - 1) % columns + 1 ≤ columns := Nat.mod_lt _ (by omega)
    have hfinished := finished_unexpected hcolumns hplace (Nat.succ_pos _) hline hdigits
    generalize (lexeme.text.length + 2 - 1) % columns + 1 = last at hsplit hline hfinished ⊢
    have hone : (0 + 1 + whole) * columns = columns + whole * columns := by
      rw [Nat.zero_add, Nat.add_mul, Nat.one_mul]
    have htwo : (0 + 1 + whole + 1) * columns = 2 * columns + whole * columns := by
      rw [Nat.zero_add, Nat.add_right_comm, Nat.add_mul]
    split at hfinished
    · constructor
      · rw [hfinished, hspread, hone]
        omega
      · rw [hfinished, hspread, Nat.zero_add, Nat.add_sub_cancel_left]
        omega
    · constructor
      · rw [hfinished, hspread, htwo]
        omega
      · rw [hfinished, hspread, Nat.add_sub_cancel, hone]
        omega

/-- The lines of a notice about nesting that is too deep. A narrow screen breaks the first line before
its fourth word, a wide one behind its sixth. -/
theorem tooDeep_lines (hdigits : (Nat.toDigits 10 position).length ≤ 20) :
    LinesFor columns (FormulaError.columns (.tooDeep position))
      (Suffices columns (.tooDeep position)) := by
  have hpos := FormulaError.columns_pos (.tooDeep position)
  simp only [Suffices]
  obtain h | h | h | h :
      columns = 32 ∨ 33 ≤ columns ∧ columns < 40 ∨ 40 ≤ columns ∧ columns < 44 ∨ 44 ≤ columns := by
    omega
  · have hdigit : 0 < (Nat.toDigits 10 position).length := List.length_pos_iff.2 Nat.toDigits_ne_nil
    rw [if_pos (by omega)]
    refine (linesFor_of_break 2 5 hpos ?_ ?_ ?_ ?_).congr ?_ <;>
      simp only [List.take, List.drop, spread] <;> omega
  · rw [if_pos h.2]
    refine (linesFor_of_break 3 2 hpos ?_ ?_ ?_ ?_).congr ?_ <;>
      simp only [List.take, List.drop, spread] <;> omega
  · rw [if_neg (Nat.not_lt.2 h.1)]
    refine (linesFor_of_break 4 0 hpos ?_ ?_ ?_ ?_).congr ?_ <;>
      simp only [List.take, List.drop, spread] <;> omega
  · rw [if_neg (by omega)]
    refine linesFor_of_second_line 5 hpos ?_ ?_ (by omega) <;>
      simp only [List.take, List.drop, spread] <;> omega

/-- The lines of a notice about a parenthesis that stands alone. -/
theorem unbalanced_lines (hdigits : (Nat.toDigits 10 position).length ≤ 20) :
    LinesFor columns (FormulaError.columns (.unbalanced position))
      (Suffices columns (.unbalanced position)) := by
  have hpos := FormulaError.columns_pos (.unbalanced position)
  simp only [Suffices]
  by_cases h : columns < 42
  · refine (linesFor_of_break 2 0 hpos ?_ ?_ ?_ ?_).congr ?_ <;>
      simp only [List.take, List.drop, spread] <;> omega
  · refine linesFor_of_second_line 3 hpos ?_ ?_ (by omega) <;>
      simp only [List.take, List.drop, spread] <;> omega

/-- A text that is always the same. It breaks at three places, by the width of the screen. -/
theorem unexpectedEnd_lines : LinesFor columns (FormulaError.columns .unexpectedEnd) True := by
  have hpos := FormulaError.columns_pos .unexpectedEnd
  obtain h | h | h : columns < 34 ∨ 34 ≤ columns ∧ columns < 37 ∨ 37 ≤ columns := by
    omega
  · refine (linesFor_of_break 2 4 hpos ?_ ?_ ?_ ?_).congr (iff_true_intro ?_) <;>
      simp only [List.take, List.drop, spread] <;> omega
  · refine (linesFor_of_break 3 2 hpos ?_ ?_ ?_ ?_).congr (iff_true_intro ?_) <;>
      simp only [List.take, List.drop, spread] <;> omega
  · refine linesFor_of_second_line 4 hpos ?_ ?_ trivial <;>
      simp only [List.take, List.drop, spread] <;> omega

theorem empty_lines : LinesFor columns (FormulaError.columns .empty) True := by
  refine linesFor_of_second_line 2 (FormulaError.columns_pos .empty) ?_ ?_ trivial <;>
    simp only [List.take, List.drop, spread] <;> omega

theorem divisionByZero_lines : LinesFor columns (FormulaError.columns .divisionByZero) True := by
  refine linesFor_of_second_line 2 (FormulaError.columns_pos .divisionByZero) ?_ ?_ trivial <;>
    simp only [List.take, List.drop, spread] <;> omega

/-- A number that is not finite is written with three or four characters. -/
theorem nonFinite_lines {value : Float} (h : value.isFinite = false) :
    LinesFor columns (FormulaError.columns (.nonFinite value)) True := by
  have hwritten : (NumberFormat.plain.write value).length ≤ 4 := by
    rcases NumberFormat.write_of_not_isFinite h with h | h | h <;> rw [h] <;> decide
  refine linesFor_of_second_line 3 (FormulaError.columns_pos (.nonFinite value)) ?_ ?_ trivial <;>
    simp only [List.take, List.drop, spread] <;> omega

end

/-- The lines of the notice of a calculation. Positions have at most twenty digits. -/
theorem linesFor_notice {e : FormulaError Float} {columns : Nat} (hstage : e.stage ≠ .lexing)
    (hcolumns : 32 ≤ columns)
    (hposition : ∀ position, e.position? = some position → position < 10 ^ 20)
    (hvalue : ∀ value, e = .nonFinite value → value.isFinite = false) :
    LinesFor columns e.columns (Suffices columns e) := by
  have hdigits {position : Nat} (h : e.position? = some position) :
      (Nat.toDigits 10 position).length ≤ 20 :=
    FormulaError.length_position_le (hposition position h)
  cases e with
  | unknownCharacter | invalidNumber => exact absurd rfl hstage
  | empty => exact empty_lines hcolumns
  | unexpected lexeme position => exact unexpected_lines hcolumns lexeme (hdigits rfl)
  | unexpectedEnd => exact unexpectedEnd_lines hcolumns
  | tooDeep position => exact tooDeep_lines hcolumns (hdigits rfl)
  | unbalanced position => exact unbalanced_lines hcolumns (hdigits rfl)
  | divisionByZero => exact divisionByZero_lines hcolumns
  | nonFinite value => exact nonFinite_lines hcolumns (hvalue value rfl)

/-! ## Drawing -/

/-- Rows below the area are not drawn. -/
theorem drawRows_take (canvas : Canvas) (area : Area) (alignment : Screen.Alignment) (y : Nat)
    (rows : List (List Glyph)) :
    canvas.drawRows area alignment y rows =
      canvas.drawRows area alignment y (rows.take (area.bottom - y)) := by
  induction rows generalizing canvas y with
  | nil => rw [List.take_nil]
  | cons row rest ih =>
    by_cases hbelow : area.bottom ≤ y
    · rw [Nat.sub_eq_zero_of_le hbelow, List.take_zero]
      exact if_pos hbelow
    · have hrows : area.bottom - y = area.bottom - (y + 1) + 1 := by omega
      rw [hrows, List.take_succ_cons, Canvas.drawRows, if_neg hbelow, Canvas.drawRows, if_neg hbelow]
      exact ih ..

/-- Where the text of a notice stands on a screen. -/
def textArea (text : String) (screen : Area) : Area :=
  (noticeArea text screen).inside.withoutSides.rows 1 (textRows text (width text screen.width))

/-- A notice for which there is room has its whole width and height. -/
theorem noticeArea_of_fits {text : String} {screen : Area}
    (hfits : textRows text (width text screen.width) + 6 ≤ screen.height) :
    (noticeArea text screen).Within screen ∧
      (noticeArea text screen).width = width text screen.width ∧
      (noticeArea text screen).height = textRows text (width text screen.width) + 6 := by
  have hright := screen.right_le
  have hbottom := screen.bottom_le
  have hwidth : width text screen.width ≤ screen.width :=
    Nat.le_trans (Nat.min_le_right ..) (Nat.sub_le ..)
  have hheight : height text (width text screen.width) =
      textRows text (width text screen.width) + 6 := by
    rw [height, toWord, Nat.mod_eq_of_lt (by omega)]
  simp only [noticeArea, hheight]
  generalize width text screen.width = columns at hwidth hfits ⊢
  generalize textRows text columns + 6 = rows at hfits ⊢
  -- half of what is left over goes before the notice
  have hcut : (screen.width - columns) / 2 ≤ screen.width := by omega
  refine ⟨?_, ?_, ?_⟩
  · exact (Area.rows_within ..).trans
      ((Area.takeColumns_within ..).trans (Area.dropColumns_within hcut))
  · show min columns (screen.width - (screen.width - columns) / 2) = columns
    omega
  · show min rows (screen.height - (screen.height - rows) / 2) = rows
    omega

/-- If the notice fits, its text has the columns and the rows that were reckoned. -/
theorem textArea_of_fits {text : String} {screen : Area} (hscreen : smallestWidth ≤ screen.width)
    (hfits : textRows text (width text screen.width) + 6 ≤ screen.height) :
    (textArea text screen).Within screen ∧
      (textArea text screen).width = textColumns (width text screen.width) ∧
      (textArea text screen).height = textRows text (width text screen.width) := by
  obtain ⟨hwithin, hwidth, hheight⟩ := noticeArea_of_fits hfits
  have hwide : 30 ≤ width text screen.width := by
    simp only [width, smallestWidth] at *
    omega
  have hsides : 2 ≤ (noticeArea text screen).inside.width := by
    rw [Area.width_inside, hwidth]
    omega
  obtain ⟨hinner, hcolumns, hrows⟩ := Area.withoutSides_of_le hsides
  refine ⟨(Area.rows_within ..).trans (hinner.trans ((Area.inside_within _).trans hwithin)), ?_, ?_⟩
  · rw [textArea, Area.width_rows, hcolumns, Area.width_inside, hwidth, textColumns, Nat.sub_sub]
    exact (Nat.max_eq_left (by omega)).symm
  · rw [textArea, Area.height_rows, hrows, Area.height_inside, hheight]
    omega

/-- The frame of a notice, with nothing in it. -/
def framed (canvas : Canvas) (screen : Area) (title text : String) : Canvas :=
  (canvas.wipe (noticeArea text screen)).drawFrame (noticeArea text screen)
    { title := s!" {title} ", alignment := .center,
      style := Theme.alert.patch { emphasis := { bold := true } } }

theorem area_framed {canvas : Canvas} {screen : Area} (h : canvas.area = screen)
    (title text : String) : (framed canvas screen title text).area = screen := by
  have hwiped : (canvas.wipe (noticeArea text screen)).area = screen :=
    (Canvas.draws_modifyArea (fun _ _ => id) _).area_eq h
  exact Canvas.draws_drawFrame.area_eq hwiped

/-- Draw a notice with rows of glyphs as its text. -/
def drawWith (canvas : Canvas) (screen : Area) (title text : String) (rows : List (List Glyph)) :
    Canvas :=
  let dismissArea := (noticeArea text screen).inside.withoutSides.rows
    (textRows text (width text screen.width) + 2) 1
  let canvas := (framed canvas screen title text).drawRows (textArea text screen) .center
    (textArea text screen).y rows
  (canvas.restyle dismissArea Theme.muted).drawParagraph dismissArea .center [[⟨dismissText, {}⟩]]

/-- Of the lines of a text those are drawn that its rows can hold. -/
theorem drawWrapped_textArea {text : String} {screen : Area} {canvas : Canvas}
    (hcanvas : canvas.area = screen) (hscreen : smallestWidth ≤ screen.width)
    (hfits : textRows text (width text screen.width) + 6 ≤ screen.height) :
    canvas.drawWrapped (textArea text screen) .center text =
      canvas.drawRows (textArea text screen) .center (textArea text screen).y
        ((wrappedLines (textColumns (width text screen.width)) text).take
          (textRows text (width text screen.width))) := by
  obtain ⟨hwithin, hwidth, hheight⟩ := textArea_of_fits hscreen hfits
  have hcolumns : 0 < textColumns (width text screen.width) :=
    Nat.lt_of_lt_of_le Nat.one_pos (Nat.le_max_right ..)
  have hrows : 0 < textRows text (width text screen.width) :=
    Nat.lt_of_lt_of_le Nat.one_pos (Nat.le_max_right ..)
  -- the area has cells, so something is drawn
  have hcells : (textArea text screen).isEmpty = false := by
    rw [Area.isEmpty, hwidth, hheight, decide_eq_false (by omega), decide_eq_false (by omega)]
    rfl
  rw [Canvas.drawWrapped, hcanvas, Area.intersect_eq_left hwithin, hcells]
  show canvas.drawRows (textArea text screen) .center (textArea text screen).y
    (wrappedLines (textArea text screen).width text) = _
  rw [drawRows_take, Area.bottom, Nat.add_sub_cancel_left, hwidth, hheight]

/-- The notice, with the lines of its text as what is drawn in its frame. -/
theorem draw_eq_drawWith {text : String} {screen : Area} {canvas : Canvas}
    (hcanvas : canvas.area = screen) (hscreen : smallestWidth ≤ screen.width)
    (hfits : textRows text (width text screen.width) + 6 ≤ screen.height) (title : String) :
    draw canvas screen title text = drawWith canvas screen title text
      ((wrappedLines (textColumns (width text screen.width)) text).take
        (textRows text (width text screen.width))) := by
  have htext := drawWrapped_textArea (area_framed hcanvas title text) hscreen hfits
  unfold draw drawWith
  rw [← htext]
  rfl

end Notice

/-! ## The notice of a calculation -/

/-- What a session draws over the screen while its notice is shown. -/
theorem Session.drawOverlay_of_notice {s : Session} {text : String}
    (h : s.shownNotice? = some text) {screen : Area} {canvas : Canvas}
    (hcanvas : canvas.area = screen) (hscreen : smallestWidth ≤ screen.width)
    (hfits : Notice.textRows text (Notice.width text screen.width) + 6 ≤ screen.height) :
    s.drawOverlay canvas screen = Notice.drawWith canvas screen "Invalid expression" text
      ((wrappedLines (Notice.textColumns (Notice.width text screen.width)) text).take
        (Notice.textRows text (Notice.width text screen.width))) := by
  rw [drawOverlay_eq, h, Option.elim_some]
  exact Notice.draw_eq_drawWith hcanvas hscreen hfits "Invalid expression"

/-- **A notice keeps rows enough, except where its lines end early.** The notice that a calculation opens
when it fails is that of its error. On a screen that is large enough, the lines of its text are at most
one more than the rows that are kept for it, and not more exactly where the rows suffice; and if the
notice fits, its text has those columns and rows, and the lines that are not more than the rows are what
is drawn of it. -/
theorem Session.notice_rows_suffice_iff (s : Session) {e : FormulaError Float}
    (hfail : TagFormula.calculate s.editor.tags = .error e)
    (hsize : (formulaText s.editor.tags).utf8ByteSize < 2 ^ 64) {screen : Area}
    (hscreen : smallestWidth ≤ screen.width) :
    let columns := Notice.textColumns (Notice.width e.notice screen.width)
    let rows := Notice.textRows e.notice (Notice.width e.notice screen.width)
    s.calculate.shownNotice? = some e.notice ∧
      (wrappedLines columns e.notice).length ≤ rows + 1 ∧
      ((wrappedLines columns e.notice).length ≤ rows ↔ Notice.Suffices columns e) ∧
      (rows + 6 ≤ screen.height →
        (Notice.textArea e.notice screen).width = columns ∧
        (Notice.textArea e.notice screen).height = rows ∧
        ∀ canvas : Canvas, canvas.area = screen →
          s.calculate.drawOverlay canvas screen =
            Notice.drawWith canvas screen "Invalid expression" e.notice
              ((wrappedLines columns e.notice).take rows)) := by
  intro columns rows
  obtain ⟨hstage, hposition, hvalue⟩ := calculate_error hfail
  -- a position is a machine word, so it has at most twenty digits
  have hdigits : (2 ^ 64 : Nat) < 10 ^ 20 := by norm_num
  have hpositions : ∀ position, e.position? = some position → position < 10 ^ 20 :=
    fun position h => Nat.lt_of_le_of_lt (hposition position h) (Nat.lt_trans hsize hdigits)
  obtain ⟨hlong, hshort⟩ := FormulaError.length_notice_bounds hstage hpositions
  have hcolumns : 32 ≤ columns := Notice.le_textColumns hlong hscreen
  have hlines : Notice.LinesFor columns e.columns (Notice.Suffices columns e) :=
    Notice.linesFor_notice hstage hcolumns hpositions hvalue
  have hlength := FormulaError.length_notice hstage
  have hcount : (wrappedLines columns e.notice).length =
      (e.columns.foldl (Filling.word columns) {}).finished + 1 :=
    FormulaError.length_wrappedLines_notice hstage (Nat.lt_of_lt_of_le (by decide) hcolumns)
  -- the rows come from the columns of the words as well: a text has one blank less than words
  have hrows (lines : Nat) : lines < rows ↔ lines * columns + 1 < spread e.columns := by
    rw [← hlength, Nat.add_lt_add_iff_right]
    exact Notice.lt_textRows_iff (by omega) (Nat.le_trans (Nat.add_le_add_right hshort 4) (by decide)) ..
  have hnotice : s.calculate.shownNotice? = some e.notice := by
    rw [Session.calculate, Calculator.calculate_of_error _ hfail]
    rfl
  refine ⟨hnotice, ?_, ?_, fun hfits => ?_⟩
  · -- the lines that are finished, less one, leave a row
    have hbut := (hrows _).2 hlines.but_one
    rw [hcount]
    omega
  · rw [hcount, ← hlines.enough_iff, ← hrows, Nat.lt_iff_add_one_le]
  · obtain ⟨_, hwidth, hheight⟩ := Notice.textArea_of_fits hscreen hfits
    exact ⟨hwidth, hheight, fun canvas hcanvas =>
      Session.drawOverlay_of_notice hnotice hcanvas hscreen hfits⟩

/-- The notice of two numbers of two digits has rows enough on the smallest screen. -/
theorem Session.notice_rows_suffice_two_numbers :
    let tags : List Tag := [⟨"71", "71", by decide +kernel⟩, ⟨"82", "82", by decide +kernel⟩]
    let s : Session := { editor := { catalog := ⟨[]⟩, tags }, messageTime := 3000 }
    let screen : Area := .clipped 0 0 40 14
    ∃ e, TagFormula.calculate s.editor.tags = .error e ∧
      (formulaText s.editor.tags).utf8ByteSize < 2 ^ 64 ∧ smallestWidth ≤ screen.width ∧
      s.calculate.shownNotice? = some e.notice ∧
      (wrappedLines (Notice.textColumns (Notice.width e.notice screen.width)) e.notice).length ≤
        Notice.textRows e.notice (Notice.width e.notice screen.width) := by
  intro tags s screen
  have hfail : TagFormula.calculate s.editor.tags =
      .error (.unexpected (.number (numeralValue "82".toList)) 3) :=
    calculate_two_numbers rfl rfl
  have hsize : (formulaText s.editor.tags).utf8ByteSize < 2 ^ 64 := by
    decide +kernel
  have hscreen : smallestWidth ≤ screen.width := by decide
  have hshort : (NumberFormat.plain.write (numeralValue "82".toList)).length + 1 ≤ 17 := by
    decide +kernel
  obtain ⟨hstage, _, _⟩ := calculate_error hfail
  have hposition : ∀ position, some 3 = some position → position < 10 ^ 20 := by
    rintro position ⟨⟩
    decide
  obtain ⟨hlong, _⟩ := FormulaError.length_notice_bounds hstage hposition
  have hcolumns := Notice.le_textColumns hlong hscreen
  obtain ⟨hnotice, _, hsuffices, _⟩ := Session.notice_rows_suffice_iff s hfail hsize hscreen
  exact ⟨_, hfail, hsize, hscreen, hnotice, hsuffices.2 (Notice.suffices_of_short hcolumns hshort)⟩

/-- A notice with the number 1e16: of its three lines, the last one with the position is cut, although
there is room for it on the screen. -/
theorem Notice.ten_quadrillion_is_cut :
    let tags : List Tag := [⟨"6", "6", by decide +kernel⟩,
      ⟨"10000000000000000", "10000000000000000", by decide +kernel⟩]
    let screen : Area := .clipped 0 0 40 14
    ∃ e, TagFormula.calculate tags = .error e ∧ smallestWidth ≤ screen.width ∧
      textRows e.notice (width e.notice screen.width) + 6 < screen.height ∧
      textRows e.notice (width e.notice screen.width) = 2 ∧
      (wrappedLines (textColumns (width e.notice screen.width)) e.notice).length = 3 := by
  intro tags screen
  have hfail : TagFormula.calculate tags =
      .error (.unexpected (.number (numeralValue "10000000000000000".toList)) 2) :=
    calculate_two_numbers rfl rfl
  have hwrite : NumberFormat.plain.write (numeralValue "10000000000000000".toList) =
      "10000000000000000" := by
    decide +kernel
  refine ⟨_, hfail, by decide, ?_⟩
  generalize he : FormulaError.unexpected (.number (numeralValue "10000000000000000".toList)) 2 = e
  have hcolumns : e.columns = [7, 11, 10, 19, 2, 8, 1] := by
    subst he
    show [7, 11, 10, (NumberFormat.plain.write _).length + 2, 2, 8, _] = _
    rw [hwrite]
    rfl
  have hstage : e.stage ≠ .lexing := by
    subst he
    exact fun h => nomatch h
  have hlength : e.notice.length = 64 := by
    have hspread := FormulaError.length_notice hstage
    rw [hcolumns] at hspread
    exact Nat.succ.inj hspread
  have hwidth : width e.notice screen.width = 36 := by
    rw [width, wantedWidth, hlength]
    rfl
  have hrows : textRows e.notice 36 = 2 := by
    rw [textRows, wantedWidth, hlength]
    rfl
  have hlines : (wrappedLines 32 e.notice).length = 3 := by
    rw [FormulaError.length_wrappedLines_notice hstage (by decide), hcolumns]
    rfl
  rw [hwidth, hrows]
  exact ⟨by decide, rfl, hlines⟩

end TagFormula
