import TagFormula.Screen.Wrap

/-!
# Words on lines

Of a text of words with one blank between two of them, only the lengths of the words matter for the
number of its lines: a word goes on the line that is begun as long as there is room for it behind a
blank, and on lines of its own otherwise. The wrapping takes glyph after glyph and decides late, when a
word no longer fits; `Wrap.Amid` keeps what it has decided so far.

* **`Filling.word`**, **`lineCount`**: the lines that words of given lengths take.
* **`Wrap.Amid.push_letters`**, **`Wrap.Amid.push_blank`**: a whole word, and the blank behind it.
  Induction on the glyphs of the word, with the part that is taken already.
* **`Wrap.Amid.push_words`**: one word after the other.
* **`length_wrapRow_words`**: wrapping makes as many lines as are counted.
-/

namespace TagFormula.Screen

/-! ## Counting -/

/-- The lines that are finished, and the columns used on the line that is begun. -/
structure Filling where
  finished : Nat := 0
  used : Nat := 0
  deriving DecidableEq

namespace Filling

/-- Put a word of some columns where `start` ones are used, the blank before it included. A word for
which there is no room starts the next line, and if it is longer than a line it fills lines of its
own. -/
def place (room finished start columns : Nat) : Filling :=
  if start + columns ≤ room then ⟨finished, start + columns⟩
  else
    ⟨(if start = 0 then finished else finished + 1) + (columns - 1) / room, (columns - 1) % room + 1⟩

/-- Put one word more. -/
def word (room : Nat) (f : Filling) (columns : Nat) : Filling :=
  place room f.finished (if f.used = 0 then 0 else f.used + 1) columns

variable {room finished start columns : Nat}

theorem place_of_le (h : start + columns ≤ room) :
    place room finished start columns = ⟨finished, start + columns⟩ :=
  if_pos h

/-- Without room behind the other words, a word is put as on a line that is empty. -/
theorem place_of_lt (hstart : 0 < start) (hcolumns : 0 < columns) (h : room < start + columns) :
    place room finished start columns = place room (finished + 1) 0 columns := by
  rw [place, if_neg (Nat.not_le.2 h), if_neg (Nat.ne_of_gt hstart), place, if_pos rfl, Nat.zero_add]
  by_cases hfits : columns ≤ room
  · rw [if_pos hfits, Nat.div_eq_of_lt (by omega), Nat.mod_eq_of_lt (by omega),
      Nat.sub_add_cancel hcolumns, Nat.add_zero]
  · rw [if_neg hfits]

/-- A word for which there is no room fills a number of whole lines, and the last line with the rest. -/
theorem exists_place_of_lt (hstart : 0 < start) (hcolumns : 0 < columns) (h : room < start + columns) :
    ∃ whole, place room finished start columns =
        ⟨finished + 1 + whole, (columns - 1) % room + 1⟩ ∧
      columns = whole * room + ((columns - 1) % room + 1) := by
  refine ⟨(columns - 1) / room, ?_, ?_⟩
  · rw [place, if_neg (Nat.not_le.2 h), if_neg (Nat.ne_of_gt hstart)]
  · have hdivision := Nat.div_add_mod' (columns - 1) room
    omega

/-- The first columns of a word that is longer than a line fill the line. -/
theorem place_room_add (hroom : 0 < room) (hcolumns : 0 < columns) :
    place room finished 0 (room + columns) = place room (finished + 1) 0 columns := by
  have hsub : room + columns - 1 = columns - 1 + room := by omega
  rw [place, if_neg (by omega), if_pos rfl, hsub, Nat.add_div_right _ hroom, Nat.add_mod_right, place,
    if_pos rfl, Nat.zero_add]
  by_cases hfits : columns ≤ room
  · rw [if_pos hfits, Nat.div_eq_of_lt (by omega), Nat.mod_eq_of_lt (by omega),
      Nat.sub_add_cancel hcolumns]
  · rw [if_neg hfits]
    congr 1
    omega

end Filling

/-- The columns of words, each with a blank. -/
def spread : List Nat → Nat
  | [] => 0
  | columns :: rest => columns + 1 + spread rest

theorem spread_nil : spread [] = 0 :=
  rfl

theorem spread_cons (columns : Nat) (words : List Nat) :
    spread (columns :: words) = columns + 1 + spread words :=
  rfl

theorem spread_append (words more : List Nat) :
    spread (words ++ more) = spread words + spread more := by
  induction words with
  | nil => rw [List.nil_append, spread_nil, Nat.zero_add]
  | cons columns rest ih =>
    rw [List.cons_append, spread_cons, spread_cons, ih]
    omega

namespace Filling

variable {room : Nat} {words : List Nat} {f : Filling}

/-- On a line that is begun, a word goes behind a blank. -/
theorem word_of_used (hused : 0 < f.used) (columns : Nat) :
    word room f columns = place room f.finished (f.used + 1) columns := by
  rw [word, if_neg (Nat.ne_of_gt hused)]

/-- The first word starts the first line. -/
theorem foldl_word_of_first {columns : Nat} (h : columns ≤ room) :
    (columns :: words).foldl (word room) {} = words.foldl (word room) ⟨0, columns⟩ := by
  rw [List.foldl_cons, word, if_pos rfl, place_of_le (by omega), Nat.zero_add]

/-- Words for which there is room all go on the line. -/
theorem foldl_word_of_le (hused : 0 < f.used) (h : f.used + spread words ≤ room) :
    words.foldl (word room) f = ⟨f.finished, f.used + spread words⟩ := by
  induction words generalizing f with
  | nil => rfl
  | cons columns rest ih =>
    rw [spread_cons] at h
    have hall : f.used + 1 + columns + spread rest = f.used + (columns + 1 + spread rest) := by omega
    rw [List.foldl_cons, word_of_used hused, place_of_le (by omega),
      ih (f := ⟨f.finished, f.used + 1 + columns⟩) (by simp only; omega) (by simp only; omega)]
    exact congrArg (Filling.mk f.finished) hall

/-- The words that have room on the line only move its end for the others. -/
theorem foldl_word_drop {k : Nat} (hused : 0 < f.used)
    (hline : f.used + spread (words.take k) ≤ room) :
    words.foldl (word room) f =
      (words.drop k).foldl (word room) ⟨f.finished, f.used + spread (words.take k)⟩ := by
  rw [← foldl_word_of_le hused hline, ← List.foldl_append, List.take_append_drop]

/-- Words for which there is no room, but which are not more than a line, finish one line. -/
theorem finished_foldl_word_of_lt (hused : 0 < f.used) (hline : f.used ≤ room)
    (hwords : ∀ columns ∈ words, 0 < columns) (h : room < f.used + spread words)
    (hfits : spread words ≤ room + 1) :
    (words.foldl (word room) f).finished = f.finished + 1 := by
  induction words generalizing f with
  | nil => exact absurd h (Nat.not_lt.2 hline)
  | cons columns rest ih =>
    have hcolumns := hwords columns (List.mem_cons_self ..)
    rw [spread_cons] at h hfits
    rw [List.foldl_cons, word_of_used hused]
    by_cases hroom : f.used + 1 + columns ≤ room
    · rw [place_of_le hroom]
      exact ih (f := ⟨f.finished, f.used + 1 + columns⟩) (by simp only; omega) hroom
        (fun w hw => hwords w (List.mem_cons_of_mem _ hw)) (by simp only; omega) (by omega)
    · -- this word starts the next line, and the others have room behind it
      rw [place_of_lt (Nat.succ_pos _) hcolumns (by omega), place_of_le (by omega), Nat.zero_add,
        foldl_word_of_le hcolumns (by simp only; omega)]

/-- Words of which some have room on the line, and of which the others are not more than a line: the
others go on the same line if there is room for all of them, and finish it otherwise. -/
theorem finished_foldl_word (k : Nat) (hused : 0 < f.used) (hpos : ∀ columns ∈ words, 0 < columns)
    (hline : f.used + spread (words.take k) ≤ room) (hrest : spread (words.drop k) ≤ room + 1) :
    (words.foldl (word room) f).finished =
      if f.used + spread words ≤ room then f.finished else f.finished + 1 := by
  have hspread : spread words = spread (words.take k) + spread (words.drop k) := by
    rw [← spread_append, List.take_append_drop]
  split
  · next h => rw [foldl_word_of_le hused h]
  · next h =>
    rw [foldl_word_drop hused hline]
    exact finished_foldl_word_of_lt (f := ⟨f.finished, f.used + spread (words.take k)⟩)
      (Nat.lt_of_lt_of_le hused (Nat.le_add_right ..)) hline
      (fun columns h => hpos columns (List.mem_of_mem_drop h)) (by simp only; omega) hrest

/-- Words of which `j` go on the line and the next one does not, and of which the others are on the line
behind it but for the last ones, which are not more than a line. -/
theorem finished_foldl_word_of_break (j k : Nat) (hused : 0 < f.used)
    (hpos : ∀ columns ∈ words, 0 < columns) (hline : f.used + spread (words.take j) ≤ room)
    (hbreak : room < f.used + spread (words.take (j + 1)))
    (hsecond : spread ((words.drop j).take (k + 1)) ≤ room + 1)
    (hrest : spread (words.drop (j + (k + 1))) ≤ room + 1) :
    (words.foldl (word room) f).finished =
      if spread (words.drop j) ≤ room + 1 then f.finished + 1 else f.finished + 2 := by
  rw [← List.drop_drop] at hrest
  have hposRest : ∀ columns ∈ words.drop j, 0 < columns := fun columns h =>
    hpos columns (List.mem_of_mem_drop h)
  rw [List.take_add, spread_append] at hbreak
  rw [foldl_word_drop hused hline]
  cases hdrop : words.drop j with
  | nil =>
    -- then no word would be left that does not go on the line
    rw [hdrop, List.take_nil, spread_nil] at hbreak
    omega
  | cons columns rest =>
    rw [hdrop] at hposRest hbreak hsecond hrest
    simp only [List.take_succ_cons, List.take_zero, List.drop_succ_cons, spread_cons, spread_nil]
      at hbreak hsecond hrest
    have hcolumns := hposRest columns (List.mem_cons_self ..)
    rw [List.foldl_cons, word_of_used (Nat.lt_of_lt_of_le hused (Nat.le_add_right ..)),
      place_of_lt (Nat.succ_pos _) hcolumns (by simp only; omega), place_of_le (by omega),
      finished_foldl_word k (by simp only; omega) (fun w hw => hposRest w (List.mem_cons_of_mem _ hw))
        (by simp only; omega) hrest, spread_cons]
    simp only
    split <;> split <;> omega

end Filling

/-- The lines that words of given columns take. -/
def lineCount (room : Nat) (words : List Nat) : Nat :=
  (words.foldl (Filling.word room) {}).finished + 1

/-! ## Wrapping -/

/-- A glyph of a word that takes one column. -/
structure Glyph.IsLetter (g : Glyph) : Prop where
  columns_eq : g.columns = 1
  isBlank_eq : g.isBlank = false

/-- A blank that takes one column. -/
structure Glyph.IsSpace (g : Glyph) : Prop where
  columns_eq : g.columns = 1
  isBlank_eq : g.isBlank = true

namespace Wrap

/-- A row is being wrapped: some lines are finished, the word begun takes some columns, and `before` ones
stand before it on its line, the blank included. -/
structure Amid (room : Nat) (w : Wrap) (finished before columns : Nat) : Prop where
  lines : w.lines.length = finished
  word : glyphColumns w.word = columns
  fits : before + columns ≤ room
  line : before = 0 ∧ w.line = [] ∧ w.blanks = [] ∨
    ∃ blank : Glyph, blank.IsSpace ∧ w.blanks = [blank] ∧ 0 < glyphColumns w.line ∧
      before = glyphColumns w.line + 1
  inWord : 0 < columns → w.inWord = true

variable {room finished before columns : Nat} {w : Wrap} {g : Glyph}

theorem line_isEmpty_of_pos (h : 0 < glyphColumns w.line) : w.line.isEmpty = false := by
  cases hline : w.line with
  | nil =>
    rw [hline] at h
    cases h
  | cons => rfl

/-- A letter makes the word longer, and sends it to a new line first if it no longer fits. -/
theorem push_letter (hg : g.IsLetter) (hroom : 0 < room) : w.push room g =
    let settled := if w.overflows room 1 then w.settleWord else w
    if settled.isFull room 1 then (settled.breakLine room).append g else settled.append g := by
  rw [push, hg.columns_eq, hg.isBlank_eq, if_neg (Nat.not_lt.2 hroom)]
  simp only [Bool.and_false, Bool.false_or, Bool.false_and, Bool.false_eq_true, if_false]

theorem append_letter (hg : g.IsLetter) :
    w.append g = { w with word := w.word ++ [g], inWord := true } := by
  rw [append, hg.isBlank_eq, if_neg Bool.false_ne_true]

/-- A blank ends the word, and is kept apart: it is dropped at the end of a line. -/
theorem append_blank (hg : g.IsSpace) :
    w.append g = { w with blanks := w.blanks ++ [g], inWord := false } := by
  rw [append, hg.isBlank_eq, if_pos rfl]

/-- Only a word that fills its line alone overflows. -/
theorem Amid.overflows_iff (hw : w.Amid room finished before columns) (hroom : 0 < room) :
    w.overflows room 1 = true ↔ before = 0 ∧ columns = room := by
  have hfits := hw.fits
  rcases hw.line with ⟨hbefore, hline, hblanks⟩ | ⟨_, _, _, hpos, hbefore⟩
  · simp only [overflows, hline, hblanks, hw.word, List.isEmpty_nil, Bool.true_and, Bool.or_eq_true,
      decide_eq_true_eq, glyphColumns_nil]
    omega
  · simp only [overflows, line_isEmpty_of_pos hpos, Bool.false_and, Bool.false_eq_true, false_iff]
    omega

/-- The line is full when the word reaches its end. -/
theorem Amid.isFull_iff (hw : w.Amid room finished before columns) (hroom : 0 < room) :
    w.isFull room 1 = true ↔ before + columns = room := by
  have hfits := hw.fits
  rcases hw.line with ⟨hbefore, hline, hblanks⟩ | ⟨blank, hblank, hblanks, hpos, hbefore⟩
  · simp only [isFull, hline, hblanks, hw.word, Bool.or_eq_true, Bool.and_eq_true, decide_eq_true_eq,
      glyphColumns_nil]
    omega
  · simp only [isFull, hblanks, hw.word, glyphColumns_singleton, hblank.columns_eq, Bool.or_eq_true,
      Bool.and_eq_true, decide_eq_true_eq]
    omega

/-- A letter for which there is room goes on with its word. -/
theorem Amid.push_of_lt (hw : w.Amid room finished before columns) (hg : g.IsLetter)
    (h : before + columns < room) : (w.push room g).Amid room finished before (columns + 1) := by
  have hroom : 0 < room := by omega
  have hoverflows : w.overflows room 1 = false :=
    Bool.eq_false_iff.2 fun hover => by have := (hw.overflows_iff hroom).1 hover; omega
  have hfull : w.isFull room 1 = false :=
    Bool.eq_false_iff.2 fun hfull => by have := (hw.isFull_iff hroom).1 hfull; omega
  have heq : w.push room g = { w with word := w.word ++ [g], inWord := true } := by
    rw [push_letter hg hroom]
    simp only [hoverflows, hfull, Bool.false_eq_true, if_false]
    exact append_letter hg
  rw [heq]
  refine ⟨hw.lines, ?_, h, hw.line, fun _ => rfl⟩
  rw [glyphColumns_append, glyphColumns_singleton, hw.word, hg.columns_eq]

/-- A word for which there is no more room takes the next line, as far as it is read. -/
theorem Amid.push_of_full (hw : w.Amid room finished before columns) (hg : g.IsLetter)
    (hbefore : 0 < before) (h : before + columns = room) :
    (w.push room g).Amid room (finished + 1) 0 (columns + 1) := by
  have hroom : 0 < room := by omega
  -- the line is full by the words before, not by this one alone
  have hoverflows : w.overflows room 1 = false :=
    Bool.eq_false_iff.2 fun hover => by have := (hw.overflows_iff hroom).1 hover; omega
  have hfull : w.isFull room 1 = true := (hw.isFull_iff hroom).2 h
  obtain ⟨hzero, _⟩ | ⟨blank, hblank, hblanks, hpos, hline⟩ := hw.line
  · omega
  · -- the blank had its column on the finished line
    have hdropped : dropFitting (room - glyphColumns w.line) w.blanks = [] := by
      rw [hblanks, dropFitting, hblank.columns_eq, if_neg (by omega)]
      rfl
    have heq : w.push room g = { w with
        lines := w.lines ++ [w.line], line := [], blanks := [], word := w.word ++ [g],
        inWord := true } := by
      rw [push_letter hg hroom]
      simp only [hoverflows, hfull, Bool.false_eq_true, if_false, if_true]
      rw [append_letter hg, breakLine, hdropped]
    rw [heq]
    refine ⟨?_, ?_, ?_, Or.inl ⟨rfl, rfl, rfl⟩, fun _ => rfl⟩
    · rw [List.length_append, hw.lines]
      rfl
    · rw [glyphColumns_append, glyphColumns_singleton, hw.word, hg.columns_eq]
    · omega

/-- A word that fills a line is cut there. -/
theorem Amid.push_of_overflow (hw : w.Amid room finished 0 room) (hg : g.IsLetter)
    (hroom : 0 < room) : (w.push room g).Amid room (finished + 1) 0 1 := by
  have hoverflows : w.overflows room 1 = true := (hw.overflows_iff hroom).2 ⟨rfl, rfl⟩
  obtain ⟨_, hline, hblanks⟩ | ⟨_, _, _, hpos, hbefore⟩ := hw.line
  · -- there is no other word on the line, so the word is cut where it stands
    have hsettled : w.settleWord = { w with line := w.word, blanks := [], word := [] } := by
      rw [settleWord, hline]
      rfl
    have hfull : w.settleWord.isFull room 1 = true := by
      rw [hsettled, isFull, hw.word]
      simp
    have heq : w.push room g = { w with
        lines := w.lines ++ [w.word], line := [], blanks := [], word := [g], inWord := true } := by
      rw [push_letter hg hroom]
      simp only [hoverflows, hfull, if_true]
      rw [append_letter hg, breakLine, hsettled]
      rfl
    rw [heq]
    refine ⟨?_, ?_, ?_, Or.inl ⟨rfl, rfl, rfl⟩, fun _ => rfl⟩
    · rw [List.length_append, hw.lines]
      rfl
    · rw [glyphColumns_singleton, hg.columns_eq]
    · omega
  · omega

/-- The letters of a word, of which some columns are taken already, go where the word is placed. -/
theorem Amid.push_letters (hw : w.Amid room finished before columns) (hroom : 0 < room)
    {letters : List Glyph} (hletters : ∀ g ∈ letters, g.IsLetter)
    (hpos : 0 < columns + letters.length) :
    ∃ before' columns', 0 < columns' ∧
      (letters.foldl (push room) w).Amid room
        (Filling.place room finished before (columns + letters.length)).finished before' columns' ∧
      before' + columns' =
        (Filling.place room finished before (columns + letters.length)).used := by
  induction letters generalizing w finished before columns with
  | nil =>
    rw [List.length_nil, Nat.add_zero] at hpos ⊢
    rw [Filling.place_of_le hw.fits]
    exact ⟨before, columns, hpos, hw, rfl⟩
  | cons g rest ih =>
    have hg := hletters g (List.mem_cons_self ..)
    have hrest : ∀ g ∈ rest, g.IsLetter := fun g hg => hletters g (List.mem_cons_of_mem _ hg)
    have hfits := hw.fits
    rw [List.foldl_cons, List.length_cons]
    by_cases hfull : before + columns = room
    · by_cases hbefore : before = 0
      · -- the word alone fills the line, and is cut
        subst hbefore
        obtain rfl : columns = room := by omega
        rw [Filling.place_room_add hroom (Nat.succ_pos _), Nat.succ_eq_add_one, Nat.add_comm rest.length]
        exact ih (hw.push_of_overflow hg hroom) hrest (by omega)
      · -- the word goes on on the next line
        rw [Filling.place_of_lt (by omega) (by omega) (by omega), Nat.add_comm rest.length,
          ← Nat.add_assoc]
        exact ih (hw.push_of_full hg (by omega) hfull) hrest (by omega)
    · -- there is room for the letter
      rw [Nat.add_comm rest.length, ← Nat.add_assoc]
      exact ih (hw.push_of_lt hg (by omega)) hrest (by omega)

/-- Behind a word a blank is kept for the next one, unless the word ends its line. -/
theorem Amid.push_blank (hw : w.Amid room finished before columns) (hcolumns : 0 < columns)
    {blank : Glyph} (hblank : blank.IsSpace) :
    (w.push room blank).Amid room (if before + columns = room then finished + 1 else finished)
      (if before + columns = room then 0 else before + columns + 1) 0 := by
  have hfits := hw.fits
  have hwide : ¬ room < blank.columns := by
    rw [hblank.columns_eq]
    omega
  -- the blank ends the word, which is settled before the blank is taken
  have hsettles : (w.inWord && blank.isBlank) = true := by
    rw [hw.inWord hcolumns, hblank.isBlank_eq]
    rfl
  -- the word is put on the line, behind the blank if there are others
  have hline : glyphColumns w.settleWord.line = before + columns := by
    obtain ⟨hbefore, hline, _⟩ | ⟨b, hb, hblanks, hpos, hbefore⟩ := hw.line
    · simp only [settleWord, hline, List.isEmpty_nil, if_true, List.nil_append, hw.word]
      omega
    · simp only [settleWord, line_isEmpty_of_pos hpos, Bool.false_eq_true, if_false,
        glyphColumns_append, hw.word, hblanks, glyphColumns_singleton, hb.columns_eq]
      omega
  have hfull : w.settleWord.isFull room 1 = true ↔ before + columns = room := by
    have hblanks : w.settleWord.blanks = [] := rfl
    have hword : w.settleWord.word = [] := rfl
    simp only [isFull, hline, hblanks, hword, glyphColumns_nil, Bool.or_eq_true, Bool.and_eq_true,
      decide_eq_true_eq]
    omega
  rw [push, if_neg hwide, hsettles, Bool.true_or, if_pos rfl, hblank.columns_eq, hblank.isBlank_eq]
  by_cases hends : before + columns = room
  · -- the line is full, and the blank behind it is dropped
    rw [if_pos (hfull.2 hends), if_pos hends, if_pos hends]
    have hbroken : w.settleWord.breakLine room = { w with
        lines := w.lines ++ [w.settleWord.line], line := [], blanks := [], word := [] } := rfl
    rw [hbroken]
    refine ⟨?_, rfl, Nat.zero_le _, Or.inl ⟨rfl, rfl, rfl⟩, fun h => nomatch h⟩
    rw [← hw.lines]
    exact List.length_append
  · rw [if_neg fun h => hends (hfull.1 h), if_neg hends, if_neg hends, append_blank hblank]
    exact ⟨hw.lines, rfl, by omega, Or.inr ⟨blank, hblank, rfl, by rw [hline]; omega, by rw [hline]⟩,
      fun h => nomatch h⟩

/-- Words behind the first one, each with its blank. -/
theorem Amid.push_words (hw : w.Amid room finished before columns) (hcolumns : 0 < columns)
    {blank : Glyph} (hblank : blank.IsSpace) {words : List (List Glyph)}
    (hwords : ∀ word ∈ words, word ≠ [] ∧ ∀ g ∈ word, g.IsLetter) :
    ∃ before' columns', 0 < columns' ∧
      ((words.flatMap (blank :: ·)).foldl (push room) w).Amid room
        ((words.map List.length).foldl (Filling.word room) ⟨finished, before + columns⟩).finished
        before' columns' := by
  induction words generalizing w finished before columns with
  | nil => exact ⟨before, columns, hcolumns, hw⟩
  | cons word rest ih =>
    obtain ⟨hne, hletters⟩ := hwords word (List.mem_cons_self ..)
    have hpos : 0 < word.length := List.length_pos_iff.2 hne
    have hfits := hw.fits
    -- the blank, the word, and the others
    have hplace : Filling.word room ⟨finished, before + columns⟩ word.length =
        Filling.place room (if before + columns = room then finished + 1 else finished)
          (if before + columns = room then 0 else before + columns + 1) (0 + word.length) := by
      rw [Filling.word, Nat.zero_add]
      dsimp only
      rw [if_neg (show ¬ before + columns = 0 by omega)]
      by_cases hends : before + columns = room
      · rw [if_pos hends, if_pos hends, Filling.place_of_lt (by omega) hpos (by omega)]
      · rw [if_neg hends, if_neg hends]
    obtain ⟨before', columns', hcolumns', hword, hused⟩ :=
      (hw.push_blank hcolumns hblank).push_letters (by omega) hletters (by omega)
    rw [List.flatMap_cons, List.cons_append, List.foldl_cons, List.foldl_append, List.map_cons,
      List.foldl_cons, hplace]
    have hrest := ih hword hcolumns' fun word hmem => hwords word (List.mem_cons_of_mem _ hmem)
    rwa [hused] at hrest

/-- At the end the line that is begun counts as well. -/
theorem Amid.length_finish (hw : w.Amid room finished before columns) (hcolumns : 0 < columns) :
    w.finish.length = finished + 1 := by
  have hword : w.word ≠ [] := by
    intro h
    have hcount := hw.word
    rw [h, glyphColumns_nil] at hcount
    omega
  have hlast : w.settleWord.line.isEmpty = false := by
    rw [List.isEmpty_eq_false_iff, settleWord]
    exact List.append_ne_nil_of_right_ne_nil _ hword
  -- an empty line is added only where nothing but blanks is left
  have hbegun : (w.line.isEmpty && w.word.isEmpty && !w.blanks.isEmpty) = false := by
    rw [List.isEmpty_eq_false_iff.2 hword]
    simp
  rw [finish, hbegun, hlast]
  simp [hw.lines]

end Wrap

/-- Wrapping words between their blanks makes as many lines as are counted. -/
theorem length_wrapRow_words {room : Nat} (hroom : 0 < room) {blank : Glyph} (hblank : blank.IsSpace)
    {word : List Glyph} {words : List (List Glyph)}
    (hwords : ∀ w ∈ word :: words, w ≠ [] ∧ ∀ g ∈ w, g.IsLetter) :
    (wrapRow room (word ++ words.flatMap (blank :: ·))).length =
      lineCount room ((word :: words).map List.length) := by
  have hstart : ({} : Wrap).Amid room 0 0 0 :=
    ⟨rfl, rfl, Nat.zero_le _, Or.inl ⟨rfl, rfl, rfl⟩, fun h => nomatch h⟩
  obtain ⟨hne, hletters⟩ := hwords word (List.mem_cons_self ..)
  obtain ⟨before, columns, hcolumns, hfirst, hused⟩ := hstart.push_letters hroom hletters
    (by have := List.length_pos_iff.2 hne; omega)
  -- the first word needs no blank before it, the others do
  obtain ⟨_, _, hpos, hall⟩ := hfirst.push_words hcolumns hblank fun w hw =>
    hwords w (List.mem_cons_of_mem _ hw)
  rw [wrapRow, List.foldl_append, hall.length_finish hpos, lineCount, List.map_cons, List.foldl_cons,
    hused, Nat.zero_add]
  rfl

end TagFormula.Screen
