import TagFormula.Screen.Paragraph
import TagFormula.Proofs.WordWrap

/-!
# Printable texts

In a text of printable characters of ASCII, every character is a cluster of its own that takes one
column, and there are no line ends. So the lines of such a text are told by the lengths of its words.

* **`Text.IsPrintable`**, **`Text.IsVisible`**: the characters, with the space and without it, and
  **`Text.IsWord`**: words of them.
* **`glyphsOf_of_printable`**, **`rowsOf_of_printable`**: a glyph for each character, and one row.
* **`length_wrappedLines`**: the lines of words with one space between two of them.
-/

namespace TagFormula

namespace Text

/-- A character of ASCII that is no control character. -/
def IsPrintable (c : Char) : Prop :=
  0x20 ≤ c.toNat ∧ c.toNat < 0x7F

/-- A printable character other than the space. -/
def IsVisible (c : Char) : Prop :=
  0x20 < c.toNat ∧ c.toNat < 0x7F

/-- A word: visible characters, and not none. -/
def IsWord (w : List Char) : Prop :=
  w ≠ [] ∧ ∀ c ∈ w, IsVisible c

instance : DecidablePred IsVisible := fun c =>
  inferInstanceAs (Decidable (0x20 < c.toNat ∧ c.toNat < 0x7F))

-- the instance is named: a search can find one that runs through all characters there are
instance : DecidablePred IsWord := fun w =>
  @instDecidableAnd _ _ _ (List.decidableBAll IsVisible w)

theorem IsVisible.isPrintable {c : Char} (h : IsVisible c) : IsPrintable c :=
  ⟨Nat.le_of_lt h.1, h.2⟩

theorem isPrintable_space : IsPrintable ' ' :=
  ⟨by decide, by decide⟩

theorem isVisible_of_isDigit {c : Char} (h : c.isDigit = true) : IsVisible c := by
  obtain ⟨hlow, hhigh⟩ : 48 ≤ c.toNat ∧ c.toNat ≤ 57 := Char.isDigit_iff_toNat.1 h
  rw [IsVisible]
  omega

/-- Visible characters between two others are a word, also if there are none of them. -/
theorem isWord_enclosed {first last : Char} (hfirst : IsVisible first) (hlast : IsVisible last)
    {cs : List Char} (h : ∀ c ∈ cs, IsVisible c) : IsWord (first :: (cs ++ [last])) := by
  refine ⟨List.cons_ne_nil _ _, fun c hc => ?_⟩
  simp only [List.mem_cons, List.mem_append, List.not_mem_nil, or_false] at hc
  rcases hc with rfl | hc | rfl
  · exact hfirst
  · exact h c hc
  · exact hlast

/-! ## Clusters -/

/-- No such character is joined to the one before it by its class. -/
theorem IsPrintable.clusterClass_eq {c : Char} (h : IsPrintable c) : clusterClass c = .other := by
  obtain ⟨hlow, hhigh⟩ := h
  unfold clusterClass
  dsimp only
  rw [if_neg (by omega), if_neg (by omega), if_pos (by simp [hlow, hhigh])]

/-- No printable character goes on with the cluster before it. -/
theorem IsPrintable.joins_eq {c d : Char} (hc : IsPrintable c) (hd : IsPrintable d) :
    (Boundary.start c).joins d = false := by
  simp only [Boundary.joins, Boundary.start, hc.clusterClass_eq, hd.clusterClass_eq, Bool.and_false,
    Bool.false_and]

theorem clustersFrom_of_printable {c : Char} {cs : List Char} (hc : IsPrintable c)
    (h : ∀ d ∈ cs, IsPrintable d) :
    clustersFrom (.start c) [c] cs = [c] :: cs.map ([·]) := by
  induction cs generalizing c with
  | nil => rfl
  | cons d rest ih =>
    have hd := h d (List.mem_cons_self ..)
    have hjoins := hc.joins_eq hd
    have hpush : (Boundary.start c).push d = .start d := by
      rw [Boundary.push, hjoins]
      rfl
    rw [clustersFrom, hjoins, if_neg Bool.false_ne_true, hpush,
      ih hd fun e he => h e (List.mem_cons_of_mem _ he)]
    rfl

/-- A printable text has one cluster for each character. -/
theorem clusters_of_printable {cs : List Char} (h : ∀ c ∈ cs, IsPrintable c) :
    clusters cs = cs.map ([·]) := by
  cases cs with
  | nil => rfl
  | cons c rest =>
    exact clustersFrom_of_printable (h c (List.mem_cons_self ..)) fun d hd =>
      h d (List.mem_cons_of_mem _ hd)

/-- No control character is printable, so none is left out on the screen. -/
theorem IsPrintable.isControl_eq {c : Char} (h : IsPrintable c) : isControl c = false := by
  obtain ⟨hlow, hhigh⟩ := h
  simp only [isControl, inRanges_cons, inRanges_nil, Bool.or_false, Bool.or_eq_false_iff,
    Bool.and_eq_false_iff, decide_eq_false_iff_not]
  omega

theorem IsPrintable.columns_eq {c : Char} (h : IsPrintable c) : columns [c] = 1 := by
  have hlow : c.toNat ≤ 0xA0 := by
    have := h.2
    omega
  show charColumns c + 0 = 1
  rw [charColumns, if_pos hlow]

/-- A line does not break at a visible character. -/
theorem IsVisible.isBlank_eq {c : Char} (h : IsVisible c) : isBlank c = false := by
  obtain ⟨hlow, hhigh⟩ := h
  simp only [isBlank, blankRanges, inRanges_cons, inRanges_nil, Bool.or_false, Bool.or_eq_false_iff,
    Bool.and_eq_false_iff, decide_eq_false_iff_not]
  omega

end Text

namespace Screen

open Text

/-! ## Glyphs -/

/-- The glyph of a character that is a cluster of its own. -/
def Glyph.ofChar (c : Char) : Glyph :=
  ⟨[c], {}⟩

/-- A printable text has one glyph of one column for each character. -/
theorem glyphsOf_of_printable {text : String} (h : ∀ c ∈ text.toList, IsPrintable c) :
    glyphsOf text {} = text.toList.map Glyph.ofChar := by
  have hcontrol : ∀ cluster ∈ text.toList.map ([·]), (!cluster.any isControl) = true := by
    intro cluster hcluster
    obtain ⟨c, hc, rfl⟩ := List.mem_map.1 hcluster
    simp [(h c hc).isControl_eq]
  rw [glyphsOf, clusters_of_printable h, List.filter_eq_self.2 hcontrol, List.map_map]
  rfl

/-- What the wrapping asks of a glyph inside a word. -/
theorem Glyph.isLetter_ofChar {c : Char} (h : IsVisible c) : (Glyph.ofChar c).IsLetter where
  columns_eq := h.isPrintable.columns_eq
  isBlank_eq := by
    have hzero : c ≠ '\u200b' := by
      rintro rfl
      exact absurd h.2 (by decide)
    simp [Glyph.isBlank, Glyph.ofChar, h.isBlank_eq, hzero]

/-- What the wrapping asks of the glyph between two words. -/
theorem Glyph.isSpace_space : (Glyph.ofChar ' ').IsSpace where
  columns_eq := isPrintable_space.columns_eq
  isBlank_eq := by decide

/-- A text without line feeds is one row. -/
theorem rowsOf_of_printable {text : String} (hne : text ≠ "") (h : ∀ c ∈ text.toList, IsPrintable c) :
    rowsOf text = [text] := by
  have hfeed : '\n' ∉ text.toList := fun hmem => absurd (h _ hmem).1 (by decide)
  have hreturn : text.toList.getLast? ≠ some '\r' := fun hlast =>
    absurd (h _ (List.mem_of_getLast? hlast)).1 (by decide)
  have hlist : text.toList ≠ [] := fun hnil => hne (String.toList_eq_nil_iff.1 hnil)
  simp [rowsOf, List.splitOn_eq_singleton hfeed, hlist, hreturn]

/-- The lines of a text that is wrapped between words. -/
def wrappedLines (room : Nat) (text : String) : List (List Glyph) :=
  (rowsOf text).flatMap fun row => wrapRow room (glyphsOf row {})

/-- Words of visible characters with one space between two of them take the lines that are counted. -/
theorem length_wrappedLines {room : Nat} (hroom : 0 < room) {text : String} {word : List Char}
    {words : List (List Char)} (htext : text.toList = word ++ words.flatMap (' ' :: ·))
    (hwords : ∀ w ∈ word :: words, IsWord w) :
    (wrappedLines room text).length = lineCount room ((word :: words).map List.length) := by
  have hprintable : ∀ c ∈ text.toList, IsPrintable c := by
    intro c hc
    rw [htext, List.mem_append, List.mem_flatMap] at hc
    rcases hc with hc | ⟨w, hw, hc⟩
    · exact ((hwords word (List.mem_cons_self ..)).2 c hc).isPrintable
    · rcases List.mem_cons.1 hc with rfl | hc
      · exact isPrintable_space
      · exact ((hwords w (List.mem_cons_of_mem _ hw)).2 c hc).isPrintable
  have hne : text ≠ "" := by
    rintro rfl
    have hword := (hwords word (List.mem_cons_self ..)).1
    exact hword (List.append_eq_nil_iff.1 htext.symm).1
  -- words and blanks become glyphs one by one
  have hglyphs : glyphsOf text {} = word.map Glyph.ofChar ++
      (words.map (·.map Glyph.ofChar)).flatMap (Glyph.ofChar ' ' :: ·) := by
    rw [glyphsOf_of_printable hprintable, htext, List.map_append, List.map_flatMap, List.flatMap_map]
    rfl
  -- the glyphs of a word are letters, between which no line breaks
  have hletters : ∀ w ∈ (word :: words).map (·.map Glyph.ofChar),
      w ≠ [] ∧ ∀ g ∈ w, g.IsLetter := by
    intro w hw
    obtain ⟨chars, hchars, rfl⟩ := List.mem_map.1 hw
    obtain ⟨hnil, hvisible⟩ := hwords chars hchars
    refine ⟨fun h => hnil (List.map_eq_nil_iff.1 h), fun g hg => ?_⟩
    obtain ⟨c, hc, rfl⟩ := List.mem_map.1 hg
    exact Glyph.isLetter_ofChar (hvisible c hc)
  rw [wrappedLines, rowsOf_of_printable hne hprintable, List.flatMap_singleton, hglyphs,
    length_wrapRow_words hroom Glyph.isSpace_space hletters]
  simp [Function.comp_def]

end Screen

end TagFormula
