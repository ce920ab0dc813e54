import TagFormula.Proofs.ChipFlow

/-!
# The columns of a label

A chip shows its label between two spaces. The columns of a text are measured from its end, and what a
character takes depends on what stands right behind it. A space forms no sign with the characters on
either side, so it takes one column in front of a text and one behind it.

The crux is that the measure may take a column back: a Khmer letter with its subscript sign before it,
and a Tifinagh letter with a joiner before it, take none of their own. The column taken back has to be
one of the letter's, or a space behind it would lose its column.

* **`Following.TakesBack`**, **`one_le_measure`**: where a column may be taken back, there is one.
* **`measure_append_space`**: a space behind a text adds a column and changes nothing else.
* **`Chip.columns_eq`**: a chip has the columns of its label, two more, and those of its mark.
-/

namespace TagFormula

open Screen

namespace Text

/-! ## Ranges that are apart -/

/-- No two ranges of the lists have a character in common. -/
def rangesApart (ranges others : List (Nat × Nat)) : Bool :=
  ranges.all fun r => others.all fun s => r.2 < s.1 || s.2 < r.1

/-- Two tables without a common character, decided on their ranges. -/
theorem inRanges_eq_false_of_apart {ranges others : List (Nat × Nat)}
    (hapart : rangesApart ranges others = true) {c : Char} (h : inRanges ranges c = true) :
    inRanges others c = false := by
  obtain ⟨r, hr, hc⟩ := List.any_eq_true.1 h
  rw [Bool.eq_false_iff]
  intro hother
  obtain ⟨s, hs, hc'⟩ := List.any_eq_true.1 hother
  have hrs := List.all_eq_true.1 (List.all_eq_true.1 hapart r hr) s hs
  simp only [Bool.and_eq_true, Bool.or_eq_true, decide_eq_true_eq] at hc hc' hrs
  omega

/-! ## Columns that are taken back -/

/-- A character before this may take back a column of what is measured. -/
def Following.TakesBack (next : Following) : Prop :=
  next = .sign .khmerLetter ∨ next = .sign .boundTifinagh

/-- A Khmer letter takes a column. -/
theorem one_le_charColumns_khmer {c : Char} (h : inRanges khmerSubscriptRanges c = true) :
    1 ≤ charColumns c := by
  have hignorable := inRanges_eq_false_of_apart
    (show rangesApart khmerSubscriptRanges ignorableRanges = true by decide +kernel) h
  have hextend := inRanges_eq_false_of_apart
    (show rangesApart khmerSubscriptRanges extendRanges = true by decide +kernel) h
  have hother := inRanges_eq_false_of_apart
    (show rangesApart khmerSubscriptRanges [(0x0605, 0x0605), (0x070F, 0x070F), (0x0890, 0x0891),
      (0x08E2, 0x08E2), (0x1160, 0x11FF), (0xA8FA, 0xA8FA), (0xD7B0, 0xD7C6), (0xD7CB, 0xD7FB)] =
        true by decide +kernel) h
  have hvisible : isInvisible c = false := by
    rw [isInvisible, hignorable, hextend, hother]
    rfl
  simp only [charColumns, hvisible, Bool.false_eq_true, if_false]
  repeat' split
  all_goals decide

/-- Only the characters of this table end a sign in that way. -/
theorem khmer_of_ofChar? {c : Char} (h : SignEnd.ofChar? c = some .khmerLetter) :
    inRanges khmerSubscriptRanges c = true := by
  obtain ⟨⟨ranges, part⟩, hfind, hpart⟩ := Option.map_eq_some_iff.1 h
  have hin := List.find?_some hfind
  have hmem := List.mem_of_find?_eq_some hfind
  simp only [List.mem_cons, Prod.mk.injEq, List.not_mem_nil, or_false] at hmem
  cases hpart
  simp only [reduceCtorEq, and_false, false_or, or_false, and_true] at hmem
  rw [hmem] at hin
  exact hin

/-- No single character ends such a sign: it takes a joiner and a letter more. -/
theorem ofChar?_ne_boundTifinagh (c : Char) : SignEnd.ofChar? c ≠ some .boundTifinagh := by
  intro h
  obtain ⟨⟨ranges, part⟩, hfind, hpart⟩ := Option.map_eq_some_iff.1 h
  have hmem := List.mem_of_find?_eq_some hfind
  cases hpart
  simp at hmem

/-- Apart from a line feed, only a character that can end a sign is told to be the end of one. -/
theorem ofChar?_of_ofChar {c : Char} {part : SignEnd} (h : Following.ofChar c = .sign part) :
    part = .lineFeed ∨ SignEnd.ofChar? c = some part := by
  rw [Following.ofChar] at h
  split at h
  · cases h
    exact Or.inl rfl
  · right
    -- the characters that are told apart before the ends of signs
    iterate 5
      split at h
      · cases h
    cases hpart : SignEnd.ofChar? c with
    | none =>
      rw [hpart] at h
      cases h
    | some other =>
      rw [hpart] at h
      cases h
      rfl

/-- A character by itself has the column that a later one may take back. -/
theorem one_le_charColumns_of_takesBack {c : Char} (h : (Following.ofChar c).TakesBack) :
    1 ≤ charColumns c := by
  rcases h with hkhmer | htifinagh
  · rcases ofChar?_of_ofChar hkhmer with hfeed | hpart
    · cases hfeed
    · exact one_le_charColumns_khmer (khmer_of_ofChar? hpart)
  · rcases ofChar?_of_ofChar htifinagh with hfeed | hpart
    · cases hfeed
    · exact absurd hpart (ofChar?_ne_boundTifinagh c)

/-- A column is taken back only where one is counted, so the difference is never cut at zero. -/
theorem SignEnd.extend?_takesBack {part : SignEnd} {c : Char} {total : Nat}
    {result : Nat × Following} (h : part.extend? c total = some result)
    (hback : result.2.TakesBack) : 1 ≤ result.1 := by
  unfold extend? at h
  cases part with
  | tifinagh =>
    dsimp only at h
    split at h
    · cases h
      rcases hback with h | h <;> cases h
    · split at h
      · cases h
        -- the only character after which a column is taken back adds one itself
        exact Nat.le_add_left 1 total
      · cases h
  | alef | kiratVowel =>
    dsimp only at h
    split at h
    · cases h
      rcases hback with h | h <;> cases h
    · split at h
      · cases h
        rcases hback with h | h <;> cases h
      · cases h
  | _ =>
    dsimp only at h
    split at h
    · cases h
      rcases hback with h | h <;> cases h
    · cases h

/-- What stands at the front of a text with a character before it: that character by itself, the end
of a longer sign, or something that takes no column back. -/
theorem columnsBefore_cases (c : Char) (next : Following) (total : Nat) :
    columnsBefore c next total = (charColumns c + total, Following.ofChar c) ∨
      (∃ part, next = .sign part ∧ part.extend? c total = some (columnsBefore c next total)) ∨
      ¬ (columnsBefore c next total).2.TakesBack := by
  cases next with
  | plain => exact Or.inl rfl
  | sign part =>
    rw [columnsBefore]
    cases hpart : part.extend? c total with
    | none => exact Or.inl rfl
    | some result => exact Or.inr (Or.inl ⟨part, rfl, hpart⟩)
  | joinedEmoji =>
    rw [columnsBefore]
    split
    · simp [Following.TakesBack]
    · split
      · simp [Following.TakesBack]
      · exact Or.inl rfl
  | _ =>
    rw [columnsBefore]
    split
    · simp [Following.TakesBack]
    · exact Or.inl rfl

/-- Where a column may be taken back, there is one. -/
theorem one_le_measure {cs : List Char} (h : (measure cs).2.TakesBack) : 1 ≤ (measure cs).1 := by
  cases cs with
  | nil => rcases h with h | h <;> cases h
  | cons c rest =>
    change (columnsBefore c (measure rest).2 (measure rest).1).2.TakesBack at h
    show 1 ≤ (columnsBefore c (measure rest).2 (measure rest).1).1
    rcases columnsBefore_cases c (measure rest).2 (measure rest).1 with
      halone | ⟨part, _, hpart⟩ | hnever
    · rw [halone] at h ⊢
      exact Nat.le_add_right_of_le (one_le_charColumns_of_takesBack h)
    · exact part.extend?_takesBack hpart h
    · exact absurd h hnever

/-! ## A space behind a text -/

/-- One column more behind the sign is one column more for the whole. -/
theorem SignEnd.extend?_succ {part : SignEnd} {total : Nat}
    (h : (Following.sign part).TakesBack → 1 ≤ total) (c : Char) :
    part.extend? c (total + 1) =
      (part.extend? c total).map fun result => (result.1 + 1, result.2) := by
  cases part with
  | khmerLetter | boundTifinagh =>
    -- these two take a column back, which is there
    have htotal : 1 ≤ total := h (by simp [Following.TakesBack])
    simp only [extend?]
    split
    · rw [Option.map_some, show total + 1 - 1 = total - 1 + 1 by omega]
    · rfl
  | alef | tifinagh | kiratVowel =>
    simp only [extend?]
    split
    · rfl
    · split <;> rfl
  | _ =>
    simp only [extend?]
    split <;> rfl

/-- A column more behind a character is a column more before it. This is what lets the columns of two
parts be added. -/
theorem columnsBefore_succ {next : Following} {total : Nat} (h : next.TakesBack → 1 ≤ total)
    (c : Char) :
    columnsBefore c next (total + 1) =
      ((columnsBefore c next total).1 + 1, (columnsBefore c next total).2) := by
  cases next with
  | plain => rfl
  | sign part =>
    simp only [columnsBefore, SignEnd.extend?_succ h]
    cases part.extend? c total <;> rfl
  | joinedEmoji =>
    simp only [columnsBefore]
    split
    · rfl
    · split <;> rfl
  | _ =>
    simp only [columnsBefore]
    split <;> rfl

/-- A space behind a text adds a column, and nothing else changes. -/
theorem measure_append_space (cs : List Char) :
    measure (cs ++ [' ']) = ((measure cs).1 + 1, (measure cs).2) := by
  induction cs with
  | nil => rfl
  | cons c rest ih =>
    show columnsBefore c (measure (rest ++ [' '])).2 (measure (rest ++ [' '])).1 = _
    rw [ih]
    exact columnsBefore_succ one_le_measure c

/-- Between two spaces a text takes two columns more. -/
theorem columns_between_spaces (cs : List Char) :
    columns (' ' :: (cs ++ [' '])) = columns cs + 2 := by
  show (columnsBefore ' ' (measure (cs ++ [' '])).2 (measure (cs ++ [' '])).1).1 = _
  rw [columnsBefore_space, measure_append_space]
  exact Nat.add_comm 1 _

end Text

namespace Chip

/-- In an area of so many columns a chip is as wide as its label with two columns more and its mark,
or as the area. -/
theorem columns_eq (chip : Chip) {width : Nat} (hwidth : width ≤ limit) :
    chip.columns width =
      min (Text.columns chip.tag.key.toList + 2 + chip.controlColumns) width := by
  rw [columns, toList_text, Text.columns_between_spaces]
  simp only [saturate]
  omega

end Chip

end TagFormula
