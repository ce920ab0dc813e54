import TagFormula.Proofs.Narrowing

/-!
# Pieces of a label

A piece of a label finds the label if its lower-case image is a piece of the label's. In the label the
piece stands between other characters, and only a sigma has an image that depends on them. Two sigmas
can be affected: the first letter of the piece, which has nothing before it when the piece stands alone,
and the last one, behind which the label may go on.

* **`Text.ChangesForm`**: the two ways in which a sigma of a piece has another form in the label.
* **`Text.lowerBetween_eq_lower_iff`**: there are no others.
* **`Suggestion.keyMatches_piece`**: else the piece finds the label.
* **`Suggestion.last_sigma_finds_nothing`**: with a sigma it need not.
-/

namespace TagFormula

namespace Text

/-! ## A piece of a text -/

/-- A sigma in `piece` has another form between `front` and `back` than it has alone.

* `first`: no letter of the piece precedes it. Between the others it ends a word.
* `last`: it ends a word alone. No letter of the piece follows it, but one of `back` does. -/
inductive ChangesForm (front : List Char) : (piece back : List Char) → Prop
  | first {before after back} (hbefore : before.all (inRanges caseIgnorableRanges) = true)
      (hfront : startsCased front.reverse = true) (hafter : startsCased (after ++ back) = false) :
      ChangesForm front (before ++ 'Σ' :: after) back
  | last {before after back} (hbefore : startsCased before.reverse = true)
      (hafter : after.all (inRanges caseIgnorableRanges) = true) (hback : startsCased back = true) :
      ChangesForm front (before ++ 'Σ' :: after) back

/-- The form of a sigma between `before` and `after` when `front` and `back` come around them. -/
theorem endsWord_surrounded_iff (front before after back : List Char) :
    endsWord (before.reverse ++ front.reverse) (after ++ back) = endsWord before.reverse after ↔
      ¬ (before.all (inRanges caseIgnorableRanges) = true ∧ startsCased front.reverse = true ∧
          startsCased (after ++ back) = false) ∧
        ¬ (startsCased before.reverse = true ∧ after.all (inRanges caseIgnorableRanges) = true ∧
          startsCased back = true) := by
  rw [endsWord, endsWord, startsCased_append before.reverse, List.all_reverse]
  by_cases hbefore : before.all (inRanges caseIgnorableRanges) = true
  · have hnone : startsCased before.reverse = false :=
      startsCased_of_all (by rwa [List.all_reverse])
    simp [hbefore, hnone]
  · rw [startsCased_append after]
    by_cases hafter : after.all (inRanges caseIgnorableRanges) = true
    · have hnone := startsCased_of_all hafter
      simp [hbefore, hafter, hnone]
    · simp [hbefore, hafter]

/-- Between other texts a piece has the image that it has alone, unless one of its sigmas changes. -/
theorem lowerBetween_eq_lower_iff {front piece back : List Char} :
    lowerBetween front.reverse piece back = lower piece ↔ ¬ ChangesForm front piece back := by
  rw [lower_eq_lowerBetween, lowerBetween_eq_iff]
  simp only [List.append_nil, endsWord_surrounded_iff]
  constructor
  · intro hsame hchanges
    cases hchanges with
    | @first before after _ hbefore hfront hafter =>
      exact (hsame before after rfl).1 ⟨hbefore, hfront, hafter⟩
    | @last before after _ hbefore hafter hback =>
      exact (hsame before after rfl).2 ⟨hbefore, hafter, hback⟩
  · rintro hkeeps before after rfl
    exact ⟨fun ⟨hbefore, hfront, hafter⟩ => hkeeps (.first hbefore hfront hafter),
      fun ⟨hbefore, hafter, hback⟩ => hkeeps (.last hbefore hafter hback)⟩

/-- What a text contributes to the image of a longer one is a piece of it. -/
theorem lowerBetween_infix (front piece back : List Char) :
    lowerBetween front.reverse piece back <:+: lower (front ++ piece ++ back) := by
  rw [List.append_assoc, lower_append, lowerAfter_append]
  exact ⟨lowerBetween [] front (piece ++ back), lowerAfter (piece.reverse ++ front.reverse) back,
    by rw [List.append_assoc]⟩

end Text

namespace Suggestion

/-- **A piece of a label finds it, unless a sigma changes its form.** Every catalog that has the label
shows it then. -/
theorem keyMatches_piece (front piece back : String)
    (hforms : ¬ Text.ChangesForm front.toList piece.toList back.toList) :
    keyMatches (front ++ piece ++ back) piece = true ∧
      ∀ (catalog : Catalog) (tag : Tag), tag ∈ catalog.entries → tag.key = front ++ piece ++ back →
        tag ∈ shown catalog.entries piece := by
  have hmatches : keyMatches (front ++ piece ++ back) piece = true := by
    rw [keyMatches_iff, ← Text.lowerBetween_eq_lower_iff.2 hforms, String.toList_append,
      String.toList_append]
    exact Text.lowerBetween_infix front.toList piece.toList back.toList
  refine ⟨hmatches, fun catalog tag htag hkey => ?_⟩
  rw [shown_eq, matching, List.mem_filter, hkey]
  exact ⟨htag, hmatches⟩

/-- A word that ends in a sigma is found where no letter follows. -/
theorem word_with_sigma_finds_label :
    let entry : Tag := ⟨"Η ΟΔΟΣ ΜΑΣ", "612", by decide +kernel⟩
    ¬ Text.ChangesForm "Η ".toList "ΟΔΟΣ".toList " ΜΑΣ".toList ∧
      entry.key = "Η " ++ "ΟΔΟΣ" ++ " ΜΑΣ" ∧ keyMatches ("Η " ++ "ΟΔΟΣ" ++ " ΜΑΣ") "ΟΔΟΣ" = true ∧
      entry ∈ shown [entry] "ΟΔΟΣ" := by
  intro entry
  have hsame : Text.lowerBetween "Η ".toList.reverse "ΟΔΟΣ".toList " ΜΑΣ".toList =
      Text.lower "ΟΔΟΣ".toList := by
    decide +kernel
  have hforms := Text.lowerBetween_eq_lower_iff.1 hsame
  have hkey : entry.key = "Η " ++ "ΟΔΟΣ" ++ " ΜΑΣ" := by decide +kernel
  obtain ⟨hmatches, hshown⟩ := keyMatches_piece "Η " "ΟΔΟΣ" " ΜΑΣ" hforms
  exact ⟨hforms, hkey, hmatches, hshown ⟨[entry]⟩ entry List.mem_cons_self hkey⟩

/-- The last letter of `ΑΣ` alone has not the form that it has in the word: the label is not shown for
a piece of it. -/
theorem last_sigma_finds_nothing :
    let entry : Tag := ⟨"ΑΣ", "613", by decide +kernel⟩
    "Σ".toList <:+: entry.key.toList ∧ keyMatches entry.key "Σ" = false ∧
      shown [entry] "Σ" = [] := by
  decide +kernel

end Suggestion

end TagFormula
