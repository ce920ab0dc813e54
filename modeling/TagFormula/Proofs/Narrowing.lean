import Mathlib.Data.List.Basic
import Mathlib.Data.List.TakeWhile
import TagFormula.Proofs.EditorRun
import TagFormula.Proofs.SuggestionOrder

/-!
# Typing narrows the suggestions

A label matches a text if its lower-case image contains that of the text. While a text grows, its
image grows by an image at its end, so what contains the longer one contains the shorter one. One
character does not follow that rule: a sigma at the end of a word has a form of its own, which it
loses when a letter is typed behind it.

* **`Text.hasPiece_iff`**: containment as the library has it.
* **`Text.lowerBetween`**, **`Text.lowerAfter_append`**: the image of a text in its surroundings, and
  how the image of a joined text is put together.
* **`Text.lowerBetween_eq_iff`**: a text has the same image in two surroundings exactly if each sigma in
  it has the same form.
* **`Text.endsInSigma`**: the text ends in a sigma that ends a word.
* **`Text.lower_prefix`**: a text without such an end keeps its image when it grows, and so does any
  text behind which no letter comes.
* **`Editor.shown_push_sublist`**: then typing narrows the suggestions.
* **`Editor.letter_behind_sigma_widens`**: and else it need not.
-/

namespace TagFormula

namespace Text

/-! ## Pieces -/

theorem hasPiece_iff {piece text : List Char} : hasPiece piece text = true ↔ piece <:+: text := by
  induction text with
  | nil => simp [hasPiece]
  | cons c rest ih =>
    rw [hasPiece, Bool.or_eq_true, ih, List.isPrefixOf_iff_prefix, List.infix_cons_iff]

/-! ## Lower case of joined texts

The image of a joined text is that of its front, with the back in view, and behind it that of the
back, with the front in view. -/

/-- The lower-case image of a text between two others; `before` has its nearest character first. -/
def lowerBetween (before : List Char) (cs after : List Char) : List Char :=
  match cs with
  | [] => []
  | c :: rest =>
    (if c = 'Σ' then [if endsWord before (rest ++ after) then 'ς' else 'σ'] else lowerChar c) ++
      lowerBetween (c :: before) rest after

/-- Lower case of a text in two parts. Each part needs the other for the form of its sigmas. -/
theorem lowerAfter_append (before cs after : List Char) :
    lowerAfter before (cs ++ after) =
      lowerBetween before cs after ++ lowerAfter (cs.reverse ++ before) after := by
  induction cs generalizing before with
  | nil => rfl
  | cons c rest ih =>
    rw [List.cons_append, lowerAfter, lowerBetween, ih (c :: before), List.append_assoc,
      List.reverse_cons, List.append_assoc]
    rfl

theorem lower_append (cs after : List Char) :
    lower (cs ++ after) = lowerBetween [] cs after ++ lowerAfter cs.reverse after := by
  rw [lower, lowerAfter_append, List.append_nil]

theorem lower_eq_lowerBetween (cs : List Char) : lower cs = lowerBetween [] cs [] := by
  have happend := lower_append cs []
  rwa [List.append_nil, lowerAfter, List.append_nil] at happend

/-! ## One text in two surroundings -/

/-- The sigmas of a text are its first character, if that is one, and those behind it. -/
theorem forall_sigma_cons {c : Char} {rest : List Char} {p : List Char → List Char → Prop} :
    (∀ front back, c :: rest = front ++ 'Σ' :: back → p front back) ↔
      (c = 'Σ' → p [] rest) ∧ ∀ front back, rest = front ++ 'Σ' :: back → p (c :: front) back := by
  constructor
  · intro h
    constructor
    · rintro rfl
      exact h [] rest rfl
    · rintro front back rfl
      exact h (c :: front) back rfl
  · rintro ⟨hfirst, hrest⟩ front back heq
    cases front with
    | nil =>
      cases heq
      exact hfirst rfl
    | cons d front =>
      cases heq
      exact hrest front back rfl

/-- Only a sigma is written in a form that depends on what stands around it. -/
theorem lowerBetween_eq_iff {before before' cs after after' : List Char} :
    lowerBetween before cs after = lowerBetween before' cs after' ↔
      ∀ front back, cs = front ++ 'Σ' :: back →
        endsWord (front.reverse ++ before) (back ++ after) =
          endsWord (front.reverse ++ before') (back ++ after') := by
  induction cs generalizing before before' with
  | nil => simp [lowerBetween]
  | cons c rest ih =>
    have hreverse (front context : List Char) :
        (c :: front).reverse ++ context = front.reverse ++ c :: context := by
      rw [List.reverse_cons, List.append_assoc]
      rfl
    rw [forall_sigma_cons, lowerBetween, lowerBetween]
    simp only [hreverse]
    rw [← ih]
    by_cases hc : c = 'Σ'
    · -- the image of a sigma is one character, which tells its form
      have hform (x y : Bool) : (if x then 'ς' else 'σ') = (if y then 'ς' else 'σ') ↔ x = y := by
        cases x <;> cases y <;> decide
      simp only [hc, if_true, List.singleton_append, List.cons.injEq, hform, List.reverse_nil,
        List.nil_append, forall_const]
    · simp [hc]

/-! ## Sigmas that end words -/

/-- The text ends in a sigma that ends a word: a cased letter precedes it, and only characters without
influence follow. -/
def endsInSigma (cs : List Char) : Bool :=
  match cs.reverse.dropWhile (inRanges caseIgnorableRanges) with
  | [] => false
  | c :: before => c = 'Σ' && startsCased before

/-- A sigma behind a letter, with nothing but ignorable characters to the end of the text. -/
theorem endsInSigma_of_append {before after : List Char} (hbefore : startsCased before = true)
    (hafter : after.all (inRanges caseIgnorableRanges) = true) :
    endsInSigma (before.reverse ++ 'Σ' :: after) = true := by
  have hsigma : inRanges caseIgnorableRanges 'Σ' = false := by decide +kernel
  have hreverse : (before.reverse ++ 'Σ' :: after).reverse = after.reverse ++ 'Σ' :: before := by
    simp
  have hdrop : (after.reverse ++ 'Σ' :: before).dropWhile (inRanges caseIgnorableRanges) =
      'Σ' :: before := by
    rw [List.dropWhile_append_of_pos (by simpa using hafter),
      List.dropWhile_cons_of_neg (by simp [hsigma])]
  rw [endsInSigma, hreverse, hdrop]
  simpa using hbefore

/-- Characters that are ignored do not make a word go on. -/
theorem startsCased_of_all {cs : List Char} (h : cs.all (inRanges caseIgnorableRanges) = true) :
    startsCased cs = false := by
  rw [startsCased, List.dropWhile_eq_nil_iff.2 (List.all_eq_true.1 h)]

/-- What follows a text is seen only if the text itself has no influence. -/
theorem startsCased_append (cs after : List Char) :
    startsCased (cs ++ after) =
      if cs.all (inRanges caseIgnorableRanges) then startsCased after else startsCased cs := by
  rw [startsCased, List.dropWhile_append]
  by_cases hall : cs.all (inRanges caseIgnorableRanges) = true
  · have hnil : cs.dropWhile (inRanges caseIgnorableRanges) = [] :=
      List.dropWhile_eq_nil_iff.2 (List.all_eq_true.1 hall)
    rw [hnil, if_pos hall]
    rfl
  · rw [if_neg hall, startsCased]
    cases hrest : cs.dropWhile (inRanges caseIgnorableRanges) with
    | nil => exact absurd (List.all_eq_true.2 (List.dropWhile_eq_nil_iff.1 hrest)) hall
    | cons c rest => rfl

/-- Only a sigma at the end of a text depends on what follows. -/
theorem lowerBetween_eq {before cs after : List Char}
    (h : ¬ (endsInSigma (before.reverse ++ cs) = true ∧ startsCased after = true)) :
    lowerBetween before cs after = lowerBetween before cs [] := by
  rw [lowerBetween_eq_iff]
  rintro front back rfl
  rw [endsWord, endsWord, startsCased_append back, List.append_nil]
  cases hbefore : startsCased (front.reverse ++ before) with
  | false => rfl
  | true =>
    split
    · next hall =>
      -- the sigma is at the end of the text, so no letter may follow
      have hsigma := endsInSigma_of_append hbefore hall
      rw [List.reverse_append, List.reverse_reverse, List.append_assoc] at hsigma
      have hafter : startsCased after = false := by
        rw [← Bool.not_eq_true]
        exact fun hafter => h ⟨hsigma, hafter⟩
      rw [hafter, startsCased_of_all hall]
    · rfl

/-- A text keeps its image when it grows, unless it ends in a sigma and a letter comes behind it. -/
theorem lower_prefix {cs after : List Char}
    (h : ¬ (endsInSigma cs = true ∧ startsCased after = true)) : lower cs <+: lower (cs ++ after) := by
  have hbetween : lowerBetween [] cs after = lowerBetween [] cs [] := lowerBetween_eq h
  rw [lower_append, hbetween, ← lower_eq_lowerBetween]
  exact List.prefix_append ..

end Text

namespace Suggestion

/-- An empty text is no exception: its image is contained in every text. -/
theorem keyMatches_iff {key text : String} :
    keyMatches key text = true ↔ Text.lower text.toList <:+: Text.lower key.toList := by
  rw [keyMatches, Bool.or_eq_true, Text.hasPiece_iff, or_iff_right_of_imp]
  intro hempty
  rw [String.isEmpty_iff.1 hempty]
  exact List.nil_infix

/-- A character more narrows the search, except behind a sigma that it changes. -/
theorem keyMatches_of_push {key text : String} {c : Char}
    (hsigma : ¬ (Text.endsInSigma text.toList = true ∧ Text.startsCased [c] = true))
    (h : keyMatches key (text.push c) = true) : keyMatches key text = true := by
  rw [keyMatches_iff, String.toList_push] at h
  rw [keyMatches_iff]
  exact (Text.lower_prefix hsigma).isInfix.trans h

/-- Fewer matches are fewer entries, and those that stay keep their order. -/
theorem shown_sublist {text text' : String}
    (h : ∀ key, keyMatches key text' = true → keyMatches key text = true) (entries : List Tag) :
    (shown entries text').Sublist (shown entries text) := by
  rw [shown_eq, shown_eq]
  exact List.monotone_filter_right entries fun tag => h tag.key

end Suggestion

namespace Editor

open Suggestion

/-- **Typing narrows the suggestions.** Unless the text ends in a sigma that ends a word and a letter is
typed behind it, every label that matches the longer text matches the shorter one; so if the character
is no operand symbol, what is shown after it was shown before, in the same order. -/
theorem shown_push_sublist (text : String) (c : Char)
    (hsigma : ¬ (Text.endsInSigma text.toList = true ∧ Text.startsCased [c] = true)) :
    (∀ key, keyMatches key (text.push c) = true → keyMatches key text = true) ∧
      ∀ e : Editor, e.freeText = text → Operand.ofChar? c = none → (e.push c).shown.Sublist e.shown := by
  have hkeys : ∀ key, keyMatches key (text.push c) = true → keyMatches key text = true :=
    fun key => keyMatches_of_push hsigma
  refine ⟨hkeys, ?_⟩
  rintro e rfl hc
  rw [push_of_not_operand hc]
  exact shown_sublist hkeys e.catalog.entries

/-- A sigma that ends a word ends it before a full stop as well. -/
theorem full_stop_behind_sigma_narrows :
    let stopped : Tag := ⟨"ΑΣ.", "1", by decide +kernel⟩
    let e : Editor := ⟨⟨[stopped]⟩, [], "ΑΣ", none⟩
    Text.endsInSigma "ΑΣ".toList = true ∧ Text.startsCased ['.'] = false ∧
      Operand.ofChar? '.' = none ∧ (e.push '.').shown = [stopped] ∧
      (e.push '.').shown.Sublist e.shown := by
  intro stopped e
  have hstop : Text.startsCased ['.'] = false := by decide +kernel
  have hsigma : ¬ (Text.endsInSigma "ΑΣ".toList = true ∧ Text.startsCased ['.'] = true) := by
    simp [hstop]
  refine ⟨by decide +kernel, hstop, by decide, by decide +kernel, ?_⟩
  exact (shown_push_sublist "ΑΣ" '.' hsigma).2 e rfl (by decide)

/-- The text `ΑΣ` ends in a sigma of its own form, which the label `ΑΣΑ` does not have: the label is
not shown until the last letter is typed. -/
theorem letter_behind_sigma_widens :
    let entry : Tag := ⟨"ΑΣΑ", "1", by decide +kernel⟩
    let e : Editor := ⟨⟨[entry]⟩, [], "ΑΣ", none⟩
    Operand.ofChar? 'Α' = none ∧ e.shown = [] ∧ (e.push 'Α').shown = [entry] ∧
      ¬ (e.push 'Α').shown.Sublist e.shown ∧
      keyMatches "ΑΣΑ" ("ΑΣ".push 'Α') = true ∧ keyMatches "ΑΣΑ" "ΑΣ" = false := by
  decide +kernel

end Editor

end TagFormula
