import Mathlib.Data.List.Induction
import TagFormula.Proofs.FormulaText

/-!
# Runs of the calculator

A calculator changes only by attempts, and what it shows is told by the list of attempts alone.

* **`Tree.isFinite_of_eval`**: the value of a tree is finite, because every branch of evaluation ends
  in a check.
* **`Calculator.after`**, **`Calculator.lastTotal`**: the calculator after some attempts, and the total
  of the last of them that succeeds.
* **`Calculator.Shows`**: what a calculator shows of the attempts it has made. Text and flag are those
  of the last attempt, the total may be older; `calculate_shows` carries all of it over one attempt.
* **`after_shows_attempts`**: the same for every run, and what one attempt more answers.
-/

namespace TagFormula

/-! ## Totals are finite -/

section

variable {ν : Type} {a : Arithmetic ν}

/-- The check passes finite values only. -/
theorem Arithmetic.isFinite_of_checked {value result : ν} (h : a.checked value = .ok result) :
    a.isFinite result = true := by
  rw [checked] at h
  split at h
  · next hfinite =>
    cases h
    exact hfinite
  · cases h

/-- Every operator checks its result, the division behind its own test too. -/
theorem Arithmetic.isFinite_of_apply {op : BinaryOp} {left right result : ν}
    (h : a.apply op left right = .ok result) : a.isFinite result = true := by
  cases op with
  | add | subtract | multiply | power => exact isFinite_of_checked h
  | divide =>
    rw [apply] at h
    split at h
    · cases h
    · exact isFinite_of_checked h

/-- The last thing evaluation does at any node is to check the value. -/
theorem Tree.isFinite_of_eval {tree : Tree ν} {result : ν} (h : tree.eval a = .ok result) :
    a.isFinite result = true := by
  cases tree with
  | number value => exact Arithmetic.isFinite_of_checked h
  | negate operand =>
    obtain ⟨value, _, hnegate⟩ := bind_eq_ok h
    exact Arithmetic.isFinite_of_checked hnegate
  | binary op left right =>
    obtain ⟨l, _, hright⟩ := bind_eq_ok h
    obtain ⟨r, _, happly⟩ := bind_eq_ok hright
    exact Arithmetic.isFinite_of_apply happly

end

/-- A total that is shown is finite, as the value of each node is checked. -/
theorem isFinite_of_evaluate {text : String} {total : Float} (h : evaluate text = .ok total) :
    total.isFinite = true := by
  rw [evaluate] at h
  split at h
  · cases h
  · split at h
    · cases h
    · next tree _ =>
      rw [Tree.value, Tree.descend_nil] at h
      exact Tree.isFinite_of_eval h

/-- A calculation that succeeds gives the text of its tags and the value of that text. -/
theorem evaluate_of_calculate {tags : List Tag} {e : Evaluation} (h : calculate tags = .ok e) :
    e.text = formulaText tags ∧ evaluate e.text = .ok e.total := by
  rw [calculate] at h
  obtain ⟨total, htotal, rfl⟩ := map_eq_ok h
  exact ⟨rfl, htotal⟩

namespace Calculator

/-! ## One attempt -/

theorem calculate_of_ok (c : Calculator) {tags : List Tag} {e : Evaluation}
    (h : TagFormula.calculate tags = .ok e) :
    c.calculate tags = (⟨e.text, e.total, true⟩, .ok e) := by
  obtain ⟨htext, htotal⟩ := evaluate_of_calculate h
  rw [htext] at htotal
  rw [calculate]
  dsimp only
  rw [htotal, ← htext]

/-- A failure keeps the total, so that the last good one can still be shown. -/
theorem calculate_of_error (c : Calculator) {tags : List Tag} {e : FormulaError Float}
    (h : TagFormula.calculate tags = .error e) :
    c.calculate tags = ({ c with text := formulaText tags, isValid := false }, .error e) := by
  rw [calculate]
  rw [TagFormula.calculate] at h
  cases hvalue : evaluate (formulaText tags) with
  | ok total =>
    rw [hvalue] at h
    cases h
  | error e' =>
    rw [hvalue] at h
    cases h
    rfl

/-- The answer does not depend on what was calculated before. -/
theorem calculate_snd (c : Calculator) (tags : List Tag) :
    (c.calculate tags).2 = TagFormula.calculate tags := by
  cases h : TagFormula.calculate tags with
  | ok e => rw [calculate_of_ok c h]
  | error e => rw [calculate_of_error c h]

/-! ## Runs -/

/-- A new calculator after some attempts. -/
def after (attempts : List (List Tag)) : Calculator :=
  attempts.foldl (fun c tags => (c.calculate tags).1) {}

theorem after_append_singleton (attempts : List (List Tag)) (tags : List Tag) :
    after (attempts ++ [tags]) = ((after attempts).calculate tags).1 := by
  rw [after, List.foldl_append]
  rfl

/-- The total of the last attempt that succeeds; zero if none does. -/
def lastTotal (attempts : List (List Tag)) : Float :=
  (attempts.filterMap fun tags => (TagFormula.calculate tags).toOption).getLast?.elim 0.0 (·.total)

theorem lastTotal_append_of_ok (attempts : List (List Tag)) {tags : List Tag} {e : Evaluation}
    (h : TagFormula.calculate tags = .ok e) : lastTotal (attempts ++ [tags]) = e.total := by
  simp [lastTotal, h, Except.toOption]

/-- The specification looks further back at an attempt that fails. -/
theorem lastTotal_append_of_error (attempts : List (List Tag)) {tags : List Tag}
    {e : FormulaError Float} (h : TagFormula.calculate tags = .error e) :
    lastTotal (attempts ++ [tags]) = lastTotal attempts := by
  simp [lastTotal, h, Except.toOption]

/-- What a calculator shows of the attempts it has made. -/
structure Shows (c : Calculator) (attempts : List (List Tag)) : Prop where
  /-- The text is that of the last attempt. -/
  text_eq : c.text = attempts.getLast?.elim "" formulaText
  /-- The flag tells whether the last attempt succeeded. -/
  isValid_iff : c.isValid = true ↔
    ∃ tags e, attempts.getLast? = some tags ∧ TagFormula.calculate tags = .ok e
  total_eq : c.total = lastTotal attempts
  isFinite_total : c.total.isFinite = true
  /-- With the flag set, text and total belong together. -/
  evaluate_text : c.isValid = true → evaluate c.text = .ok c.total

/-- Before the first attempt there is no text, and the total is zero. -/
theorem shows_nil : Shows {} [] where
  text_eq := rfl
  isValid_iff := ⟨by simp, by simp⟩
  total_eq := rfl
  isFinite_total := by decide
  evaluate_text := by simp

/-- A calculator that shows its attempts goes on to do so. -/
theorem calculate_shows {c : Calculator} {attempts : List (List Tag)} (hc : c.Shows attempts)
    (tags : List Tag) : (c.calculate tags).1.Shows (attempts ++ [tags]) := by
  have hlast : (attempts ++ [tags]).getLast? = some tags := List.getLast?_concat
  cases h : TagFormula.calculate tags with
  | ok e =>
    obtain ⟨htext, hevaluate⟩ := evaluate_of_calculate h
    rw [calculate_of_ok c h]
    refine ⟨?_, ⟨fun _ => ⟨tags, e, hlast, h⟩, fun _ => rfl⟩, ?_, isFinite_of_evaluate hevaluate,
      fun _ => hevaluate⟩
    · rw [hlast, htext]
      rfl
    · rw [lastTotal_append_of_ok attempts h]
  | error e =>
    rw [calculate_of_error c h]
    refine ⟨?_, ⟨by simp, ?_⟩, ?_, hc.isFinite_total, by simp⟩
    · rw [hlast]
      rfl
    · rintro ⟨tags', e', hlast', h'⟩
      rw [hlast] at hlast'
      cases hlast'
      rw [h] at h'
      cases h'
    · -- the total stays, and so does the last success
      rw [lastTotal_append_of_error attempts h]
      exact hc.total_eq

/-- The invariant of a run. Induction on the attempts from their end, as each is added there. -/
theorem after_shows (attempts : List (List Tag)) : (after attempts).Shows attempts := by
  induction attempts using List.reverseRecOn with
  | nil => exact shows_nil
  | append_singleton attempts tags ih =>
    rw [after_append_singleton]
    exact calculate_shows ih tags

/-- **A calculator shows its last attempt and its last success.** After any attempts of a new
calculator the text is that of the last one, the flag tells whether it succeeded, the total is that
of the last one that did and is always finite, and with the flag set it is the value of the text.
One attempt more answers what the tags by themselves give, and if that is an error, it changes the
text and takes the flag away, no more. -/
theorem after_shows_attempts (attempts : List (List Tag)) :
    (after attempts).text = attempts.getLast?.elim "" formulaText ∧
      ((after attempts).isValid = true ↔
        ∃ tags e, attempts.getLast? = some tags ∧ TagFormula.calculate tags = .ok e) ∧
      (after attempts).total = lastTotal attempts ∧
      (after attempts).total.isFinite = true ∧
      ((after attempts).isValid = true → evaluate (after attempts).text = .ok (after attempts).total) ∧
      ∀ tags, ((after attempts).calculate tags).2 = TagFormula.calculate tags ∧
        ∀ e, TagFormula.calculate tags = .error e → ((after attempts).calculate tags).1 =
          { after attempts with text := formulaText tags, isValid := false } := by
  have h := after_shows attempts
  refine ⟨h.text_eq, h.isValid_iff, h.total_eq, h.isFinite_total, h.evaluate_text, fun tags => ?_⟩
  refine ⟨calculate_snd _ tags, fun e he => ?_⟩
  rw [calculate_of_error _ he]

/-- A seven after an empty formula, and then an empty formula again. -/
theorem after_empty_and_seven_shows :
    ∃ seven : Tag, seven.value = "7" ∧ (after [[], [seven]]).isValid = true ∧
      evaluate "7" = .ok (after [[], [seven]]).total ∧
      ((after [[], [seven]]).calculate []).1 =
        ⟨"", (after [[], [seven]]).total, false⟩ := by
  refine ⟨⟨"seven", "7", by decide +kernel⟩, rfl, ?_⟩
  obtain ⟨_, _, _, _, hevaluate, hnext⟩ :=
    after_shows_attempts [[], [⟨"seven", "7", by decide +kernel⟩]]
  have hvalid : (after [[], [⟨"seven", "7", by decide +kernel⟩]]).isValid = true := by
    decide +kernel
  have htext : (after [[], [⟨"seven", "7", by decide +kernel⟩]]).text = "7" := by decide +kernel
  have hempty : TagFormula.calculate [] = .error .empty := by
    rw [TagFormula.calculate, evaluate_formulaText]
    rfl
  have hshown := hevaluate hvalid
  rw [htext] at hshown
  exact ⟨hvalid, hshown, (hnext []).2 .empty hempty⟩

end Calculator

end TagFormula
