import Mathlib.Algebra.GroupWithZero.Nat
import TagFormula.Calculator
import TagFormula.Proofs.ErrorPosition
import TagFormula.Proofs.Lexing
import TagFormula.Proofs.TreeValue

/-!
# The text of a formula

The values of the tags stand in a formula's text with a space between two of them. No value runs into
the next one, so the tags come back out as tokens, one for one.

* **`Tag.lexeme`**, **`valueStart`**: the token a tag becomes, and where it stands.
* **`Token.scan_formulaText`**: the tokens of a formula's text, from any position on. Induction on the
  tags; the space behind the first value parts the text.
* **`FormulaError.stage`**: the stages of a calculation, told apart by their errors.
* **`formulaText_tokens`**: the tokens, and what follows for calculations.
-/

namespace TagFormula

/-! ## Tags as tokens -/

/-- What the value of a tag is in a formula: an operand, or the double nearest to a numeral. -/
def Tag.lexeme (tag : Tag) : Lexeme Float :=
  match Operand.ofChars? tag.value.toList with
  | some op => .operand op
  | none => .number (numeralValue tag.value.toList)

/-- The position of a value in a formula's text: behind the values before it and their spaces. -/
def valueStart (tags : List Tag) (i : Nat) : Nat :=
  ((tags.take i).map fun tag => tag.value.utf8ByteSize + 1).sum

/-- Each value starts behind the one before it and a blank. -/
theorem valueStart_cons_succ (tag : Tag) (tags : List Tag) (i : Nat) :
    valueStart (tag :: tags) (i + 1) = tag.value.utf8ByteSize + 1 + valueStart tags i := by
  simp [valueStart]

namespace Token

/-- The value of a tag is one token. -/
theorem scan_value (tag : Tag) (position : Nat) :
    scan position tag.value.toList = .ok [⟨tag.lexeme, position⟩] := by
  rw [Tag.lexeme]
  cases hop : Operand.ofChars? tag.value.toList with
  | some op =>
    rw [Operand.ofChars?_eq_some_iff.1 hop, scan_operand, scan_nil]
    rfl
  | none =>
    -- the invariant of tags leaves a numeral
    have hvalue := tag.isTagValue_value
    rw [isTagValue, hop, Option.isSome_none, Bool.or_false] at hvalue
    exact scan_numeral hvalue position

/-- The text of a formula that goes on has a space behind its first value. -/
theorem toList_formulaText_cons (tag next : Tag) (more : List Tag) :
    (formulaText (tag :: next :: more)).toList =
      tag.value.toList ++ ' ' :: (formulaText (next :: more)).toList := by
  rw [formulaText, List.map_cons, List.map_cons, String.intercalate_cons_cons, String.toList_append,
    String.toList_append, List.append_assoc]
  rfl

/-- The tokens of a formula's text that starts at a position: those of the tags, where their values
stand. -/
theorem scan_formulaText (tags : List Tag) (position : Nat) :
    scan position (formulaText tags).toList =
      .ok (tags.mapIdx fun i tag => ⟨tag.lexeme, position + valueStart tags i⟩) := by
  induction tags generalizing position with
  | nil => exact scan_nil
  | cons tag rest ih =>
    cases rest with
    | nil =>
      rw [formulaText, List.map_cons, List.map_nil, String.intercalate_singleton, scan_value]
      rfl
    | cons next more =>
      -- the other values stand behind the first one and its space
      have hstart (i : Nat) : position + valueStart (tag :: next :: more) (i + 1) =
          position + tag.value.utf8ByteSize + 1 + valueStart (next :: more) i := by
        rw [valueStart_cons_succ]
        omega
      rw [toList_formulaText_cons, scan_append_blank rfl, scan_value, String.utf8Len_toList, ih,
        List.mapIdx_cons (a := tag)]
      simp only [hstart]
      rfl

/-- The text of a formula is read as one token for each tag. Induction on the tags; a blank ends each
token but the last. -/
theorem ofText_formulaText (tags : List Tag) :
    ofText (formulaText tags) = .ok (tags.mapIdx fun i tag => ⟨tag.lexeme, valueStart tags i⟩) := by
  rw [ofText, scan_formulaText]
  simp only [Nat.zero_add]

end Token

/-! ## Stages of a calculation -/

/-- The stages of a calculation: cutting the text into tokens, building a tree of them, and
evaluating the tree. -/
inductive Stage where
  | lexing
  | parsing
  | evaluation
  deriving DecidableEq

/-- The part of the calculation that reports an error. -/
def FormulaError.stage {ν : Type} : FormulaError ν → Stage
  | .unknownCharacter _ _ | .invalidNumber _ _ => .lexing
  | .empty | .unexpected _ _ | .unexpectedEnd | .tooDeep _ | .unbalanced _ => .parsing
  | .divisionByZero | .nonFinite _ => .evaluation

section

variable {ν : Type} {e : FormulaError ν}

/-- Tokens that are no formula: there are none, or a token is refused, or the end is. -/
theorem Tree.ofTokens_error_cases {tokens : List (Token ν)} (h : Tree.ofTokens tokens = .error e) :
    e = .empty ∧ tokens = [] ∨ e.stage = .parsing ∧ e ≠ .empty := by
  cases tokens with
  | nil =>
    cases h
    exact Or.inl ⟨rfl, rfl⟩
  | cons token more =>
    right
    rw [Cursor.ofTokens_eq_run (List.cons_ne_nil _ _), Cursor.run] at h
    cases hadvance : (Cursor.operand []).advance (token :: more) with
    | error e' =>
      rw [hadvance] at h
      cases h
      -- only some errors can be about a token
      obtain ⟨_, refused, _, cursor, _, _, hrefused⟩ := Cursor.advance_eq_error hadvance
      have hpoints := Cursor.pointsAt_of_step hrefused
      cases e with
      | unexpected _ _ | tooDeep _ | unbalanced _ => exact ⟨rfl, by simp⟩
      | _ => exact hpoints.elim
    | ok cursor =>
      rw [hadvance] at h
      rcases Cursor.finish_eq_error h with rfl | ⟨_, _, rfl⟩ <;> exact ⟨rfl, by simp⟩

theorem stage_of_checked {a : Arithmetic ν} {value : ν} (h : a.checked value = .error e) :
    e.stage = .evaluation := by
  rw [Arithmetic.checked] at h
  split at h
  · cases h
  · cases h
    rfl

/-- Every operator reports an error of evaluation only, the division by zero too. -/
theorem stage_of_apply {a : Arithmetic ν} {op : BinaryOp} {left right : ν}
    (h : a.apply op left right = .error e) : e.stage = .evaluation := by
  cases op with
  | add | subtract | multiply | power => exact stage_of_checked h
  | divide =>
    rw [Arithmetic.apply] at h
    split at h
    · cases h
      rfl
    · exact stage_of_checked h

/-- Every error of evaluation is that of a check. -/
theorem stage_of_eval {a : Arithmetic ν} {tree : Tree ν} (h : tree.eval a = .error e) :
    e.stage = .evaluation := by
  induction tree with
  | number value => exact stage_of_checked h
  | negate operand ih =>
    rcases bind_eq_error h with hoperand | ⟨value, _, hnegate⟩
    · exact ih hoperand
    · exact stage_of_checked hnegate
  | binary op left right ihl ihr =>
    rcases bind_eq_error h with hleft | ⟨l, _, h⟩
    · exact ihl hleft
    · rcases bind_eq_error h with hright | ⟨r, _, happly⟩
      · exact ihr hright
      · exact stage_of_apply happly

end

/-! ## Calculations -/

/-- The lexer cannot fail here, so what remains is the parser and the evaluation. -/
theorem evaluate_formulaText (tags : List Tag) :
    evaluate (formulaText tags) =
      (Tree.ofTokens (tags.mapIdx fun i tag => ⟨tag.lexeme, valueStart tags i⟩)).bind
        (Tree.eval .double) := by
  rw [evaluate, Token.ofText_formulaText]
  simp only
  cases Tree.ofTokens (tags.mapIdx fun i tag => ⟨tag.lexeme, valueStart tags i⟩) with
  | error e => rfl
  | ok tree => exact Tree.descend_nil .double tree

/-- A calculation fails where its text is parsed, or where the tree is evaluated. -/
theorem error_of_calculate {tags : List Tag} {e : FormulaError Float}
    (h : calculate tags = .error e) :
    Tree.ofTokens (tags.mapIdx fun i tag => ⟨tag.lexeme, valueStart tags i⟩) = .error e ∨
      ∃ tree : Tree Float, tree.eval .double = .error e := by
  rw [calculate] at h
  cases hevaluate : evaluate (formulaText tags) with
  | error e' =>
    rw [hevaluate] at h
    cases h
    rw [evaluate_formulaText] at hevaluate
    rcases bind_eq_error hevaluate with htokens | ⟨tree, _, hvalue⟩
    · exact Or.inl htokens
    · exact Or.inr ⟨tree, hvalue⟩
  | ok total =>
    rw [hevaluate] at h
    cases h

/-- A calculation that fails has no tags, or fails behind the lexer. -/
theorem calculate_error_cases {tags : List Tag} {e : FormulaError Float}
    (h : calculate tags = .error e) : e = .empty ∧ tags = [] ∨ e.stage ≠ .lexing ∧ e ≠ .empty := by
  rcases error_of_calculate h with htokens | ⟨tree, hvalue⟩
  · rcases Tree.ofTokens_error_cases htokens with ⟨hempty, hnil⟩ | ⟨hstage, hne⟩
    · exact Or.inl ⟨hempty, List.mapIdx_eq_nil_iff.1 hnil⟩
    · exact Or.inr ⟨by rw [hstage]; decide, hne⟩
  · have hstage := stage_of_eval hvalue
    refine Or.inr ⟨by rw [hstage]; decide, ?_⟩
    rintro rfl
    cases hstage

theorem calculate_congr {tags others : List Tag}
    (h : others.map (·.value) = tags.map (·.value)) : calculate others = calculate tags := by
  rw [calculate, calculate, formulaText, formulaText, h]

/-- **A tag is one token of its formula.** The text of tags is cut into one token a tag, in order:
its operand, or the double nearest to its numeral, at the position behind the values before it. So
a calculation has no fault in its characters or numbers, is empty only without tags, and depends on
the values of the tags alone. -/
theorem formulaText_tokens (tags : List Tag) :
    Token.ofText (formulaText tags) =
        .ok (tags.mapIdx fun i tag => ⟨tag.lexeme, valueStart tags i⟩) ∧
      (∀ c position, calculate tags ≠ .error (.unknownCharacter c position)) ∧
      (∀ text position, calculate tags ≠ .error (.invalidNumber text position)) ∧
      (calculate tags = .error .empty ↔ tags = []) ∧
      ∀ others : List Tag, others.map (·.value) = tags.map (·.value) →
        calculate others = calculate tags := by
  have hlexing {e : FormulaError Float} (h : e.stage = .lexing) : calculate tags ≠ .error e := by
    intro hcalculate
    rcases calculate_error_cases hcalculate with ⟨rfl, _⟩ | ⟨hstage, _⟩
    · cases h
    · exact hstage h
  refine ⟨Token.ofText_formulaText tags, fun c position => hlexing rfl,
    fun text position => hlexing rfl, ⟨fun h => ?_, ?_⟩, fun others h => calculate_congr h⟩
  · rcases calculate_error_cases h with ⟨_, hnil⟩ | ⟨_, hne⟩
    · exact hnil
    · exact absurd rfl hne
  · rintro rfl
    rw [calculate, evaluate_formulaText]
    rfl

/-- A half of three, with and without names. -/
theorem formulaText_three_halves_tokens :
    Token.ofText "3. * .5" =
        .ok [⟨.number (numeralValue ['3', '.']), 0⟩, ⟨.operand .multiply, 3⟩,
          ⟨.number (numeralValue ['.', '5']), 5⟩] ∧
      calculate [⟨"three", "3.", by decide +kernel⟩, Tag.ofOperand .multiply,
          ⟨"half", ".5", by decide +kernel⟩] =
        calculate [⟨"3.", "3.", by decide +kernel⟩, ⟨"of", "*", by decide +kernel⟩,
          ⟨".5", ".5", by decide +kernel⟩] := by
  have h := formulaText_tokens [⟨"3.", "3.", by decide +kernel⟩, ⟨"of", "*", by decide +kernel⟩,
    ⟨".5", ".5", by decide +kernel⟩]
  exact ⟨h.1, h.2.2.2.2 [⟨"three", "3.", by decide +kernel⟩, Tag.ofOperand .multiply,
    ⟨"half", ".5", by decide +kernel⟩] rfl⟩

end TagFormula
