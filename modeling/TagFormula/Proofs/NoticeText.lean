import TagFormula.Proofs.FormulaText
import TagFormula.Proofs.NumberText

/-!
# The text of a notice

A calculation that fails opens a notice with the message of its error. The message is made of words with
one space between two of them, and only the numbers in it can be of any length: the position, and a
number that is refused.

* **`FormulaError.words`**, **`FormulaError.toList_notice`**: the words of the notice of an error.
* **`FormulaError.length_wrappedLines_notice`**: the lines that they take.
* **`calculate_error`**: the errors of calculations, and that their positions are in the formula's text.
-/

namespace TagFormula

open Screen Text

/-! ## Errors of calculations -/

section

variable {ν : Type} {e : FormulaError ν}

/-- The position that an error reports. -/
def FormulaError.position? : FormulaError ν → Option Nat
  | .unknownCharacter _ position | .invalidNumber _ position | .unexpected _ position
  | .tooDeep position | .unbalanced position => some position
  | .empty | .unexpectedEnd | .divisionByZero | .nonFinite _ => none

/-- The token that an error is about is at the position that it reports. -/
theorem FormulaError.PointsAt.position?_eq {token : Token ν} (h : e.PointsAt token) :
    e.position? = some token.position := by
  cases e with
  | unexpected | tooDeep => exact congrArg some h
  | unbalanced => exact congrArg some h.1
  | _ => exact h.elim

/-- The position that is reported is that of a token: of the one that is refused, or of a parenthesis
that is not closed. -/
theorem Tree.exists_token_of_position {tokens : List (Token ν)} (h : ofTokens tokens = .error e)
    {position : Nat} (hposition : e.position? = some position) :
    ∃ token ∈ tokens, token.position = position := by
  have hne : tokens ≠ [] := by
    rintro rfl
    cases h
    cases hposition
  rw [Cursor.ofTokens_eq_run hne, Cursor.run] at h
  cases hadvance : (Cursor.operand []).advance tokens with
  | error e' =>
    rw [hadvance] at h
    cases h
    -- the token that is refused has the position of the error
    obtain ⟨_, refused, _, _, rfl, _, hrefused⟩ := Cursor.advance_eq_error hadvance
    have hpoints := Cursor.pointsAt_of_step hrefused
    refine ⟨refused, by simp, ?_⟩
    rw [hpoints.position?_eq] at hposition
    exact Option.some.inj hposition
  | ok cursor =>
    rw [hadvance] at h
    have hend := Cursor.finish_eq_error h
    rw [Cursor.groups_advance hadvance] at hend
    rcases hend with rfl | ⟨opening, hopening, rfl⟩
    · cases hposition
    · -- the parenthesis that is left open is one of the tokens
      rcases mem_foldl_pairParen (List.mem_of_head? hopening) with hnil | ⟨hmem, _⟩
      · cases hnil
      · exact ⟨opening, hmem, Option.some.inj hposition⟩

/-- A number is refused because it is not finite. -/
theorem Tree.not_isFinite_of_eval {a : Arithmetic ν} {tree : Tree ν} {value : ν}
    (h : tree.eval a = .error (.nonFinite value)) : a.isFinite value = false := by
  -- only the check of a result makes this error
  have hchecked {v : ν} (hv : a.checked v = .error (.nonFinite value)) :
      a.isFinite value = false := by
    rw [Arithmetic.checked] at hv
    split at hv
    · cases hv
    · next hfinite =>
      cases hv
      exact Bool.eq_false_iff.2 hfinite
  induction tree with
  | number v => exact hchecked h
  | negate operand ih =>
    rcases bind_eq_error h with hoperand | ⟨v, _, hnegate⟩
    · exact ih hoperand
    · exact hchecked hnegate
  | binary op left right ihl ihr =>
    rcases bind_eq_error h with hleft | ⟨l, _, h⟩
    · exact ihl hleft
    · rcases bind_eq_error h with hright | ⟨r, _, happly⟩
      · exact ihr hright
      · cases op with
        | add | subtract | multiply | power => exact hchecked happly
        | divide =>
          rw [Arithmetic.apply] at happly
          split at happly
          · cases happly
          · exact hchecked happly

end

/-- Every value stands in the formula's text. -/
theorem valueStart_le {tags : List Tag} {i : Nat} (h : i < tags.length) :
    valueStart tags i ≤ (formulaText tags).utf8ByteSize := by
  induction tags generalizing i with
  | nil => cases h
  | cons tag rest ih =>
    cases i with
    | zero => exact Nat.zero_le _
    | succ i =>
      cases rest with
      | nil => simp at h
      | cons next more =>
        have hmore := ih (Nat.lt_of_succ_lt_succ h)
        have hblank : ' '.utf8Size = 1 := rfl
        -- the text is the value, a blank and the text of the other tags
        have hsize : (formulaText (tag :: next :: more)).utf8ByteSize =
            tag.value.utf8ByteSize + (' '.utf8Size + (formulaText (next :: more)).utf8ByteSize) := by
          rw [← String.utf8Len_toList, Token.toList_formulaText_cons, String.utf8Len_append,
            String.utf8Len_cons, String.utf8Len_toList, String.utf8Len_toList, Nat.add_comm ' '.utf8Size]
        rw [valueStart_cons_succ, hsize]
        omega

/-- A number right behind a number is refused. -/
theorem calculate_two_numbers {a b : Tag} {x y : Float} (ha : a.lexeme = .number x)
    (hb : b.lexeme = .number y) :
    calculate [a, b] = .error (.unexpected (.number y) (a.value.utf8ByteSize + 1)) := by
  have htokens : Tree.ofTokens ([a, b].mapIdx fun i tag => ⟨tag.lexeme, valueStart [a, b] i⟩) =
      .error (.unexpected (.number y) (a.value.utf8ByteSize + 1)) := by
    show Tree.ofTokens [⟨a.lexeme, valueStart [a, b] 0⟩, ⟨b.lexeme, valueStart [a, b] 1⟩] = _
    rw [ha, hb, Cursor.ofTokens_eq_run (List.cons_ne_nil _ _)]
    rfl
  rw [calculate, evaluate_formulaText, htokens]
  rfl

/-- An error of a calculation is none of the lexer, its position is in the formula's text, and the
number that it refuses is not finite. -/
theorem calculate_error {tags : List Tag} {e : FormulaError Float} (h : calculate tags = .error e) :
    e.stage ≠ .lexing ∧
      (∀ position, e.position? = some position → position ≤ (formulaText tags).utf8ByteSize) ∧
      ∀ value, e = .nonFinite value → value.isFinite = false := by
  have hstage : e.stage ≠ .lexing := by
    rcases calculate_error_cases h with ⟨rfl, _⟩ | ⟨hstage, _⟩
    · decide
    · exact hstage
  refine ⟨hstage, fun position hposition => ?_, ?_⟩
  · rcases error_of_calculate h with htokens | ⟨tree, hvalue⟩
    · obtain ⟨token, htoken, rfl⟩ := Tree.exists_token_of_position htokens hposition
      obtain ⟨i, hi, rfl⟩ := List.mem_mapIdx.1 htoken
      exact valueStart_le hi
    · -- no error of evaluation has a position
      have hevaluation := stage_of_eval hvalue
      cases e with
      | divisionByZero | nonFinite => cases hposition
      | _ => cases hevaluation
  · rintro value rfl
    rcases error_of_calculate h with htokens | ⟨tree, hvalue⟩
    · rcases Tree.ofTokens_error_cases htokens with ⟨hempty, _⟩ | ⟨hparsing, _⟩
      · cases hempty
      · cases hparsing
    · exact Tree.not_isFinite_of_eval hvalue

namespace FormulaError

/-- The text of the notice of an error. -/
def notice (e : FormulaError Float) : String :=
  s!"Invalid expression: {e.message}"

/-- The words of a notice behind the first one. The errors of the lexer, which no calculation of tags
has, are left out. -/
def words : FormulaError Float → List (List Char)
  | .empty => ["expression:".toList, "Expression".toList, "is".toList, "empty".toList]
  | .unexpected lexeme position =>
    ["expression:".toList, "Unexpected".toList, '\'' :: (lexeme.text.toList ++ ['\'']), "at".toList,
      "position".toList, Nat.toDigits 10 position]
  | .unexpectedEnd =>
    ["expression:".toList, "Unexpected".toList, "end".toList, "of".toList, "expression,".toList,
      "expected".toList, "a".toList, "number".toList, "or".toList, "'('".toList]
  | .tooDeep position =>
    ["expression:".toList, "Expression".toList, "is".toList, "nested".toList, "too".toList,
      "deeply".toList, "at".toList, "position".toList, Nat.toDigits 10 position]
  | .unbalanced position =>
    ["expression:".toList, "Unbalanced".toList, "parenthesis".toList, "at".toList, "position".toList,
      Nat.toDigits 10 position]
  | .divisionByZero => ["expression:".toList, "Division".toList, "by".toList, "zero".toList]
  | .nonFinite value =>
    ["expression:".toList, "Result".toList, "is".toList, "not".toList, "a".toList, "finite".toList,
      "number".toList, '(' :: ((NumberFormat.plain.write value).toList ++ [')'])]
  | .unknownCharacter _ _ | .invalidNumber _ _ => []

/-- The notice, cut into its words. Of each kind of error, only the numbers are not known. -/
theorem toList_notice {e : FormulaError Float} (h : e.stage ≠ .lexing) :
    e.notice.toList = "Invalid".toList ++ e.words.flatMap (' ' :: ·) := by
  cases e with
  | unknownCharacter | invalidNumber => exact absurd rfl h
  | unexpected lexeme position =>
    show ("Invalid expression: " ++
      ("Unexpected '" ++ lexeme.text ++ "' at position " ++ position.repr)).toList = _
    simp [words, Nat.repr]
  | tooDeep position =>
    show ("Invalid expression: " ++
      ("Expression is nested too deeply at position " ++ position.repr)).toList = _
    simp [words, Nat.repr]
  | unbalanced position =>
    show ("Invalid expression: " ++
      ("Unbalanced parenthesis at position " ++ position.repr)).toList = _
    simp [words, Nat.repr]
  | nonFinite value =>
    show ("Invalid expression: " ++
      ("Result is not a finite number (" ++ NumberFormat.plain.write value ++ ")")).toList = _
    simp [words]
  | empty =>
    show ("Invalid expression: " ++ "Expression is empty").toList = _
    simp [words]
  | unexpectedEnd =>
    show ("Invalid expression: " ++
      "Unexpected end of expression, expected a number or '('").toList = _
    simp [words]
  | divisionByZero =>
    show ("Invalid expression: " ++ "Division by zero").toList = _
    simp [words]

/-! ## Words -/

/-- A token that is quoted in a message is a word. -/
theorem isVisible_of_mem_text {lexeme : Lexeme Float} {c : Char} (h : c ∈ lexeme.text.toList) :
    IsVisible c := by
  cases lexeme with
  | number value => exact NumberFormat.isVisible_of_mem_write h
  | operand op =>
    have hsymbol : ∀ op ∈ Operand.all, IsWord op.symbol.toList := by decide
    exact (hsymbol op op.mem_all).2 c h

theorem isWord_position (position : Nat) : IsWord (Nat.toDigits 10 position) :=
  ⟨Nat.toDigits_ne_nil, fun _ hc =>
    isVisible_of_isDigit (Nat.isDigit_of_mem_toDigits (by decide) (by decide) hc)⟩

/-- No word has a blank in it, so the lines break between words only. -/
theorem isWord_of_mem_words (e : FormulaError Float) :
    ∀ w ∈ "Invalid".toList :: e.words, IsWord w := by
  have hrest : ∀ w ∈ e.words, IsWord w := by
    cases e with
    | empty => decide
    | unexpectedEnd => decide
    | divisionByZero => decide
    | unknownCharacter | invalidNumber => exact fun _ hw => nomatch hw
    | unexpected lexeme position =>
      have hquoted : IsWord ('\'' :: (lexeme.text.toList ++ ['\''])) :=
        isWord_enclosed (by decide) (by decide) fun _ => isVisible_of_mem_text
      have hposition := isWord_position position
      simp only [words, List.forall_mem_cons, List.not_mem_nil, false_implies, implies_true, and_true]
      exact ⟨by decide, by decide, hquoted, by decide, by decide, hposition⟩
    | tooDeep position =>
      have hposition := isWord_position position
      simp only [words, List.forall_mem_cons, List.not_mem_nil, false_implies, implies_true, and_true]
      exact ⟨by decide, by decide, by decide, by decide, by decide, by decide, by decide, by decide,
        hposition⟩
    | unbalanced position =>
      have hposition := isWord_position position
      simp only [words, List.forall_mem_cons, List.not_mem_nil, false_implies, implies_true, and_true]
      exact ⟨by decide, by decide, by decide, by decide, by decide, hposition⟩
    | nonFinite value =>
      have hvalue : IsWord ('(' :: ((NumberFormat.plain.write value).toList ++ [')'])) :=
        isWord_enclosed (by decide) (by decide) fun _ => NumberFormat.isVisible_of_mem_write
      simp only [words, List.forall_mem_cons, List.not_mem_nil, false_implies, implies_true, and_true]
      exact ⟨by decide, by decide, by decide, by decide, by decide, by decide, by decide, hvalue⟩
  exact List.forall_mem_cons.2 ⟨by decide, hrest⟩

/-! ## Columns -/

/-- The columns of the words of a notice. -/
def columns : FormulaError Float → List Nat
  | .empty => [7, 11, 10, 2, 5]
  | .unexpected lexeme position =>
    [7, 11, 10, lexeme.text.length + 2, 2, 8, (Nat.toDigits 10 position).length]
  | .unexpectedEnd => [7, 11, 10, 3, 2, 11, 8, 1, 6, 2, 3]
  | .tooDeep position => [7, 11, 10, 2, 6, 3, 6, 2, 8, (Nat.toDigits 10 position).length]
  | .unbalanced position => [7, 11, 10, 11, 2, 8, (Nat.toDigits 10 position).length]
  | .divisionByZero => [7, 11, 8, 2, 4]
  | .nonFinite value =>
    [7, 11, 6, 2, 3, 1, 6, 6, (NumberFormat.plain.write value).length + 2]
  | .unknownCharacter _ _ | .invalidNumber _ _ => [7]

/-- A character of a notice takes one column. -/
theorem map_length_words (e : FormulaError Float) :
    ("Invalid".toList :: e.words).map List.length = e.columns := by
  cases e <;> simp [words, columns, String.length_toList]

/-- No word is empty, so each takes a column. -/
theorem columns_pos (e : FormulaError Float) : ∀ columns ∈ e.columns, 0 < columns := by
  rw [← map_length_words]
  intro columns hmem
  obtain ⟨w, hw, rfl⟩ := List.mem_map.1 hmem
  exact List.length_pos_iff.2 (e.isWord_of_mem_words w hw).1

/-- How many lines a notice takes is counted on the columns of its words. -/
theorem length_wrappedLines_notice {e : FormulaError Float} (h : e.stage ≠ .lexing) {room : Nat}
    (hroom : 0 < room) : (wrappedLines room e.notice).length = lineCount room e.columns := by
  rw [length_wrappedLines hroom (toList_notice h) e.isWord_of_mem_words, map_length_words]

theorem length_notice {e : FormulaError Float} (h : e.stage ≠ .lexing) :
    e.notice.length + 1 = spread e.columns := by
  have hwords (words : List (List Char)) :
      (words.flatMap (' ' :: ·)).length = spread (words.map List.length) := by
    induction words with
    | nil => rfl
    | cons w rest ih =>
      rw [List.flatMap_cons, List.length_append, ih]
      rfl
  rw [← map_length_words, ← String.length_toList, toList_notice h, List.length_append, hwords,
    List.map_cons, spread_cons]
  omega

/-- The longest number that can be refused. -/
theorem length_text_le (lexeme : Lexeme Float) : lexeme.text.length ≤ 3400 := by
  cases lexeme with
  | number value => exact NumberFormat.length_write_le value
  | operand op =>
    have hsymbol : ∀ op ∈ Operand.all, op.symbol.length ≤ 3400 := by decide
    exact hsymbol op op.mem_all

/-- A position in a text that a machine can hold. -/
theorem length_position_le {position : Nat} (h : position < 10 ^ 20) :
    (Nat.toDigits 10 position).length ≤ 20 :=
  Nat.toDigits_length 10 position 20 (by decide) h

/-- A notice is not short, and far from what a coordinate can hold. -/
theorem length_notice_bounds {e : FormulaError Float} (h : e.stage ≠ .lexing)
    (hposition : ∀ position, e.position? = some position → position < 10 ^ 20) :
    36 ≤ e.notice.length ∧ e.notice.length ≤ 3500 := by
  have hlength := length_notice h
  have hdigits {position : Nat} (h : e.position? = some position) :
      (Nat.toDigits 10 position).length ≤ 20 :=
    length_position_le (hposition position h)
  cases e with
  | unknownCharacter | invalidNumber => exact absurd rfl h
  | unexpected lexeme position =>
    have htext := length_text_le lexeme
    have hposition := hdigits rfl
    simp only [columns, spread_cons, spread_nil] at hlength
    omega
  | tooDeep position | unbalanced position =>
    have hposition := hdigits rfl
    simp only [columns, spread_cons, spread_nil] at hlength
    omega
  | nonFinite value =>
    have htext := NumberFormat.length_write_le value
    simp only [columns, spread_cons, spread_nil] at hlength
    omega
  | _ =>
    simp only [columns, spread_cons, spread_nil] at hlength
    omega

end FormulaError

end TagFormula
