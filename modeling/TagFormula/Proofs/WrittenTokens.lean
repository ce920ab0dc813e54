import TagFormula.Proofs.QuotedText
import TagFormula.Text.Blank
import TagFormula.Toml.Document

/-!
# Written tokens are read back

What is written for a document has few kinds of tokens: words, quoted texts, punctuation, and one
blank around an equals sign. Each of them is read by a step of its own, if what follows parts it from
the next.

* **`tokens?_word`**, **`tokens?_writeIn`**: a word, and a quoted text.
* **`TokensOf`**: the tokens of the end of a line, built from its last one to its first.
-/

namespace TagFormula.Toml

/-! ## Characters of words -/

section

variable {c : Char}

theorem bounds_of_isKeyChar (h : isKeyChar c = true) : 0x2D ≤ c.toNat ∧ c.toNat < 0x7F := by
  have hletter : c.isAlpha = true → 65 ≤ c.toNat ∧ c.toNat ≤ 122 := by
    intro h
    change (decide (c.val ≥ 65 ∧ c.val ≤ 90) || (decide (c.val ≥ 97) && decide (c.val ≤ 122))) = true
      at h
    simp only [Bool.or_eq_true, Bool.and_eq_true, decide_eq_true_eq, ge_iff_le,
      UInt32.le_iff_toNat_le] at h
    change (65 ≤ c.toNat ∧ c.toNat ≤ 90) ∨ (97 ≤ c.toNat ∧ c.toNat ≤ 122) at h
    omega
  simp only [isKeyChar, Bool.or_eq_true, decide_eq_true_eq] at h
  rcases h with (halphanum | rfl) | rfl
  · rcases Bool.or_eq_true_iff.1 halphanum with halpha | hdigit
    · obtain ⟨hlow, hhigh⟩ := hletter halpha
      omega
    · obtain ⟨hlow, hhigh⟩ : 48 ≤ c.toNat ∧ c.toNat ≤ 57 := Char.isDigit_iff_toNat.1 hdigit
      omega
  · decide
  · decide

/-- No name has a blank in it. -/
theorem not_isBlank_of_isKeyChar (h : isKeyChar c = true) : Text.isBlank c = false := by
  have hbounds := bounds_of_isKeyChar h
  simp only [Text.isBlank, Text.blankRanges, Text.inRanges_cons, Text.inRanges_nil,
    Bool.or_false, Bool.or_eq_false_iff, Bool.and_eq_false_iff, decide_eq_false_iff_not]
  omega

/-- No character that ends a word may stand in a key. -/
theorem continuesWord_of_isKeyChar (h : isKeyChar c = true) : continuesWord c = true := by
  have hne (d : Char) (hd : isKeyChar d = false) : c ≠ d := by
    rintro rfl
    rw [h] at hd
    cases hd
  have hpunctuation : punctuation? c = none := by
    unfold punctuation?
    split
    all_goals first | rfl | exact absurd h (by decide)
  simp only [continuesWord, isSpace, hpunctuation, Option.isSome_none, Bool.or_false,
    Bool.not_eq_true', Bool.or_eq_false_iff, decide_eq_false_iff_not]
  refine ⟨⟨⟨⟨⟨⟨?_, ?_⟩, ?_⟩, ?_⟩, ?_⟩, ?_⟩, ?_⟩
  all_goals exact hne _ (by decide)

end

/-! ## Tokens -/

section

variable {rest : List Char}

theorem tokens?_of_readToken {cs : List Char} {token : Token}
    (h : readToken cs = some (token, rest)) (hlt : rest.length < cs.length) :
    tokens? cs = (tokens? rest).map (token :: ·) := by
  cases cs with
  | nil => cases h
  | cons c more =>
    rw [tokens?, h]
    simp only [dif_pos hlt]

theorem tokens?_blank (rest : List Char) :
    tokens? (' ' :: rest) = (tokens? rest).map (.blank :: ·) :=
  tokens?_of_readToken (by simp [readToken, isSpace]) (by simp)

theorem tokens?_newline (rest : List Char) :
    tokens? ('\n' :: rest) = (tokens? rest).map (.newline :: ·) :=
  tokens?_of_readToken (by simp [readToken]) (by simp)

/-- The signs that are tokens of their own. -/
theorem tokens?_punctuation {c : Char} {token : Token} (h : punctuation? c = some token)
    (rest : List Char) : tokens? (c :: rest) = (tokens? rest).map (token :: ·) := by
  refine tokens?_of_readToken ?_ (by simp)
  unfold punctuation? at h
  split at h
  any_goals (cases h; simp [readToken, isSpace, punctuation?])
  cases h

/-- A word ends at the first character that does not continue it. -/
theorem tokens?_word {word : List Char} (hne : word ≠ [])
    (hword : ∀ c ∈ word, continuesWord c = true)
    (hrest : ∀ c ∈ rest.head?, continuesWord c = false) :
    tokens? (word ++ rest) = (tokens? rest).map (.word word :: ·) := by
  cases word with
  | nil => exact absurd rfl hne
  | cons c word =>
    rw [List.forall_mem_cons] at hword
    obtain ⟨hc, hword⟩ := hword
    -- the word is all that is taken, because what follows does not continue it
    have hstop : rest.takeWhile continuesWord = [] ∧ rest.dropWhile continuesWord = rest := by
      cases rest with
      | nil => exact ⟨rfl, rfl⟩
      | cons d more => simp [hrest d rfl]
    have htake : (word ++ rest).takeWhile continuesWord = word := by
      rw [List.takeWhile_append_of_pos hword, hstop.1, List.append_nil]
    have hdrop : (word ++ rest).dropWhile continuesWord = rest := by
      rw [List.dropWhile_append_of_pos hword, hstop.2]
    have hread : readToken (c :: (word ++ rest)) = some (.word (c :: word), rest) := by
      have hchar := hc
      simp only [continuesWord, Bool.not_eq_true', Bool.or_eq_false_iff, decide_eq_false_iff_not,
        Option.isSome_eq_false_iff, Option.isNone_iff_eq_none] at hchar
      obtain ⟨⟨⟨⟨⟨⟨hspace, hnewline⟩, hreturn⟩, hcomment⟩, hdouble⟩, hsingle⟩, hpunctuation⟩ := hchar
      rw [readToken]
      · simp [hspace, hcomment, hdouble, hsingle, hpunctuation, hc, htake, hdrop]
      · exact fun h => absurd h hnewline
      · exact fun _ h => absurd h hreturn
    have hlt : rest.length < (c :: (word ++ rest)).length := by
      rw [List.length_cons, List.length_append]
      omega
    exact tokens?_of_readToken hread hlt

/-- A string starts and ends with its quotes. -/
theorem writeIn_ends (form : StringForm) (text : List Char) :
    ∃ quote more less, writeIn form text = quote :: more ∧ writeIn form text = less ++ [quote] ∧
      (quote = '"' ∨ quote = '\'') := by
  cases form with
  | basic => exact ⟨'"', _, _, rfl, rfl, Or.inl rfl⟩
  | literal => exact ⟨'\'', _, _, rfl, rfl, Or.inr rfl⟩
  | multilineBasic =>
    exact ⟨'"', _, _, rfl, (List.append_assoc _ ['"', '"'] ['"']).symm, Or.inl rfl⟩
  | multilineLiteral =>
    exact ⟨'\'', _, _, rfl, (List.append_assoc _ ['\'', '\''] ['\'']).symm, Or.inr rfl⟩

/-- A text is one token, whatever stands behind it but a quote. -/
theorem tokens?_writeIn (text : List Char) : ∃ multiline, ∀ rest, NoQuote rest →
    tokens? (writeIn (.of text) text ++ rest) =
      (tokens? rest).map (.quoted text multiline :: ·) := by
  obtain ⟨multiline, hquoted⟩ := readQuoted_writeIn text
  obtain ⟨quote, more, _, hcons, _, hquote⟩ := writeIn_ends (.of text) text
  refine ⟨multiline, fun rest hrest => ?_⟩
  have hquoted := hquoted rest hrest
  rw [hcons] at hquoted ⊢
  have hread : readToken (quote :: more ++ rest) = some (.quoted text multiline, rest) := by
    rcases hquote with rfl | rfl
    · simpa [readToken, isSpace] using hquoted
    · simpa [readToken, isSpace] using hquoted
  have hlt : rest.length < (quote :: more ++ rest).length := by
    rw [List.cons_append, List.length_cons, List.length_append]
    omega
  exact tokens?_of_readToken hread hlt

end

/-! ## Pieces of a line -/

/-- What follows a line: nothing, or a line end. -/
def AtLineEnd (rest : List Char) : Prop :=
  ∀ c ∈ rest.head?, c = '\n'

/-- The end of a line is no quote, so a text ends there. -/
theorem AtLineEnd.noQuote {rest : List Char} (h : AtLineEnd rest) : NoQuote rest := by
  intro c hc
  rw [h c hc]
  decide

/-- The tokens of the end of a line, whatever comes after it. -/
def TokensOf (cs : List Char) (tokens : List Token) : Prop :=
  ∀ rest, AtLineEnd rest → tokens? (cs ++ rest) = (tokens? rest).map (tokens ++ ·)

namespace TokensOf

variable {cs : List Char} {tokens : List Token}

theorem nil : TokensOf [] [] := by
  intro rest _
  simp

theorem punctuation (h : TokensOf cs tokens) {c : Char} {token : Token}
    (hc : punctuation? c = some token) : TokensOf (c :: cs) (token :: tokens) := by
  intro rest hrest
  rw [List.cons_append, tokens?_punctuation hc, h rest hrest, Option.map_map]
  rfl

theorem blank (h : TokensOf cs tokens) : TokensOf (' ' :: cs) (.blank :: tokens) := by
  intro rest hrest
  rw [List.cons_append, tokens?_blank, h rest hrest, Option.map_map]
  rfl

/-- A word before them, which must not go on with what stands there. -/
theorem word (h : TokensOf cs tokens) {word : List Char} (hne : word ≠ [])
    (hword : word.all isKeyChar = true) (hcs : ∀ c ∈ cs.head?, continuesWord c = false) :
    TokensOf (word ++ cs) (.word word :: tokens) := by
  intro rest hrest
  have hword : ∀ c ∈ word, continuesWord c = true :=
    fun c hc => continuesWord_of_isKeyChar (List.all_eq_true.1 hword c hc)
  have hstop : ∀ c ∈ (cs ++ rest).head?, continuesWord c = false := by
    cases cs with
    | nil =>
      intro c hc
      rw [hrest c hc]
      decide
    | cons c more => exact hcs
  rw [List.append_assoc, tokens?_word hne hword hstop, h rest hrest, Option.map_map]
  rfl

theorem quoted (text : List Char) :
    ∃ multiline, TokensOf (writeIn (.of text) text) [.quoted text multiline] := by
  obtain ⟨multiline, htokens⟩ := tokens?_writeIn text
  exact ⟨multiline, fun rest hrest => htokens rest hrest.noQuote⟩

end TokensOf

end TagFormula.Toml
