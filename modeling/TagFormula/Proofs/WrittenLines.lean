import TagFormula.Proofs.WrittenTokens

/-!
# Written lines are read back

From the tokens of a line comes the line, and from the lines the document. The last line end of a
document may be missing, and it is the only blank at its end.

* **`ofWord?_toDigits`**: a number is read back as long as a document can hold it.
* **`WrittenValue`**, **`WrittenLine`**: what is written for a value, and for a line.
* **`Written`**: what is written for the lines of a document.
-/

namespace TagFormula.Toml

/-! ## Values -/

/-- The tokens behind a line: none, or a line end first. -/
def EndTokens (tokens : List Token) : Prop :=
  ∀ token ∈ tokens.head?, token = .newline

/-- Digits can be grouped by underscores; the writer does not. -/
theorem ungroup?_digits {digits : List Char} (hne : digits ≠ [])
    (h : ∀ c ∈ digits, c.isDigit = true) : ungroup? Char.isDigit digits = some digits := by
  induction digits with
  | nil => exact absurd rfl hne
  | cons c rest ih =>
    rw [List.forall_mem_cons] at h
    obtain ⟨hc, hrest⟩ := h
    cases rest with
    | nil => rw [ungroup?, if_pos hc]
    | cons d more =>
      have hgroup : d ≠ '_' := by
        rintro rfl
        exact absurd (hrest '_' (List.mem_cons_self ..)) (by decide)
      rw [ungroup?, if_pos hc, ih (by simp) hrest]
      · rfl
      · simp
      · rintro _ h
        exact hgroup (List.cons.inj h).1

/-- A positive number is written without zeros in front. -/
theorem toDigits_ne_zero_cons {n : Nat} (hn : 0 < n) (more : List Char) :
    Nat.toDigits 10 n ≠ '0' :: more := by
  induction n using Nat.strongRecOn generalizing more with
  | ind n ih =>
    by_cases hsmall : n < 10
    · have hdigit : ∀ d : Fin 10, 0 < d.val → Nat.digitChar d ≠ '0' := by decide
      rw [Nat.toDigits_of_lt_base hsmall]
      intro h
      exact hdigit ⟨n, hsmall⟩ hn (List.cons.inj h).1
    · rw [Nat.toDigits_of_base_le (by decide) (by omega)]
      intro h
      cases hdigits : Nat.toDigits 10 (n / 10) with
      | nil => exact Nat.toDigits_ne_nil hdigits
      | cons d rest =>
        rw [hdigits] at h
        rw [(List.cons.inj h).1] at hdigits
        exact ih (n / 10) (by omega) (by omega) rest hdigits

theorem readInteger?_toDigits {n : Nat} (h : (n : Int) ≤ greatestInteger) :
    readInteger? (Nat.toDigits 10 n) = some (.integer n) := by
  have hdigits : ∀ c ∈ Nat.toDigits 10 n, c.isDigit = true :=
    fun c hc => Nat.isDigit_of_mem_toDigits (by decide) (by decide) hc
  have hungroup := ungroup?_digits Nat.toDigits_ne_nil hdigits
  -- a digit is no sign
  have hsign : splitSign (Nat.toDigits 10 n) = (false, Nat.toDigits 10 n) := by
    unfold splitSign
    split
    · next heq => exact absurd (hdigits '-' (by simp [heq])) (by decide)
    · next heq => exact absurd (hdigits '+' (by simp [heq])) (by decide)
    · rfl
  have hwhole : wholeDigits? (Nat.toDigits 10 n) = some (Nat.toDigits 10 n) := by
    unfold wholeDigits?
    rw [hungroup]
    split
    · -- a zero in front is refused, and there is none
      next heq =>
      have hpos : 0 < n := by
        rcases Nat.eq_zero_or_pos n with rfl | hpos
        · cases heq
        · exact hpos
      exact absurd (Option.some.inj heq) (toDigits_ne_zero_cons hpos _)
    · rfl
  have hvalue : digitsValue (Nat.toDigits 10 n) = n :=
    Nat.ofDigitChars_toDigits (by decide) (by decide)
  have hleast : leastInteger ≤ (n : Int) := by
    unfold leastInteger
    omega
  simp [readInteger?, hsign, hwhole, hvalue, integer?, hleast, h]

/-- No reader that is tried before takes the digits for something else. -/
theorem ofWord?_toDigits {n : Nat} (h : (n : Int) ≤ greatestInteger) :
    Value.ofWord? (Nat.toDigits 10 n) = some (.integer n) := by
  have hletter (c : Char) (word : List Char) (hc : c.isDigit = false) :
      Nat.toDigits 10 n ≠ c :: word := by
    intro heq
    have hdigit : c.isDigit = true :=
      Nat.isDigit_of_mem_toDigits (by decide) (by decide) (heq ▸ List.mem_cons_self ..)
    rw [hc] at hdigit
    cases hdigit
  rw [Value.ofWord?, if_neg (hletter 't' _ (by decide)), if_neg (hletter 'f' _ (by decide)),
    readInteger?_toDigits h]
  rfl

/-- A word is a whole value where the line ends behind it. -/
theorem readValue?_word {word : List Char} {value : Value} (h : Value.ofWord? word = some value)
    {after : List Token} (hafter : EndTokens after) :
    ∃ hlt, readValue? (.word word :: after) = some (value, ⟨after, hlt⟩) := by
  have hjoin : joinWords (.word word :: after) = (word, after) := by
    cases after with
    | nil => simp [joinWords, Token.wordText?]
    | cons token more =>
      cases hafter token rfl
      simp [joinWords, Token.wordText?]
  refine ⟨by simp, ?_⟩
  rw [readValue?, readWord?]
  · rw [hjoin]
    -- no blank follows, so a date would end here too
    cases after with
    | nil =>
      rcases readDate? word with _ | ⟨_, _ | ⟨_, _⟩⟩
      all_goals simp [h]
    | cons token more =>
      cases hafter token rfl
      rcases readDate? word with _ | ⟨_, _ | ⟨_, _⟩⟩
      all_goals simp [h]
  all_goals simp

theorem readValue?_brackets (after : List Token) :
    ∃ hlt, readValue? (.openBracket :: .closeBracket :: after) =
      some (.array [], ⟨after, hlt⟩) := by
  have hitems : readItems? (skipLines (.closeBracket :: after)) =
      some ([], ⟨after, by simp [skipLines]⟩) := by
    show readItems? (.closeBracket :: after) = _
    rw [readItems?]
    rfl
  refine ⟨by simp only [List.length_cons]; omega, ?_⟩
  rw [readValue?, hitems]

/-- The end of a line, in characters and in tokens. -/
theorem AtLineEnd.endTokens {rest : List Char} (h : AtLineEnd rest) {tokens : List Token}
    (htokens : tokens? rest = some tokens) : EndTokens tokens := by
  cases rest with
  | nil =>
    rw [tokens?] at htokens
    cases htokens
    simp [EndTokens]
  | cons c more =>
    cases h c rfl
    rw [tokens?_newline, Option.map_eq_some_iff] at htokens
    obtain ⟨_, _, rfl⟩ := htokens
    simp [EndTokens]

theorem mem_getLast?_append {c : Char} {cs : List Char} (h : c ∈ cs.getLast?)
    (front : List Char) : c ∈ (front ++ cs).getLast? := by
  rw [Option.mem_def] at h ⊢
  rw [List.getLast?_append, h, Option.some_or]

/-- What is written for a value that ends a line. -/
structure WrittenValue (cs : List Char) (value : Value) : Prop where
  exists_tokens : ∃ tokens, TokensOf cs tokens ∧ ∀ after, EndTokens after →
    ∃ hlt, readValue? (skipBlanks (tokens ++ after)) = some (value, ⟨after, hlt⟩)
  ends_visibly : ∃ c ∈ cs.getLast?, Text.isBlank c = false

namespace WrittenValue

/-- A value that is written as one word. -/
theorem word {word : List Char} {value : Value} (h : Value.ofWord? word = some value)
    (hne : word ≠ []) (hword : word.all isKeyChar = true) : WrittenValue word value where
  exists_tokens := by
    have htokens := TokensOf.nil.word hne hword (by simp)
    rw [List.append_nil] at htokens
    exact ⟨_, htokens, fun after hafter => readValue?_word h hafter⟩
  ends_visibly := by
    have hlast := List.getLast?_eq_some_getLast hne
    have hkey := List.all_eq_true.1 hword _ (List.getLast_mem hne)
    exact ⟨_, hlast, not_isBlank_of_isKeyChar hkey⟩

theorem quoted (text : String) : WrittenValue (writeString text).toList (.string text) where
  exists_tokens := by
    obtain ⟨multiline, htokens⟩ := TokensOf.quoted text.toList
    rw [writeString, String.toList_ofList]
    refine ⟨_, htokens, fun after _ => ⟨by simp [skipBlanks], ?_⟩⟩
    show readValue? (.quoted text.toList multiline :: after) = _
    rw [readValue?, String.ofList_toList]
    rfl
  ends_visibly := by
    obtain ⟨quote, _, less, _, hlast, hquote⟩ := writeIn_ends (.of text.toList) text.toList
    rw [writeString, String.toList_ofList, hlast]
    refine ⟨quote, by simp, ?_⟩
    rcases hquote with rfl | rfl
    · decide
    · decide

theorem brackets : WrittenValue ['[', ']'] (.array []) where
  exists_tokens := by
    have htokens := (TokensOf.nil.punctuation (c := ']') rfl).punctuation (c := '[') rfl
    exact ⟨_, htokens, fun after _ => readValue?_brackets after⟩
  ends_visibly := ⟨']', rfl, by decide⟩

end WrittenValue

/-! ## Lines -/

/-- A name without a dot is the whole path. -/
theorem readPath?_word {key : List Char} (hkey : key.all isKeyChar = true) (rest : List Token)
    (hdot : ∀ more, skipBlanks rest ≠ .dot :: more) : ∃ hlt, readPath? (.word key :: rest) =
      some ([], String.ofList key, ⟨skipBlanks rest, hlt⟩) := by
  have hlt : (skipBlanks rest).length < (Token.word key :: rest).length := by
    have := length_skipBlanks_le rest
    rw [List.length_cons]
    omega
  refine ⟨hlt, ?_⟩
  rw [readPath?]
  simp only [Token.key?, hkey, if_true]

/-- The line of a field. -/
theorem readLine?_field {key : List Char} (hkey : key.all isKeyChar = true)
    {tokens after : List Token} {value : Value}
    (h : ∃ hlt, readValue? (skipBlanks tokens) = some (value, ⟨after, hlt⟩)) :
    readLine? (.word key :: .blank :: .equals :: tokens) =
      some (.field [] (String.ofList key) value, after) := by
  obtain ⟨_, hvalue⟩ := h
  have hpath : ∃ hlt, readPath? (.word key :: .blank :: .equals :: tokens) =
      some ([], String.ofList key, ⟨.equals :: tokens, hlt⟩) :=
    readPath?_word hkey (.blank :: .equals :: tokens) (by simp [skipBlanks])
  obtain ⟨_, hpath⟩ := hpath
  rw [readLine?, hpath]
  · simp only [hvalue, Option.map_some]
  all_goals simp

theorem readLine?_element {key : List Char} (hkey : key.all isKeyChar = true)
    (after : List Token) :
    readLine? (.openBracket :: .openBracket :: .word key :: .closeBracket :: .closeBracket :: after) =
      some (.element [] (String.ofList key), after) := by
  have hpath : ∃ hlt, readPath? (skipBlanks (.word key :: .closeBracket :: .closeBracket :: after)) =
      some ([], String.ofList key, ⟨.closeBracket :: .closeBracket :: after, hlt⟩) :=
    readPath?_word hkey (.closeBracket :: .closeBracket :: after) (by simp [skipBlanks])
  obtain ⟨_, hpath⟩ := hpath
  rw [readLine?, hpath]

/-- The reader of lines gets on. -/
theorem length_of_readLine? {tokens : List Token} {line : Line} {rest : List Token}
    (h : readLine? tokens = some (line, rest)) : rest.length < tokens.length := by
  unfold readLine? at h
  split at h
  · next inner =>
    have := length_skipBlanks_le inner
    split at h
    · next hafter _ =>
      cases h
      simp only [List.length_cons] at hafter ⊢
      omega
    · cases h
  · next inner _ =>
    have := length_skipBlanks_le inner
    split at h
    · next hafter _ =>
      cases h
      simp only [List.length_cons] at hafter ⊢
      omega
    · cases h
  · split at h
    · -- the value of a field ends somewhere behind its name
      next path key more hmore _ =>
      obtain ⟨⟨value, after, hafter⟩, _, heq⟩ := Option.map_eq_some_iff.1 h
      cases heq
      have := length_skipBlanks_le more
      rw [List.length_cons] at hmore
      show after.length < tokens.length
      omega
    · cases h

/-- An empty line has no meaning. -/
theorem readLines?_newline (tokens : List Token) :
    readLines? (.newline :: tokens) = readLines? tokens := by
  conv => rhs; rw [readLines?]
  conv => lhs; rw [readLines?]
  have hskip : skipLines (.newline :: tokens) = skipLines tokens := rfl
  rw [hskip]
  split
  · rfl
  · next token more heq =>
    split
    · rfl
    · -- both readers take the line, and only the proof that tokens are left differs
      next line rest hline =>
      have hline := length_of_readLine? hline
      have hrest := length_skipBlanks_le rest
      have htokens := length_skipLines_le tokens
      split
      · rfl
      · next more' hblanks =>
        rw [heq] at htokens
        rw [hblanks] at hrest
        simp only [List.length_cons] at *
        rw [if_pos (by omega), if_pos (by omega)]
      · rfl

theorem readLines?_nil : readLines? [] = some [] := by
  rw [readLines?]
  rfl

/-- One line, and the lines behind it. -/
theorem readLines?_line {token : Token} {more after : List Token} {line : Line}
    (hskip : skipLines (token :: more) = token :: more)
    (hline : readLine? (token :: more) = some (line, after)) (hafter : EndTokens after) :
    readLines? (token :: more) = (readLines? after).map (line :: ·) := by
  have hlt := length_of_readLine? hline
  rw [readLines?, hskip]
  simp only [hline]
  cases after with
  | nil =>
    rw [readLines?_nil]
    rfl
  | cons first after =>
    cases hafter first rfl
    have hblanks : skipBlanks (.newline :: after) = .newline :: after := rfl
    rw [List.length_cons] at hlt
    simp only [hblanks]
    rw [if_pos (by omega), readLines?_newline]

/-- What is written for a line, up to its end. -/
structure WrittenLine (cs : List Char) (line : Line) : Prop where
  exists_tokens : ∃ token tokens, TokensOf cs (token :: tokens) ∧
    (∀ after, skipLines (token :: (tokens ++ after)) = token :: (tokens ++ after)) ∧
    ∀ after, EndTokens after → readLine? (token :: (tokens ++ after)) = some (line, after)
  ends_visibly : ∃ c ∈ cs.getLast?, Text.isBlank c = false

namespace WrittenLine

variable {key : List Char}

/-- The line of a field, as it is written. -/
theorem field (hne : key ≠ []) (hkey : key.all isKeyChar = true) {cs : List Char} {value : Value}
    (h : WrittenValue cs value) :
    WrittenLine (key ++ ' ' :: '=' :: ' ' :: cs) (.field [] (String.ofList key) value) where
  exists_tokens := by
    obtain ⟨tokens, htokens, hvalue⟩ := h.exists_tokens
    have hequals := (htokens.blank.punctuation (c := '=') rfl).blank
    have hspace : ∀ c ∈ (' ' :: '=' :: ' ' :: cs).head?, continuesWord c = false := by
      rintro _ ⟨⟩
      decide
    have hfield := hequals.word hne hkey hspace
    exact ⟨_, _, hfield, fun _ => rfl, fun after hafter => readLine?_field hkey (hvalue after hafter)⟩
  ends_visibly := by
    obtain ⟨c, hc, hvisible⟩ := h.ends_visibly
    exact ⟨c, mem_getLast?_append (mem_getLast?_append hc [' ', '=', ' ']) key, hvisible⟩

theorem element (hne : key ≠ []) (hkey : key.all isKeyChar = true) :
    WrittenLine ('[' :: '[' :: (key ++ [']', ']'])) (.element [] (String.ofList key)) where
  exists_tokens := by
    have hclose := (TokensOf.nil.punctuation (c := ']') rfl).punctuation (c := ']') rfl
    have hbracket : ∀ c ∈ [']', ']'].head?, continuesWord c = false := by
      rintro _ ⟨⟩
      decide
    have hkey' := hclose.word hne hkey hbracket
    have hopen := (hkey'.punctuation (c := '[') rfl).punctuation (c := '[') rfl
    exact ⟨_, _, hopen, fun _ => rfl, fun after _ => readLine?_element hkey after⟩
  ends_visibly := by
    have hclose : ']' ∈ [']', ']'].getLast? := rfl
    exact ⟨']', mem_getLast?_append (mem_getLast?_append hclose key) ['[', '['], by decide⟩

end WrittenLine

/-! ## Documents -/

/-- The lines of a document. -/
def lines? (cs : List Char) : Option (List Line) :=
  (tokens? cs).bind readLines?

theorem lines?_newline (cs : List Char) : lines? ('\n' :: cs) = lines? cs := by
  rw [lines?, lines?, tokens?_newline]
  cases tokens? cs with
  | none => rfl
  | some tokens => exact readLines?_newline tokens

/-- What is written for lines of a document, up to the end of the last one. -/
structure Written (cs : List Char) (lines : List Line) : Prop where
  lines?_append : ∀ rest, AtLineEnd rest → lines? (cs ++ rest) = (lines? rest).map (lines ++ ·)
  ends_visibly : ∃ c ∈ cs.getLast?, Text.isBlank c = false

namespace Written

variable {cs cs' : List Char} {lines lines' : List Line}

theorem line {line : Line} (h : WrittenLine cs line) : Written cs [line] where
  lines?_append rest hrest := by
    obtain ⟨token, tokens, htokens, hskip, hline⟩ := h.exists_tokens
    rw [lines?, lines?, htokens rest hrest]
    cases hafter : tokens? rest with
    | none => rfl
    | some after =>
      have hend := hrest.endTokens hafter
      exact readLines?_line (hskip after) (hline after hend) hend
  ends_visibly := h.ends_visibly

theorem newline (h : Written cs lines) : Written ('\n' :: cs) lines where
  lines?_append rest hrest := by
    rw [List.cons_append, lines?_newline, h.lines?_append rest hrest]
  ends_visibly := by
    obtain ⟨c, hc, hvisible⟩ := h.ends_visibly
    exact ⟨c, mem_getLast?_append hc ['\n'], hvisible⟩

theorem append (h : Written cs lines) (h' : Written cs' lines') :
    Written (cs ++ '\n' :: cs') (lines ++ lines') where
  lines?_append rest hrest := by
    have hend : AtLineEnd ('\n' :: (cs' ++ rest)) := by
      rintro _ ⟨⟩
      rfl
    rw [List.append_assoc, List.cons_append, h.lines?_append _ hend, lines?_newline,
      h'.lines?_append rest hrest, Option.map_map]
    simp [Function.comp_def]
  ends_visibly := by
    obtain ⟨c, hc, hvisible⟩ := h'.ends_visibly
    exact ⟨c, mem_getLast?_append (mem_getLast?_append hc ['\n']) cs, hvisible⟩

/-- A document that is written is read. -/
theorem lines?_eq (h : Written cs lines) : lines? cs = some lines := by
  have hnil : lines? [] = some [] := by
    rw [lines?, tokens?]
    exact readLines?_nil
  have happend := h.lines?_append [] (by simp [AtLineEnd])
  rw [hnil, List.append_nil] at happend
  simpa using happend

/-- The last line end has no meaning. -/
theorem lines?_append_newline (h : Written cs lines) : lines? (cs ++ ['\n']) = some lines := by
  rw [h.lines?_append ['\n'] (by simp [AtLineEnd]), lines?_newline, lines?, tokens?]
  simp [readLines?_nil]

/-- Only the last line end is trimmed. -/
theorem trimRight_append_newline (h : Written cs lines) :
    Text.trimRight (cs ++ ['\n']) = cs := by
  obtain ⟨c, hc, hvisible⟩ := h.ends_visibly
  obtain ⟨less, rfl⟩ := List.getLast?_eq_some_iff.1 hc
  have hnewline : Text.isBlank '\n' = true := by decide
  simp [Text.trimRight, hnewline, hvisible]

end Written

end TagFormula.Toml
