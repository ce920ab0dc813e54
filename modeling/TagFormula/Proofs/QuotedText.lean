import TagFormula.Toml.Writer

/-!
# Quoted texts are read back

A string is written in one of four forms, by its characters. Each reader takes one step for what is
written for one character, so the texts follow by induction. Only quotes need care: within three
quotes one or two may stand as they are, and at the end of the text they touch the closing ones.

* **`EscapeOf`**: the two shapes of an escape, the same for both readers of escapes.
* **`quoteRun`**, **`ClosedBy`**: the quotes at the start of what is still to be read decide whether a
  quote is one of the text, in the same way for both readers of three quotes.
* **`readQuoted_writeIn`**: in the form that is chosen for it a text is read back.
-/

namespace TagFormula.Toml

/-- What is read with one more character in front. -/
def withChar (c : Char) (read : Option (List Char × List Char)) :
    Option (List Char × List Char) := do
  let (text, after) ← read
  some (c :: text, after)

@[simp] theorem withChar_some (c : Char) (text after : List Char) :
    withChar c (some (text, after)) = some (c :: text, after) := rfl

/-! ## Escapes -/

/-- An escape of a character. -/
inductive EscapeOf (c : Char) : List Char → Prop where
  | letter {letter : Char} (h : escaped? letter = some c) : EscapeOf c ['\\', letter]
  | code {x y : Char} (h : codePoint? ['0', '0', x, y] = some c) :
      EscapeOf c ['\\', 'u', '0', '0', x, y]

/-- Each digit of a code is read back. -/
theorem hexDigit?_hexChar {digit : Nat} (h : digit < 16) : hexDigit? (hexChar digit) = some digit := by
  have hall : ∀ digit : Fin 16, hexDigit? (hexChar digit) = some digit.val := by decide
  exact hall ⟨digit, h⟩

/-- A character below 256 is written with two digits, and read back from them. -/
theorem codePoint?_hexChar {c : Char} (h : c.toNat < 256) :
    codePoint? ['0', '0', hexChar (c.toNat / 16), hexChar (c.toNat % 16)] = some c := by
  have hhigh : hexDigit? (hexChar (c.toNat / 16)) = some (c.toNat / 16) :=
    hexDigit?_hexChar (by omega)
  have hlow : hexDigit? (hexChar (c.toNat % 16)) = some (c.toNat % 16) :=
    hexDigit?_hexChar (by omega)
  have hzero : hexDigit? '0' = some 0 := by decide
  have hvalue : 16 * (16 * (16 * (16 * 0 + 0) + 0) + c.toNat / 16) + c.toNat % 16 = c.toNat := by
    omega
  have hvalid : c.toNat.isValidChar := c.valid
  simp only [codePoint?, List.mapM_cons, List.mapM_nil, hzero, hhigh, hlow, Option.pure_def,
    Option.bind_eq_bind, Option.bind_some, List.foldl_cons, List.foldl_nil, hvalue, hvalid,
    if_true, Char.ofNat_toNat]

/-- All characters that need a code are below 256. -/
theorem toNat_lt_of_needsEscape {c : Char} (h : needsEscape c = true) : c.toNat < 256 := by
  simp only [needsEscape, Bool.or_eq_true, Bool.and_eq_true, decide_eq_true_eq] at h
  omega

/-- A character that needs no escape can stand in quotes, the end of a line in three of them only. -/
theorem isPlain_or_of_not_needsEscape {c : Char} (h : needsEscape c = false) :
    isPlain c = true ∨ c = '\n' := by
  simp only [needsEscape, Bool.or_eq_false_iff, Bool.and_eq_false_iff, decide_eq_false_iff_not,
    Classical.not_not] at h
  simp only [isPlain, Bool.or_eq_true, Bool.and_eq_true, decide_eq_true_eq]
  rcases h with ⟨(hcontrol | htab) | hnewline, hdelete⟩
  · exact Or.inl (Or.inr ⟨by omega, hdelete⟩)
  · exact Or.inl (Or.inl htab)
  · exact Or.inr hnewline

/-- The writer escapes in one of the two shapes. -/
theorem escapeOf_of_escape? {c : Char} {form : List Char} (h : escape? c = some form) :
    EscapeOf c form := by
  unfold escape? at h
  split at h
  any_goals (cases h; exact .letter (by decide))
  split at h
  · next hneeds =>
    cases h
    exact .code (codePoint?_hexChar (toNat_lt_of_needsEscape hneeds))
  · cases h

/-- What the writer leaves as it is can stand in quotes. -/
theorem plain_of_escape?_eq_none {c : Char} (h : escape? c = none) :
    c ≠ '\\' ∧ c ≠ '\r' ∧ (isPlain c = true ∨ c = '\n') := by
  unfold escape? at h
  split at h
  any_goals cases h
  next hbackslash _ _ _ hreturn =>
  split at h
  · cases h
  · next hneeds =>
    exact ⟨hbackslash, hreturn, isPlain_or_of_not_needsEscape (Bool.eq_false_iff.2 hneeds)⟩

/-! ## Steps of the readers -/

theorem readBasic_escape {c : Char} {form : List Char} (h : EscapeOf c form) (rest : List Char) :
    readBasic (form ++ rest) = withChar c (readBasic rest) := by
  cases h with
  | letter h =>
    unfold escaped? at h
    split at h
    any_goals (cases h; rfl)
    cases h
  | @code x y h =>
    show readBasic ('\\' :: 'u' :: '0' :: '0' :: x :: y :: rest) = _
    rw [readBasic, h]
    rfl

/-- One step at a character that stands for itself. -/
theorem readBasic_plain {c : Char} (hquote : c ≠ '"') (hbackslash : c ≠ '\\')
    (hplain : isPlain c = true) (rest : List Char) :
    readBasic (c :: rest) = withChar c (readBasic rest) := by
  rw [readBasic]
  · simp only [hplain, hbackslash, ne_eq, not_false_eq_true, decide_true, Bool.and_self, if_true]
    rfl
  all_goals simp [hquote, hbackslash]

theorem readLiteral_plain {c : Char} (hquote : c ≠ '\'') (hplain : isPlain c = true)
    (rest : List Char) : readLiteral (c :: rest) = withChar c (readLiteral rest) := by
  rw [readLiteral]
  · simp only [hplain, if_true]
    rfl
  · simp [hquote]

/-- No letter of an escape ends a line or is a blank before a line end. -/
theorem readMultilineBasic_escape {c : Char} {form : List Char} (h : EscapeOf c form)
    (rest : List Char) : readMultilineBasic false (form ++ rest) =
      withChar c (readMultilineBasic false rest) := by
  cases h with
  | letter h =>
    unfold escaped? at h
    split at h
    any_goals (cases h; cases rest <;> rfl)
    cases h
  | @code x y h =>
    show readMultilineBasic false ('\\' :: 'u' :: '0' :: '0' :: x :: y :: rest) = _
    rw [readMultilineBasic, h]
    rfl

/-- In three quotes a line can end, but not with a carriage return alone. -/
theorem readMultilineBasic_plain {c : Char} (hquote : c ≠ '"') (hbackslash : c ≠ '\\')
    (hreturn : c ≠ '\r') (hplain : isPlain c = true ∨ c = '\n') (rest : List Char) :
    readMultilineBasic false (c :: rest) = withChar c (readMultilineBasic false rest) := by
  rw [readMultilineBasic]
  · simp only [hbackslash, ne_eq, not_false_eq_true, decide_true, Bool.and_true, Bool.false_and,
      Bool.or_eq_true, decide_eq_true_eq, hplain, if_true, Bool.false_eq_true, if_false]
    rfl
  all_goals simp [hquote, hbackslash, hreturn]

theorem readMultilineLiteral_plain {c : Char} (hquote : c ≠ '\'') (hreturn : c ≠ '\r')
    (hplain : isPlain c = true ∨ c = '\n') (rest : List Char) :
    readMultilineLiteral (c :: rest) = withChar c (readMultilineLiteral rest) := by
  rw [readMultilineLiteral]
  · simp only [Bool.or_eq_true, decide_eq_true_eq, hplain, if_true]
    rfl
  all_goals simp [hquote, hreturn]

/-! ## Quotes within three quotes -/

/-- How many quotes a text starts with. -/
def quoteRun (quote : Char) (cs : List Char) : Nat :=
  (cs.takeWhile (· = quote)).length

theorem quoteRun_quote (quote : Char) (cs : List Char) :
    quoteRun quote (quote :: cs) = quoteRun quote cs + 1 := by
  simp [quoteRun]

theorem quoteRun_of_ne {quote c : Char} (h : c ≠ quote) (cs : List Char) :
    quoteRun quote (c :: cs) = 0 := by
  simp [quoteRun, h]

theorem quoteRun_eq_zero_iff {quote : Char} {cs : List Char} :
    quoteRun quote cs = 0 ↔ ∀ rest, cs ≠ quote :: rest := by
  cases cs with
  | nil => simp [quoteRun]
  | cons c rest =>
    by_cases hc : c = quote
    · simp [quoteRun, hc]
    · simp [quoteRun, hc]

theorem quoteRun_eq_succ {quote : Char} {cs : List Char} {n : Nat}
    (h : quoteRun quote cs = n + 1) : ∃ rest, cs = quote :: rest ∧ quoteRun quote rest = n := by
  cases cs with
  | nil => cases h
  | cons c rest =>
    by_cases hc : c = quote
    · subst hc
      rw [quoteRun_quote] at h
      exact ⟨rest, rfl, by omega⟩
    · rw [quoteRun_of_ne hc] at h
      cases h

/-- A quote is one of the text if the quotes behind it do not close the text, and also if they do so
without it. -/
def Inner (quote : Char) (rest : List Char) : Prop :=
  quoteRun quote rest ≤ 1 ∨ quoteRun quote rest = 3 ∨ quoteRun quote rest = 4

/-- A reader whose texts end with three quotes, before which one or two may stand. -/
structure ClosedBy (quote : Char) (read : List Char → Option (List Char × List Char)) : Prop where
  closing {rest : List Char} : (∀ more, rest ≠ quote :: more) →
    read (quote :: quote :: quote :: rest) = some ([], rest)
  one_closing {rest : List Char} : (∀ more, rest ≠ quote :: more) →
    read (quote :: quote :: quote :: quote :: rest) = some ([quote], rest)
  two_closing (rest : List Char) :
    read (quote :: quote :: quote :: quote :: quote :: rest) = some ([quote, quote], rest)
  single {rest : List Char} : (∀ more, rest ≠ quote :: quote :: more) →
    read (quote :: rest) = withChar quote (read rest)

/-- The reader of three double quotes, by the quotes that are still to be read. -/
theorem readMultilineBasic_closedBy : ClosedBy '"' (readMultilineBasic false) where
  closing hrest := by
    rw [readMultilineBasic]
    · exact fun _ h => hrest _ h
    · exact fun _ h => hrest _ h
  one_closing hrest := by
    rw [readMultilineBasic]
    exact fun _ h => hrest _ h
  two_closing rest := by rw [readMultilineBasic]
  single hrest := by
    rw [readMultilineBasic]
    · rfl
    · exact fun _ _ h => hrest _ h
    · exact fun _ _ h => hrest _ h
    · exact fun _ _ h => hrest _ h
    all_goals simp

theorem readMultilineLiteral_closedBy : ClosedBy '\'' readMultilineLiteral where
  closing hrest := by
    rw [readMultilineLiteral]
    · exact fun _ h => hrest _ h
    · exact fun _ h => hrest _ h
  one_closing hrest := by
    rw [readMultilineLiteral]
    exact fun _ h => hrest _ h
  two_closing rest := by rw [readMultilineLiteral]
  single hrest := by
    rw [readMultilineLiteral]
    · rfl
    · exact fun _ _ h => hrest _ h
    · exact fun _ _ h => hrest _ h
    · exact fun _ _ h => hrest _ h
    all_goals simp

/-- A quote inside the text is taken as one of its characters. -/
theorem ClosedBy.read_quote {quote : Char} {read : List Char → Option (List Char × List Char)}
    (hread : ClosedBy quote read) {rest : List Char} (h : Inner quote rest) :
    read (quote :: rest) = withChar quote (read rest) := by
  rcases h with hfew | hthree | hfour
  · apply hread.single
    rintro more rfl
    rw [quoteRun_quote, quoteRun_quote] at hfew
    omega
  · -- the last three close the text, and so this one is its end
    obtain ⟨_, rfl, htwo⟩ := quoteRun_eq_succ hthree
    obtain ⟨_, rfl, hone⟩ := quoteRun_eq_succ htwo
    obtain ⟨more, rfl, hzero⟩ := quoteRun_eq_succ hone
    have hmore := quoteRun_eq_zero_iff.1 hzero
    rw [hread.one_closing hmore, hread.closing hmore, withChar_some]
  · obtain ⟨_, rfl, hthree⟩ := quoteRun_eq_succ hfour
    obtain ⟨_, rfl, htwo⟩ := quoteRun_eq_succ hthree
    obtain ⟨_, rfl, hone⟩ := quoteRun_eq_succ htwo
    obtain ⟨more, rfl, hzero⟩ := quoteRun_eq_succ hone
    have hmore := quoteRun_eq_zero_iff.1 hzero
    rw [hread.two_closing, hread.one_closing hmore, withChar_some]

/-! ## Whole texts -/

/-- Before the closing quotes there may be one quote, but behind it there may be none. -/
theorem inner_append {quote : Char} {rest body : List Char} (hrest : ∀ more, rest ≠ quote :: more)
    (hbody : ∀ more, body ≠ quote :: quote :: more) :
    Inner quote (body ++ quote :: quote :: quote :: rest) := by
  -- the text may not end in more quotes than the reader can tell from the closing ones
  have hclosing : quoteRun quote (quote :: quote :: quote :: rest) = 3 := by
    rw [quoteRun_quote, quoteRun_quote, quoteRun_quote, quoteRun_eq_zero_iff.2 hrest]
  unfold Inner
  cases body with
  | nil =>
    rw [List.nil_append, hclosing]
    omega
  | cons c body =>
    rw [List.cons_append]
    by_cases hc : c = quote
    · subst hc
      rw [quoteRun_quote]
      cases body with
      | nil =>
        rw [List.nil_append, hclosing]
        omega
      | cons d body =>
        -- a second quote of the text would be the second in a row
        have hd : d ≠ c := by
          rintro rfl
          exact hbody body rfl
        rw [List.cons_append, quoteRun_of_ne hd]
        omega
    · rw [quoteRun_of_ne hc]
      omega

/-- A character of a text with escapes is an allowed quote, an escape, or itself. -/
theorem escapeText_cons_cases (allowed : Nat) (newlines : Bool) (run : Nat) (c : Char)
    (text : List Char) :
    (c = '"' ∧ run < allowed ∧ escapeText allowed newlines run (c :: text) =
      '"' :: escapeText allowed newlines (run + 1) text) ∨
    (∃ form, EscapeOf c form ∧ escapeText allowed newlines run (c :: text) =
      form ++ escapeText allowed newlines 0 text) ∨
    (c ≠ '"' ∧ c ≠ '\\' ∧ c ≠ '\r' ∧ (isPlain c = true ∨ c = '\n' ∧ newlines = true) ∧
      escapeText allowed newlines run (c :: text) = c :: escapeText allowed newlines 0 text) := by
  rw [escapeText]
  split
  · next hquote =>
    subst hquote
    split
    · -- a quote stands as it is as long as no three are in a row
      next hrun => exact Or.inl ⟨rfl, hrun, rfl⟩
    · exact Or.inr (Or.inl ⟨['\\', '"'], .letter (by decide), rfl⟩)
  · next hquote =>
    split
    · -- on one line the line end is escaped
      next hnewline =>
      simp only [Bool.and_eq_true, decide_eq_true_eq] at hnewline
      rw [hnewline.1]
      exact Or.inr (Or.inl ⟨['\\', 'n'], .letter (by decide), rfl⟩)
    · next hnewline =>
      simp only [Bool.and_eq_true, decide_eq_true_eq, Bool.not_eq_true', not_and,
        Bool.not_eq_false] at hnewline
      cases hescape : escape? c with
      | some form => exact Or.inr (Or.inl ⟨form, escapeOf_of_escape? hescape, rfl⟩)
      | none =>
        obtain ⟨hbackslash, hreturn, hplain⟩ := plain_of_escape?_eq_none hescape
        exact Or.inr (Or.inr ⟨hquote, hbackslash, hreturn,
          hplain.imp_right fun h => ⟨h, hnewline h⟩, rfl⟩)

/-- An unescaped quote at the start is an allowed one of the text. -/
theorem escapeText_eq_quote {allowed : Nat} {newlines : Bool} {run : Nat} {text more : List Char}
    (h : escapeText allowed newlines run text = '"' :: more) :
    run < allowed ∧ ∃ rest, more = escapeText allowed newlines (run + 1) rest := by
  cases text with
  | nil => cases h
  | cons c text =>
    rcases escapeText_cons_cases allowed newlines run c text with
      ⟨_, hrun, heq⟩ | ⟨form, hform, heq⟩ | ⟨hquote, _, _, _, heq⟩
    · rw [heq] at h
      exact ⟨hrun, text, (List.cons.inj h).2.symm⟩
    · rw [heq] at h
      cases hform with
      | letter => cases h
      | code => cases h
    · rw [heq] at h
      exact absurd (List.cons.inj h).1 hquote

/-- A text in double quotes. Induction on the text; every quote in it is escaped. -/
theorem readBasic_escapeText (text rest : List Char) (run : Nat) :
    readBasic (escapeText 0 false run text ++ '"' :: rest) = some (text, rest) := by
  induction text generalizing run with
  | nil => rfl
  | cons c text ih =>
    rcases escapeText_cons_cases 0 false run c text with
      ⟨_, hrun, _⟩ | ⟨form, hform, heq⟩ | ⟨hquote, hbackslash, _, hplain, heq⟩
    · cases hrun
    · rw [heq, List.append_assoc, readBasic_escape hform, ih, withChar_some]
    · have hplain : isPlain c = true := by simpa using hplain
      rw [heq, List.cons_append, readBasic_plain hquote hbackslash hplain, ih, withChar_some]

/-- A text in single quotes, which it must not have itself. -/
theorem readLiteral_append {text : List Char} (hquote : '\'' ∉ text)
    (hplain : ∀ c ∈ text, isPlain c = true) (rest : List Char) :
    readLiteral (text ++ '\'' :: rest) = some (text, rest) := by
  induction text with
  | nil => rfl
  | cons c text ih =>
    rw [List.forall_mem_cons] at hplain
    rw [List.mem_cons, not_or] at hquote
    rw [List.cons_append, readLiteral_plain (Ne.symm hquote.1) hplain.1, ih hquote.2 hplain.2,
      withChar_some]

section

variable {rest : List Char}

/-- Behind one unescaped quote two more do not stand unescaped. -/
theorem escapeText_ne_two_quotes {run : Nat} (hrun : 1 ≤ run) (text more : List Char) :
    escapeText 2 true run text ≠ '"' :: '"' :: more := by
  intro h
  -- both would be allowed ones, but the second is the third of its run
  obtain ⟨_, text', htext'⟩ := escapeText_eq_quote h
  obtain ⟨hrun', _⟩ := escapeText_eq_quote htext'.symm
  omega

/-- A text in three double quotes. The writer escapes a third quote in a row, so at most two touch the
closing ones. -/
theorem readMultilineBasic_escapeText (hrest : ∀ more, rest ≠ '"' :: more) (text : List Char)
    (run : Nat) : readMultilineBasic false (escapeText 2 true run text ++ '"' :: '"' :: '"' :: rest) =
      some (text, rest) := by
  induction text generalizing run with
  | nil => exact readMultilineBasic_closedBy.closing hrest
  | cons c text ih =>
    rcases escapeText_cons_cases 2 true run c text with
      ⟨hc, _, heq⟩ | ⟨form, hform, heq⟩ | ⟨hquote, hbackslash, hreturn, hplain, heq⟩
    · have hinner := inner_append hrest (escapeText_ne_two_quotes (Nat.le_add_left 1 run) text)
      rw [heq, List.cons_append, readMultilineBasic_closedBy.read_quote hinner, ih, withChar_some, hc]
    · rw [heq, List.append_assoc, readMultilineBasic_escape hform, ih, withChar_some]
    · rw [heq, List.cons_append,
        readMultilineBasic_plain hquote hbackslash hreturn (hplain.imp_right And.left), ih,
        withChar_some]

theorem le_longestRun (quote : Char) (run : Nat) (text : List Char) :
    run ≤ longestRun quote run text := by
  induction text generalizing run with
  | nil => exact Nat.le_refl _
  | cons c text ih =>
    rw [longestRun]
    split
    · have := ih (run + 1)
      omega
    · omega

theorem not_mem_of_longestRun {quote : Char} {text : List Char} (h : longestRun quote 0 text = 0) :
    quote ∉ text := by
  induction text with
  | nil => simp
  | cons c text ih =>
    rw [longestRun] at h
    split at h
    · have := le_longestRun quote (0 + 1) text
      omega
    · next hc =>
      rw [List.mem_cons, not_or]
      exact ⟨Ne.symm hc, ih (by omega)⟩

/-- A run of two is not followed by a quote. -/
theorem ne_two_quotes_of_longestRun {quote : Char} {run : Nat} {text : List Char}
    (h : longestRun quote (run + 1) text ≤ 2) (more : List Char) : text ≠ quote :: quote :: more := by
  rintro rfl
  rw [longestRun, if_pos rfl, longestRun, if_pos rfl] at h
  have hle := le_longestRun quote (run + 1 + 1 + 1) more
  omega

/-- A text in three single quotes, with no more than two of them in a row. -/
theorem readMultilineLiteral_append (hrest : ∀ more, rest ≠ '\'' :: more) {text : List Char}
    (hcontrol : ∀ c ∈ text, needsEscape c = false) {run : Nat}
    (hrun : longestRun '\'' run text ≤ 2) :
    readMultilineLiteral (text ++ '\'' :: '\'' :: '\'' :: rest) = some (text, rest) := by
  induction text generalizing run with
  | nil => exact readMultilineLiteral_closedBy.closing hrest
  | cons c text ih =>
    rw [List.forall_mem_cons] at hcontrol
    rw [longestRun] at hrun
    split at hrun
    · next hc =>
      -- two in a row are left at most, so this quote is one of the text
      have hinner := inner_append hrest (ne_two_quotes_of_longestRun hrun)
      rw [hc, List.cons_append, readMultilineLiteral_closedBy.read_quote hinner,
        ih hcontrol.2 hrun, withChar_some]
    · next hc =>
      have hrun : longestRun '\'' 0 text ≤ 2 := by omega
      have hreturn : c ≠ '\r' := by
        rintro rfl
        exact absurd hcontrol.1 (by decide)
      rw [List.cons_append, readMultilineLiteral_plain hc hreturn
        (isPlain_or_of_not_needsEscape hcontrol.1), ih hcontrol.2 hrun, withChar_some]

end

/-! ## The form of a text -/

/-- What stands behind a quoted text is no quote. -/
def NoQuote (rest : List Char) : Prop :=
  ∀ c ∈ rest.head?, c ≠ '"' ∧ c ≠ '\''

theorem NoQuote.ne_double {rest : List Char} (h : NoQuote rest) (more : List Char) :
    rest ≠ '"' :: more := by
  rintro rfl
  exact (h '"' rfl).1 rfl

theorem NoQuote.ne_single {rest : List Char} (h : NoQuote rest) (more : List Char) :
    rest ≠ '\'' :: more := by
  rintro rfl
  exact (h '\'' rfl).2 rfl

/-- A text that starts with another character keeps all of it. -/
theorem dropFirstLineEnd_of_ne {c : Char} (hnewline : c ≠ '\n') (hreturn : c ≠ '\r')
    (rest : List Char) : dropFirstLineEnd (c :: rest) = c :: rest := by
  rw [dropFirstLineEnd]
  · exact fun _ h => hnewline (List.cons.inj h).1
  · exact fun _ h => hreturn (List.cons.inj h).1

/-- A text of several lines starts on its own line, and one of a single line with no line end. -/
theorem dropFirstLineEnd_start {text body : List Char}
    (hbody : '\n' ∉ text → dropFirstLineEnd body = body) :
    dropFirstLineEnd ((if '\n' ∈ text then ['\n'] else []) ++ body) = body := by
  split
  · rfl
  · next h => exact hbody h

section

variable {text rest : List Char}

/-- The opening quote tells the form: one double quote. -/
theorem readQuoted_basic (text : List Char) (hrest : NoQuote rest) :
    readQuoted (writeIn .basic text ++ rest) = some (.quoted text false, rest) := by
  -- the quotes of an empty text and a quote behind them would open a text of several lines
  have hopen : ∀ more, escapeText 0 false 0 text ++ '"' :: rest ≠ '"' :: '"' :: more := by
    intro more h
    cases hbody : escapeText 0 false 0 text with
    | nil =>
      rw [hbody] at h
      exact hrest.ne_double more (List.cons.inj h).2
    | cons c body =>
      rw [hbody] at h
      rw [(List.cons.inj h).1] at hbody
      obtain ⟨hrun, _⟩ := escapeText_eq_quote hbody
      omega
  have hwritten : writeIn .basic text ++ rest = '"' :: (escapeText 0 false 0 text ++ '"' :: rest) := by
    simp [writeIn]
  rw [hwritten, readQuoted, readBasic_escapeText]
  · rfl
  · exact fun _ h => hopen _ h

theorem readQuoted_literal (hquote : '\'' ∉ text) (hplain : ∀ c ∈ text, isPlain c = true)
    (hrest : NoQuote rest) :
    readQuoted (writeIn .literal text ++ rest) = some (.quoted text false, rest) := by
  have hopen : ∀ more, text ++ '\'' :: rest ≠ '\'' :: '\'' :: more := by
    intro more h
    cases text with
    | nil => exact hrest.ne_single more (List.cons.inj h).2
    | cons c text => exact hquote (List.mem_cons.2 (Or.inl (List.cons.inj h).1.symm))
  have hwritten : writeIn .literal text ++ rest = '\'' :: (text ++ '\'' :: rest) := by
    simp [writeIn]
  rw [hwritten, readQuoted, readLiteral_append hquote hplain]
  · rfl
  · exact fun _ h => hopen _ h

/-- Three double quotes. The line end behind them is not of the text. -/
theorem readQuoted_multilineBasic (text : List Char) (hrest : NoQuote rest) :
    readQuoted (writeIn .multilineBasic text ++ rest) = some (.quoted text true, rest) := by
  -- without a line end of its own the text does not start with one either
  have hbody : '\n' ∉ text → dropFirstLineEnd (escapeText 2 true 0 text ++ '"' :: '"' :: '"' :: rest) =
      escapeText 2 true 0 text ++ '"' :: '"' :: '"' :: rest := by
    intro hnewline
    cases text with
    | nil => rfl
    | cons c text =>
      rcases escapeText_cons_cases 2 true 0 c text with
        ⟨_, _, heq⟩ | ⟨form, hform, heq⟩ | ⟨_, _, hreturn, _, heq⟩
      · rw [heq]
        rfl
      · rw [heq]
        cases hform <;> rfl
      · rw [List.mem_cons, not_or] at hnewline
        rw [heq]
        exact dropFirstLineEnd_of_ne (Ne.symm hnewline.1) hreturn _
  have hwritten : writeIn .multilineBasic text ++ rest = '"' :: '"' :: '"' ::
      ((if '\n' ∈ text then ['\n'] else []) ++
        (escapeText 2 true 0 text ++ '"' :: '"' :: '"' :: rest)) := by
    simp [writeIn]
  rw [hwritten, readQuoted, dropFirstLineEnd_start hbody,
    readMultilineBasic_escapeText hrest.ne_double]
  rfl

theorem readQuoted_multilineLiteral (hcontrol : ∀ c ∈ text, needsEscape c = false)
    (hrun : longestRun '\'' 0 text ≤ 2) (hrest : NoQuote rest) :
    readQuoted (writeIn .multilineLiteral text ++ rest) = some (.quoted text true, rest) := by
  have hbody : '\n' ∉ text → dropFirstLineEnd (text ++ '\'' :: '\'' :: '\'' :: rest) =
      text ++ '\'' :: '\'' :: '\'' :: rest := by
    intro hnewline
    cases text with
    | nil => rfl
    | cons c text =>
      rw [List.mem_cons, not_or] at hnewline
      have hreturn : c ≠ '\r' := by
        rintro rfl
        exact absurd (hcontrol '\r' (List.mem_cons_self ..)) (by decide)
      exact dropFirstLineEnd_of_ne (Ne.symm hnewline.1) hreturn _
  have hwritten : writeIn .multilineLiteral text ++ rest = '\'' :: '\'' :: '\'' ::
      ((if '\n' ∈ text then ['\n'] else []) ++ (text ++ '\'' :: '\'' :: '\'' :: rest)) := by
    simp [writeIn]
  rw [hwritten, readQuoted, dropFirstLineEnd_start hbody,
    readMultilineLiteral_append hrest.ne_single hcontrol hrun]
  rfl

/-- **A text is read back** in the form that is chosen for it. The forms without escapes are chosen
only where every character shows as it is and no quotes close the text. -/
theorem readQuoted_writeIn (text : List Char) : ∃ multiline, ∀ rest, NoQuote rest →
    readQuoted (writeIn (.of text) text ++ rest) = some (.quoted text multiline, rest) := by
  unfold StringForm.of
  simp only [Bool.and_eq_true, Bool.not_eq_true', decide_eq_true_eq, decide_eq_false_iff_not,
    List.any_eq_false, Bool.not_eq_true]
  split
  · exact ⟨_, fun _ => readQuoted_basic text⟩
  split
  · next hliteral =>
    obtain ⟨⟨hcontrol, hsingles⟩, hnewline⟩ := hliteral
    -- no line end in the text, so all of its characters are plain
    have hplain : ∀ c ∈ text, isPlain c = true := by
      intro c hc
      refine (isPlain_or_of_not_needsEscape (hcontrol c hc)).resolve_right ?_
      rintro rfl
      exact hnewline hc
    exact ⟨_, fun _ => readQuoted_literal (not_mem_of_longestRun hsingles) hplain⟩
  split
  · exact ⟨_, fun _ => readQuoted_multilineBasic text⟩
  split
  · next hliteral =>
    exact ⟨_, fun _ => readQuoted_multilineLiteral hliteral.1 hliteral.2⟩
  split
  · exact ⟨_, fun _ => readQuoted_multilineBasic text⟩
  · exact ⟨_, fun _ => readQuoted_basic text⟩

end

end TagFormula.Toml
