import TagFormula.Proofs.Lexing

/-!
# The lexical grammar

A text is cut from the left into blanks, operand symbols, runs of number characters and characters
that are none of these. Every text is cut in one way only. It has tokens if its runs are literals and
no other character occurs; else the first piece that cannot be read is reported.

* **`Token.Piece`**, **`Piece.StandsBefore`**, **`Token.Cut`**: the pieces, which of them may stand
  before a text, and what a text is cut into.
* **`Cut.exists_pieces`**, **`Cut.unique`**: every text is cut, and in one way.
* **`Cut.front`**: so is every front part of it that ends where a piece does.
* **`Piece.Reads`**, **`Piece.Fault`**: the tokens of a piece, and how it is reported. One of the two
  holds of each piece.
* **`Token.scan_piece`**, **`scan_fault`**: the first piece of a text decides how it is read.
* **`Token.scan_eq_ok_iff`**, **`scan_eq_error_iff`**: the tokens of a text are those of its pieces,
  and its error is the one of its first piece at fault.
* **`Token.ofText_reads_pieces`**: all of this about whole texts.
-/

namespace TagFormula.Token

open String (utf8Len)

/-! ## Pieces -/

/-- The parts into which a text is cut before any of them is read. -/
inductive Piece where
  | blank (c : Char)
  | operand (op : Operand)
  | run (cs : List Char)
  | unknown (c : Char)
  deriving DecidableEq, Repr

/-- The characters of a piece. -/
def Piece.chars : Piece → List Char
  | .blank c => [c]
  | .operand op => [op.toChar]
  | .run cs => cs
  | .unknown c => [c]

/-- A run starts with a digit or a point. -/
def Starts (c : Char) : Prop :=
  c.isDigit = true ∨ c = '.'

/-- Behind `last` a run goes on with digits, points and the letters of an exponent, and with a sign if
`last` is such a letter. -/
def Continues (last c : Char) : Prop :=
  c.isDigit = true ∨ c = '.' ∨ c = 'e' ∨ c = 'E' ∨ (c = '+' ∨ c = '-') ∧ (last = 'e' ∨ last = 'E')

/-- The piece is what is cut off a text that goes on with `after`. A run reaches as far as it can. -/
inductive Piece.StandsBefore : Piece → (after : List Char) → Prop
  | blank {c after} (hblank : Text.isBlank c = true) : StandsBefore (.blank c) after
  | operand {op after} : StandsBefore (.operand op) after
  | run {first more after} (hstart : Starts first) (hrun : (first :: more).IsChain Continues)
      (hstop : ∀ last ∈ (first :: more).getLast?, ∀ c ∈ after.head?, ¬ Continues last c) :
      StandsBefore (.run (first :: more)) after
  | unknown {c after} (hblank : Text.isBlank c = false) (hop : ∀ op : Operand, c ≠ op.toChar)
      (hstart : ¬ Starts c) : StandsBefore (.unknown c) after

/-- The text is cut into these pieces. -/
inductive Cut : (text : List Char) → List Piece → Prop
  | nil : Cut [] []
  | cons {piece rest pieces} (hfirst : piece.StandsBefore rest) (hrest : Cut rest pieces) :
      Cut (piece.chars ++ rest) (piece :: pieces)

/-! ## Runs -/

theorem startsNumber_eq_false_iff {c : Char} : startsNumber c = false ↔ ¬ Starts c := by
  rw [Starts, ← startsNumber_iff, Bool.not_eq_true]

theorem ofChar?_eq_none_iff {c : Char} :
    Operand.ofChar? c = none ↔ ∀ op : Operand, c ≠ op.toChar := by
  rw [Option.eq_none_iff_forall_ne_some]
  exact forall_congr' fun op => not_congr Operand.ofChar?_eq_some_iff

/-- What is split off a text is its part that continues the run. -/
theorem splitRun_eq_iff {last : Char} {run after : List Char} :
    splitRun last (run ++ after) = (run, after) ↔ (last :: run).IsChain Continues ∧
      ∀ d ∈ (last :: run).getLast?, ∀ c ∈ after.head?, ¬ Continues d c := by
  induction run generalizing last with
  | nil =>
    cases after with
    | nil => simp [splitRun]
    | cons c rest =>
      have hcontinues : continuesNumber last c = true ↔ Continues last c := continuesNumber_iff
      simp only [List.nil_append, splitRun]
      split
      · next h => simp [hcontinues.1 h]
      · next h => simpa using mt hcontinues.2 h
  | cons c run ih =>
    have hcontinues : continuesNumber last c = true ↔ Continues last c := continuesNumber_iff
    rw [List.cons_append, splitRun, List.isChain_cons_cons, List.getLast?_cons_cons, and_assoc, ← ih,
      ← hcontinues]
    split
    · next h => simp [h, Prod.ext_iff]
    · next h => simp [h]

/-- A run that can go no further is what the lexer takes in one go. -/
theorem splitRun_of_standsBefore {first : Char} {more after : List Char}
    (h : (Piece.run (first :: more)).StandsBefore after) :
    splitRun first (more ++ after) = (more, after) := by
  cases h with
  | run _ hrun hstop => exact splitRun_eq_iff.2 ⟨hrun, hstop⟩

/-- What the lexer takes in one go is a run that can go no further. -/
theorem standsBefore_of_startsNumber {c : Char} (h : startsNumber c = true) (rest : List Char) :
    (Piece.run (c :: (splitRun c rest).1)).StandsBefore (splitRun c rest).2 := by
  have hsplit : splitRun c ((splitRun c rest).1 ++ (splitRun c rest).2) =
      ((splitRun c rest).1, (splitRun c rest).2) := by
    rw [splitRun_append]
  obtain ⟨hrun, hstop⟩ := splitRun_eq_iff.1 hsplit
  exact .run (startsNumber_iff.1 h) hrun hstop

/-- Number characters are one byte each. -/
theorem utf8Len_of_standsBefore {first : Char} {more after : List Char}
    (h : (Piece.run (first :: more)).StandsBefore after) :
    utf8Len (first :: more) = (first :: more).length := by
  have hmore : utf8Len (more ++ after) = more.length + utf8Len after := by
    rw [utf8Len_splitRun first (more ++ after), splitRun_of_standsBefore h]
  rw [String.utf8Len_append] at hmore
  cases h with
  | run hstart =>
    have hfirst : first.utf8Size = 1 :=
      utf8Size_of_continuesNumber
        (continuesNumber_of_startsNumber (startsNumber_iff.2 hstart) first)
    rw [String.utf8Len_cons, List.length_cons, hfirst]
    omega

/-! ## Cutting a text -/

/-- The piece at the front of a text and what follows it, by the kind of the first character. -/
def Piece.front (c : Char) (rest : List Char) : Piece × List Char :=
  if Text.isBlank c then (.blank c, rest)
  else
    match Operand.ofChar? c with
    | some op => (.operand op, rest)
    | none =>
      if startsNumber c then (.run (c :: (splitRun c rest).1), (splitRun c rest).2)
      else (.unknown c, rest)

/-- The first piece of a text is found by its first character. -/
theorem Piece.standsBefore_front (c : Char) (rest : List Char) :
    (front c rest).1.StandsBefore (front c rest).2 ∧
      (front c rest).1.chars ++ (front c rest).2 = c :: rest ∧
      (front c rest).2.length ≤ rest.length := by
  unfold front
  split
  · next hblank => exact ⟨.blank hblank, rfl, Nat.le_refl _⟩
  · next hblank =>
    split
    · next op hop => exact ⟨.operand, by rw [Operand.ofChar?_eq_some_iff.1 hop]; rfl, Nat.le_refl _⟩
    · next hop =>
      split
      · next hstart =>
        exact ⟨standsBefore_of_startsNumber hstart rest, congrArg (c :: ·) (splitRun_append c rest),
          length_splitRun_le c rest⟩
      · next hstart =>
        exact ⟨.unknown (Bool.not_eq_true _ ▸ hblank) (ofChar?_eq_none_iff.1 hop)
          (startsNumber_eq_false_iff.1 (Bool.not_eq_true _ ▸ hstart)), rfl, Nat.le_refl _⟩

/-- No other piece stands at the front of a text. -/
theorem Piece.eq_front {piece : Piece} {after : List Char} (h : piece.StandsBefore after) :
    ∃ c rest, piece.chars ++ after = c :: rest ∧ front c rest = (piece, after) := by
  cases h with
  | @blank c _ hblank =>
    refine ⟨c, after, rfl, ?_⟩
    rw [front, if_pos hblank]
  | @operand op =>
    refine ⟨op.toChar, after, rfl, ?_⟩
    rw [front, if_neg (by simp), Operand.ofChar?_toChar]
  | @run first more _ hstart hrun hstop =>
    have hstarts : startsNumber first = true := startsNumber_iff.2 hstart
    have hsplit := splitRun_of_standsBefore (.run hstart hrun hstop)
    refine ⟨first, more ++ after, rfl, ?_⟩
    rw [front, if_neg (by rw [not_isBlank_of_startsNumber hstarts]; decide),
      ofChar?_of_startsNumber hstarts]
    simp only [hstarts, hsplit, if_true]
  | @unknown c _ hblank hop hstart =>
    have hnone : Operand.ofChar? c = none := ofChar?_eq_none_iff.2 hop
    refine ⟨c, after, rfl, ?_⟩
    rw [front, if_neg (by rw [hblank]; decide), hnone]
    exact if_neg fun h => hstart (startsNumber_iff.1 h)

/-- No text has two first pieces. -/
theorem Piece.front_unique {p q : Piece} {a b : List Char} (hp : p.StandsBefore a)
    (hq : q.StandsBefore b) (h : p.chars ++ a = q.chars ++ b) : p = q ∧ a = b := by
  obtain ⟨c, rest, heq, hfront⟩ := eq_front hp
  obtain ⟨c', rest', heq', hfront'⟩ := eq_front hq
  obtain ⟨rfl, rfl⟩ : c = c' ∧ rest = rest' := by
    rw [heq, heq'] at h
    exact ⟨List.head_eq_of_cons_eq h, List.tail_eq_of_cons_eq h⟩
  rw [hfront] at hfront'
  exact ⟨congrArg Prod.fst hfront', congrArg Prod.snd hfront'⟩

theorem Piece.chars_append_ne_nil {piece : Piece} {after : List Char}
    (h : piece.StandsBefore after) : piece.chars ++ after ≠ [] := by
  obtain ⟨c, rest, heq, _⟩ := eq_front h
  rw [heq]
  exact List.cons_ne_nil _ _

/-- Every text can be cut. Induction on its length, piece after piece. -/
theorem Cut.exists_pieces (text : List Char) : ∃ pieces, Cut text pieces := by
  -- on the length: what follows the first piece is shorter
  induction hlength : text.length using Nat.strong_induction_on generalizing text with
  | _ n ih =>
    cases text with
    | nil => exact ⟨[], .nil⟩
    | cons c rest =>
      obtain ⟨hpiece, hchars, hle⟩ := Piece.standsBefore_front c rest
      rw [List.length_cons] at hlength
      obtain ⟨pieces, hpieces⟩ := ih (Piece.front c rest).2.length (by omega) _ rfl
      rw [← hchars]
      exact ⟨_, .cons hpiece hpieces⟩

/-- It can be cut in one way only. -/
theorem Cut.unique {text : List Char} {pieces others : List Piece} (h : Cut text pieces)
    (hothers : Cut text others) : others = pieces := by
  induction h generalizing others with
  | nil =>
    generalize htext : ([] : List Char) = text at hothers
    cases hothers with
    | nil => rfl
    | cons hfirst => exact absurd htext.symm (Piece.chars_append_ne_nil hfirst)
  | @cons piece rest pieces hfirst _ ih =>
    generalize htext : piece.chars ++ rest = text at hothers
    cases hothers with
    | nil => exact absurd htext (Piece.chars_append_ne_nil hfirst)
    | cons hother hmore =>
      obtain ⟨rfl, rfl⟩ := Piece.front_unique hfirst hother htext
      rw [ih hmore]

theorem Cut.flatMap_chars {text : List Char} {pieces : List Piece} (h : Cut text pieces) :
    pieces.flatMap Piece.chars = text := by
  induction h with
  | nil => rfl
  | cons _ _ ih => rw [List.flatMap_cons, ih]

/-- What stands before a text stands before every front part of it. -/
theorem Piece.StandsBefore.of_append {piece : Piece} {after behind : List Char}
    (h : piece.StandsBefore (after ++ behind)) : piece.StandsBefore after := by
  cases h with
  | blank hblank => exact .blank hblank
  | operand => exact .operand
  | run hstart hrun hstop =>
    refine .run hstart hrun fun last hlast c hc => hstop last hlast c ?_
    cases after with
    | nil => cases hc
    | cons d rest => exact hc
  | unknown hblank hop hstart => exact .unknown hblank hop hstart

/-- The front of a cut text is cut at the same places. -/
theorem Cut.front {before behind : List Piece} {text : List Char} (h : Cut text (before ++ behind)) :
    Cut (before.flatMap Piece.chars) before := by
  induction before generalizing text with
  | nil => exact .nil
  | cons piece before ih =>
    rw [List.cons_append] at h
    cases h with
    | cons hfirst hrest =>
      rw [← hrest.flatMap_chars, List.flatMap_append] at hfirst
      exact .cons hfirst.of_append (ih hrest)

/-- Each piece of a cut text stands before the pieces behind it. -/
theorem Cut.standsBefore {before behind : List Piece} {piece : Piece} {text : List Char}
    (h : Cut text (before ++ piece :: behind)) :
    piece.StandsBefore (behind.flatMap Piece.chars) := by
  induction before generalizing text with
  | nil =>
    rw [List.nil_append] at h
    cases h with
    | cons hfirst hrest => rwa [hrest.flatMap_chars]
  | cons first before ih =>
    rw [List.cons_append] at h
    cases h with
    | cons _ hrest => exact ih hrest

/-! ## What a piece is read as -/

/-- The tokens of a piece that begins at `position`. -/
inductive Piece.Reads : Piece → (position : Nat) → List (Token Float) → Prop
  | blank {c position} : Reads (.blank c) position []
  | operand {op position} : Reads (.operand op) position [⟨.operand op, position⟩]
  | run {cs position} {l : Literal} (h : Literal.Spells cs l) :
      Reads (.run cs) position [⟨.number l.value, position⟩]

/-- The error for a piece that begins at `position`. -/
inductive Piece.Fault : Piece → (position : Nat) → FormulaError Float → Prop
  | run {cs position} (h : ∀ l, ¬ Literal.Spells cs l) :
      Fault (.run cs) position (.invalidNumber (String.ofList cs) position)
  | unknown {c position} : Fault (.unknown c) position (.unknownCharacter c position)

/-- A piece of the grammar: no unknown character, and no run that is not a literal. -/
def Piece.IsLexeme : Piece → Prop
  | .blank _ => True
  | .operand _ => True
  | .run cs => ∃ l, Literal.Spells cs l
  | .unknown _ => False

/-- A piece that can be read is read in the same way wherever it stands. -/
theorem Piece.isLexeme_iff {piece : Piece} (position : Nat) :
    piece.IsLexeme ↔ ∃ tokens, piece.Reads position tokens := by
  constructor
  · intro h
    cases piece with
    | blank c => exact ⟨_, .blank⟩
    | operand op => exact ⟨_, .operand⟩
    | run cs =>
      obtain ⟨l, hl⟩ := h
      exact ⟨_, .run hl⟩
    | unknown c => exact h.elim
  · rintro ⟨tokens, h⟩
    cases h with
    | blank | operand => exact trivial
    | run hl => exact ⟨_, hl⟩

/-- A piece is read or reported. -/
theorem Piece.exists_reads_or_fault (piece : Piece) (position : Nat) :
    (∃ tokens, piece.Reads position tokens) ∨ ∃ e, piece.Fault position e := by
  cases piece with
  | blank c => exact Or.inl ⟨_, .blank⟩
  | operand op => exact Or.inl ⟨_, .operand⟩
  | run cs =>
    by_cases h : ∃ l, Literal.Spells cs l
    · obtain ⟨l, hl⟩ := h
      exact Or.inl ⟨_, .run hl⟩
    · exact Or.inr ⟨_, .run (not_exists.1 h)⟩
  | unknown c => exact Or.inr ⟨_, .unknown⟩

/-- The tokens of consecutive pieces, of which the first begins at `position`. -/
inductive ReadsAll : (position : Nat) → List Piece → List (Token Float) → Prop
  | nil {position} : ReadsAll position [] []
  | cons {position piece pieces first tokens} (hfirst : piece.Reads position first)
      (hrest : ReadsAll (position + utf8Len piece.chars) pieces tokens) :
      ReadsAll position (piece :: pieces) (first ++ tokens)

/-! ## Reading a cut text -/

variable {position : Nat} {piece : Piece} {after : List Char} {first : List (Token Float)}

/-- The lexer at a run: the literal decides, and the rest of the text is read from behind it. -/
theorem scan_run_piece {start : Char} {more : List Char}
    (h : (Piece.run (start :: more)).StandsBefore after) :
    scan position (start :: more ++ after) =
      match Literal.read? (start :: more) with
      | none => .error (.invalidNumber (String.ofList (start :: more)) position)
      | some literal =>
        (scan (position + utf8Len (start :: more)) after).map
          (⟨.number literal.value, position⟩ :: ·) := by
  have hstart : startsNumber start = true := by
    cases h with
    | run hstart => exact startsNumber_iff.2 hstart
  have hscan := @scan_run position start (more ++ after) hstart
  rw [splitRun_of_standsBefore h] at hscan
  rw [utf8Len_of_standsBefore h]
  exact hscan

/-- A piece that is read stands with its tokens before those of the rest. -/
theorem scan_piece (h : piece.StandsBefore after) (hfirst : piece.Reads position first) :
    scan position (piece.chars ++ after) =
      (scan (position + utf8Len piece.chars) after).map (first ++ ·) := by
  cases hfirst with
  | @blank c =>
    cases h with
    | blank hblank =>
      have hsize : utf8Len (Piece.blank c).chars = c.utf8Size := Nat.zero_add _
      rw [hsize]
      show scan position (c :: after) = (scan (position + c.utf8Size) after).map id
      rw [scan_blank hblank, Except.map_id, id]
  | @operand op =>
    have hsize : utf8Len (Piece.operand op).chars = 1 := by
      rw [Piece.chars, String.utf8Len_cons, Operand.utf8Size_toChar]
      rfl
    rw [hsize]
    exact scan_operand op
  | run hl =>
    have hbefore := h
    cases h with
    | run =>
      rw [Piece.chars, scan_run_piece hbefore, Literal.read?_eq_some_iff.2 hl]
      rfl

/-- The lexer stops at a piece that cannot be read. -/
theorem scan_fault {e : FormulaError Float} (h : piece.StandsBefore after)
    (hfault : piece.Fault position e) : scan position (piece.chars ++ after) = .error e := by
  cases hfault with
  | run hnot =>
    have hbefore := h
    cases h with
    | @run start more =>
      have hread : Literal.read? (start :: more) = none :=
        Option.eq_none_iff_forall_ne_some.2 fun l hl => hnot l (Literal.read?_eq_some_iff.1 hl)
      rw [Piece.chars, scan_run_piece hbefore, hread]
  | unknown =>
    cases h with
    | unknown hblank hop hstart =>
      exact scan_unknown hblank (ofChar?_eq_none_iff.2 hop) (startsNumber_eq_false_iff.2 hstart)

theorem map_append_map {ε : Type} (front back : List (Token Float))
    (reading : Except ε (List (Token Float))) :
    (reading.map (back ++ ·)).map (front ++ ·) = reading.map (front ++ back ++ ·) := by
  cases reading with
  | error e => rfl
  | ok tokens => exact congrArg Except.ok (List.append_assoc ..).symm

/-- What the pieces at the front are read as stands before the tokens of the rest. -/
theorem scan_readsAll {pieces behind : List Piece} {text : List Char} {tokens : List (Token Float)}
    (h : Cut text (pieces ++ behind)) (hreads : ReadsAll position pieces tokens) :
    scan position text =
      (scan (position + utf8Len (pieces.flatMap Piece.chars)) (behind.flatMap Piece.chars)).map
        (tokens ++ ·) := by
  induction hreads generalizing text with
  | nil =>
    rw [← h.flatMap_chars]
    show _ = (scan _ _).map id
    rw [Except.map_id]
    rfl
  | @cons position piece pieces first tokens hfirst _ ih =>
    rw [List.cons_append] at h
    cases h with
    | cons hpiece hrest =>
      have hlen : utf8Len ((piece :: pieces).flatMap Piece.chars) =
          utf8Len piece.chars + utf8Len (pieces.flatMap Piece.chars) := by
        rw [List.flatMap_cons, String.utf8Len_append]
      -- the first piece by itself, the others behind it
      rw [scan_piece hpiece hfirst, ih hrest, map_append_map, hlen, Nat.add_assoc]

/-- A faulty piece is reported when all before it is read. -/
theorem scan_readsAll_fault {before behind : List Piece} {text : List Char}
    {tokens : List (Token Float)} {e : FormulaError Float} (h : Cut text (before ++ piece :: behind))
    (hreads : ReadsAll position before tokens)
    (hfault : piece.Fault (position + utf8Len (before.flatMap Piece.chars)) e) :
    scan position text = .error e := by
  rw [scan_readsAll h hreads, List.flatMap_cons, scan_fault ?_ hfault]
  · rfl
  · exact h.standsBefore

/-- All pieces are read, or one is at fault and all before it are read. -/
theorem exists_readsAll_or_fault (position : Nat) (pieces : List Piece) :
    (∃ tokens, ReadsAll position pieces tokens) ∨
      ∃ before piece behind tokens e, pieces = before ++ piece :: behind ∧
        ReadsAll position before tokens ∧
        piece.Fault (position + utf8Len (before.flatMap Piece.chars)) e := by
  induction pieces generalizing position with
  | nil => exact Or.inl ⟨[], .nil⟩
  | cons piece pieces ih =>
    rcases piece.exists_reads_or_fault position with ⟨first, hfirst⟩ | ⟨e, hfault⟩
    · rcases ih (position + utf8Len piece.chars) with ⟨tokens, htokens⟩ | hrest
      · exact Or.inl ⟨_, .cons hfirst htokens⟩
      · obtain ⟨before, faulty, behind, tokens, e, rfl, hreads, hfault⟩ := hrest
        refine Or.inr ⟨piece :: before, faulty, behind, _, e, rfl, .cons hfirst hreads, ?_⟩
        rw [List.flatMap_cons, String.utf8Len_append, ← Nat.add_assoc]
        exact hfault
    · exact Or.inr ⟨[], piece, pieces, [], e, rfl, .nil, hfault⟩

/-- The lexer succeeds with the tokens of the pieces, one after the other. Induction on the cut. -/
theorem scan_eq_ok_iff {text : List Char} {pieces : List Piece} (h : Cut text pieces)
    {tokens : List (Token Float)} :
    scan position text = .ok tokens ↔ ReadsAll position pieces tokens := by
  have hread {tokens : List (Token Float)} (hreads : ReadsAll position pieces tokens) :
      scan position text = .ok tokens := by
    have hcut : Cut text (pieces ++ []) := by rwa [List.append_nil]
    rw [scan_readsAll hcut hreads, List.flatMap_nil, scan_nil]
    exact congrArg Except.ok (List.append_nil tokens)
  refine ⟨fun hscan => ?_, hread⟩
  -- what is read is what the pieces have, as no piece can be at fault
  rcases exists_readsAll_or_fault position pieces with ⟨others, hothers⟩ | hfaulty
  · rw [hread hothers] at hscan
    cases hscan
    exact hothers
  · obtain ⟨before, piece, behind, others, e, rfl, hreads, hfault⟩ := hfaulty
    rw [scan_readsAll_fault h hreads hfault] at hscan
    cases hscan

/-- The lexer fails at the first piece that cannot be read, at the place where it starts. -/
theorem scan_eq_error_iff {text : List Char} {pieces : List Piece} (h : Cut text pieces)
    {e : FormulaError Float} :
    scan position text = .error e ↔
      ∃ before piece behind tokens, pieces = before ++ piece :: behind ∧
        ReadsAll position before tokens ∧
        piece.Fault (position + utf8Len (before.flatMap Piece.chars)) e := by
  constructor
  · intro hscan
    rcases exists_readsAll_or_fault position pieces with ⟨tokens, htokens⟩ | hfaulty
    · rw [(scan_eq_ok_iff h).2 htokens] at hscan
      cases hscan
    · obtain ⟨before, piece, behind, tokens, e', rfl, hreads, hfault⟩ := hfaulty
      rw [scan_readsAll_fault h hreads hfault] at hscan
      cases hscan
      exact ⟨before, piece, behind, tokens, rfl, hreads, hfault⟩
  · rintro ⟨before, piece, behind, tokens, rfl, hreads, hfault⟩
    exact scan_readsAll_fault h hreads hfault

/-- All pieces can be read if each of them can, as the reading of one leaves the others alone. -/
theorem exists_readsAll_iff {pieces : List Piece} (position : Nat) :
    (∃ tokens, ReadsAll position pieces tokens) ↔ ∀ piece ∈ pieces, piece.IsLexeme := by
  induction pieces generalizing position with
  | nil => exact ⟨fun _ _ => nofun, fun _ => ⟨[], .nil⟩⟩
  | cons piece pieces ih =>
    rw [List.forall_mem_cons, ← ih (position + utf8Len piece.chars), piece.isLexeme_iff position]
    constructor
    · rintro ⟨_, h⟩
      cases h with
      | cons hfirst hrest => exact ⟨⟨_, hfirst⟩, ⟨_, hrest⟩⟩
    · rintro ⟨⟨first, hfirst⟩, tokens, hrest⟩
      exact ⟨_, .cons hfirst hrest⟩

/-- A text is cut in one way. It has tokens if all its pieces are lexemes, and these are the tokens of
its pieces. Else the first piece at fault is reported, and the text before it has tokens. -/
theorem ofText_reads_pieces (text : String) :
    ∃ pieces, Cut text.toList pieces ∧ (∀ others, Cut text.toList others → others = pieces) ∧
      ((∃ tokens, ofText text = .ok tokens) ↔ ∀ piece ∈ pieces, piece.IsLexeme) ∧
      (∀ tokens, ofText text = .ok tokens ↔ ReadsAll 0 pieces tokens) ∧
      ∀ e, ofText text = .error e ↔
        ∃ before piece behind, pieces = before ++ piece :: behind ∧
          piece.Fault (utf8Len (before.flatMap Piece.chars)) e ∧
          ∃ tokens, ReadsAll 0 before tokens ∧
            ofText (String.ofList (before.flatMap Piece.chars)) = .ok tokens := by
  obtain ⟨pieces, hcut⟩ := Cut.exists_pieces text.toList
  have hok {tokens : List (Token Float)} : ofText text = .ok tokens ↔ ReadsAll 0 pieces tokens :=
    scan_eq_ok_iff hcut
  refine ⟨pieces, hcut, fun others hothers => hcut.unique hothers, ?_, fun tokens => hok, fun e => ?_⟩
  · rw [← exists_readsAll_iff 0]
    exact exists_congr fun tokens => hok
  · have herror : ofText text = .error e ↔ _ := scan_eq_error_iff hcut
    rw [herror]
    constructor
    · rintro ⟨before, piece, behind, tokens, rfl, hreads, hfault⟩
      rw [Nat.zero_add] at hfault
      -- what stands before the fault is a text of its own, cut into the same pieces
      have hbefore : ofText (String.ofList (before.flatMap Piece.chars)) = .ok tokens := by
        rw [ofText, String.toList_ofList]
        exact (scan_eq_ok_iff hcut.front).2 hreads
      exact ⟨before, piece, behind, rfl, hfault, tokens, hreads, hbefore⟩
    · rintro ⟨before, piece, behind, rfl, hfault, tokens, hreads, _⟩
      rw [← Nat.zero_add (utf8Len _)] at hfault
      exact ⟨before, piece, behind, tokens, rfl, hreads, hfault⟩

end TagFormula.Token
