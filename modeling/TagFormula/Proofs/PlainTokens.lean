import TagFormula.Proofs.FormulaText
import TagFormula.Proofs.LexicalGrammar

/-!
# Values are plain tokens

The value of a tag is checked without the reader of formulas: it is one symbol, or digits, at least one,
stand before and behind its first point and nothing else. The reader cuts off the longest run it can
and only then asks whether it is a number. Both accept the same texts, as long as these are one plain
token: without blanks, and with none of the letters that an exponent begins with.

* **`Literal.isNumeral_iff_spells`**: the numerals are the literals without such a letter.
* **`Token.ReadsAll.length_eq`**: without blanks there are as many tokens as pieces.
* **`Token.scan_eq_singleton`**: so a text that is read as one token is one piece.
* **`Tag.make_ok_iff_plain_token`**: what a tag may hold.
-/

namespace TagFormula

/-! ## Numerals -/

theorem ne_point_of_not_mem {cs : List Char} (h : '.' ∉ cs) : ∀ c ∈ cs, decide (c ≠ '.') = true := by
  intro c hc
  exact decide_eq_true fun heq => h (heq ▸ hc)

/-- The first point splits a numeral. -/
theorem splitPoint_point {whole fraction : List Char} (h : '.' ∉ whole) :
    splitPoint (whole ++ '.' :: fraction) = (whole, fraction) := by
  have hne := ne_point_of_not_mem h
  rw [splitPoint, List.takeWhile_append_of_pos hne, List.dropWhile_append_of_pos hne]
  simp

theorem splitPoint_pointless {cs : List Char} (h : '.' ∉ cs) : splitPoint cs = (cs, []) := by
  have hne := ne_point_of_not_mem h
  rw [splitPoint, List.takeWhile_eq_self_iff.2 hne, List.dropWhile_eq_nil_iff.2 hne]
  rfl

namespace Literal

/-- The digits of a number, as the check of a numeral sees them. -/
theorem Mantissa.isNumeral {cs whole fraction : List Char} (h : Mantissa cs whole fraction) :
    isNumeral cs = true := by
  rw [isNumeral_iff]
  cases h with
  | whole hne hwhole =>
    rw [splitPoint_pointless (hwhole.not_mem rfl)]
    exact ⟨Or.inl hne, hwhole, nofun⟩
  | point hne hwhole hfraction =>
    rw [splitPoint_point (hwhole.not_mem rfl)]
    exact ⟨Or.inl hne, hwhole, hfraction⟩
  | fraction hne hfraction =>
    rw [← List.nil_append ('.' :: _), splitPoint_point List.not_mem_nil]
    exact ⟨Or.inr hne, nofun, hfraction⟩

/-- Without its letter there is no exponent. -/
theorem Exponent.eq_nil {cs : List Char} {value : Int} (h : Exponent cs value)
    (hletters : ∀ c ∈ cs, c ≠ 'e' ∧ c ≠ 'E') : cs = [] := by
  cases hcs : cs.head? with
  | none => exact List.head?_eq_none_iff.1 hcs
  | some c =>
    obtain ⟨hlower, hupper⟩ := hletters c (List.mem_of_head? hcs)
    rcases h.head?_letter hcs with heq | heq
    · exact absurd heq hlower
    · exact absurd heq hupper

/-- A numeral is a number that is written without an exponent. -/
theorem isNumeral_iff_spells {cs : List Char} :
    isNumeral cs = true ↔ (∀ c ∈ cs, c ≠ 'e' ∧ c ≠ 'E') ∧ ∃ l, Spells cs l := by
  constructor
  · intro h
    refine ⟨fun c hc => ?_, _, spells_of_isNumeral h⟩
    rcases isDigit_or_point_of_isNumeral h hc with hdigit | rfl
    · constructor
      · rintro rfl
        cases hdigit
      · rintro rfl
        cases hdigit
    · decide
  · rintro ⟨hletters, l, mantissa, exponent, rfl, hmantissa, hexponent⟩
    have hnil : exponent = [] :=
      hexponent.eq_nil fun c hc => hletters c (List.mem_append_right mantissa hc)
    rw [hnil, List.append_nil]
    exact hmantissa.isNumeral

end Literal

namespace Token

/-! ## Texts of one token -/

/-- A piece that is read and is not blank is one token. -/
theorem Piece.Reads.length_eq {piece : Piece} {position : Nat} {tokens : List (Token Float)}
    (h : piece.Reads position tokens) (hblank : ∀ c, piece ≠ .blank c) : tokens.length = 1 := by
  cases h with
  | @blank c => exact absurd rfl (hblank c)
  | operand | run => rfl

theorem ReadsAll.length_eq {position : Nat} {pieces : List Piece} {tokens : List (Token Float)}
    (h : ReadsAll position pieces tokens) (hblank : ∀ piece ∈ pieces, ∀ c, piece ≠ .blank c) :
    tokens.length = pieces.length := by
  induction h with
  | nil => rfl
  | cons hfirst _ ih =>
    rw [List.forall_mem_cons] at hblank
    rw [List.length_append, hfirst.length_eq hblank.1, ih hblank.2, List.length_cons, Nat.add_comm]

/-- A text without blanks is cut into pieces that are not blank. -/
theorem Cut.ne_blank {text : List Char} {pieces : List Piece} (h : Cut text pieces)
    (hblank : ∀ c ∈ text, Text.isBlank c = false) : ∀ piece ∈ pieces, ∀ c, piece ≠ .blank c := by
  induction h with
  | nil => exact nofun
  | cons hfirst _ ih =>
    rw [List.forall_mem_append] at hblank
    refine List.forall_mem_cons.2 ⟨?_, ih hblank.2⟩
    rintro c rfl
    cases hfirst with
    | blank hc =>
      rw [hblank.1 c List.mem_cons_self] at hc
      cases hc

/-- What is read as one token is one symbol or one literal. -/
theorem scan_eq_singleton {position : Nat} {text : List Char} {token : Token Float}
    (hblank : ∀ c ∈ text, Text.isBlank c = false) (h : scan position text = .ok [token]) :
    (∃ op : Operand, text = [op.toChar]) ∨ ∃ l, Literal.Spells text l := by
  obtain ⟨pieces, hcut⟩ := Cut.exists_pieces text
  have hreads : ReadsAll position pieces [token] := (scan_eq_ok_iff hcut).1 h
  obtain ⟨piece, rfl⟩ : ∃ piece, pieces = [piece] :=
    List.length_eq_one_iff.1 (hreads.length_eq (hcut.ne_blank hblank)).symm
  have htext : piece.chars = text := by
    rw [← hcut.flatMap_chars, List.flatMap_singleton]
  have hlexeme : piece.IsLexeme := (exists_readsAll_iff position).1 ⟨_, hreads⟩ piece List.mem_cons_self
  rw [← htext]
  cases piece with
  | blank c => exact absurd rfl (hcut.ne_blank hblank _ List.mem_cons_self c)
  | operand op => exact Or.inl ⟨op, rfl⟩
  | run cs => exact Or.inr hlexeme
  | unknown c => exact hlexeme.elim

end Token

namespace Tag

/-- The characters that the check of a value refuses. -/
theorem plain_of_isTagValue {value : String} (h : isTagValue value = true) :
    ∀ c ∈ value.toList, Text.isBlank c = false ∧ c ≠ 'e' ∧ c ≠ 'E' := by
  intro c hc
  rcases isTagValue_iff.1 h with hnumeral | ⟨op, hop⟩
  · refine ⟨?_, (Literal.isNumeral_iff_spells.1 hnumeral).1 c hc⟩
    have hstart := Token.startsNumber_iff.2 (isDigit_or_point_of_isNumeral hnumeral hc)
    exact Token.not_isBlank_of_startsNumber hstart
  · rw [hop, List.mem_singleton] at hc
    rw [hc]
    cases op <;> decide

/-- **A tag may hold exactly the texts that are one plain token**: a text without blanks and without the
letters `e` and `E` that is read as one token. -/
theorem make_ok_iff_plain_token (key value : String) :
    (∃ tag, make key value = .ok tag) ↔
      (∀ c ∈ value.toList, Text.isBlank c = false ∧ c ≠ 'e' ∧ c ≠ 'E') ∧
        ∃ token, Token.ofText value = .ok [token] := by
  constructor
  · rintro ⟨tag, h⟩
    obtain ⟨-, rfl⟩ := make_eq_ok_iff.1 h
    exact ⟨plain_of_isTagValue tag.isTagValue_value, _, Token.scan_value tag 0⟩
  · rintro ⟨hplain, token, htoken⟩
    rw [exists_make_iff, isTagValue_iff]
    rcases Token.scan_eq_singleton (fun c hc => (hplain c hc).1) htoken with hop | hliteral
    · exact Or.inr hop
    · exact Or.inl (Literal.isNumeral_iff_spells.2 ⟨fun c hc => (hplain c hc).2, hliteral⟩)

end Tag

end TagFormula
