import Mathlib.Data.List.TakeWhile
import Mathlib.Data.String.Basic
import TagFormula.Expression.Lexer
import TagFormula.Proofs.LiteralForms

/-!
# Reading a text piece by piece

A blank ends whatever stands before it, so a text with a blank in it is read as two texts. A numeral
with nothing behind it is one run of number characters, and it is read as one number.

* **`Token.scan_blank`**, **`scan_operand`**, **`scan_run`**, **`scan_unknown`**: the first character
  of a text decides how it is read. The kinds of characters exclude each other.
* **`Token.scan_append_blank`**: first the tokens of the text before a blank, then those of the text
  behind it.
* **`Literal.spells_of_isNumeral`**, **`Token.scan_numeral`**: a numeral is a literal without an
  exponent.
-/

namespace TagFormula

open String (utf8Len)

/-! ## Kinds of characters -/

theorem toNat_of_isDigit {c : Char} (h : c.isDigit = true) : 48 ≤ c.toNat ∧ c.toNat ≤ 57 :=
  Char.isDigit_iff_toNat.1 h

/-- Numbers are written with characters of one byte, so that positions in them are easy. -/
theorem utf8Size_of_isDigit {c : Char} (h : c.isDigit = true) : c.utf8Size = 1 := by
  have hrange := toNat_of_isDigit h
  have hascii : c.toNat ≤ 127 := by omega
  exact Char.utf8Size_eq_one_iff.2 (UInt32.le_iff_toNat_le.2 hascii)

theorem not_isBlank_of_isDigit {c : Char} (h : c.isDigit = true) : Text.isBlank c = false := by
  have hrange := toNat_of_isDigit h
  simp only [Text.isBlank, Text.blankRanges, Text.inRanges_cons, Text.inRanges_nil,
    Bool.or_false, Bool.or_eq_false_iff, Bool.and_eq_false_iff, decide_eq_false_iff_not]
  omega

@[simp] theorem Operand.utf8Size_toChar (op : Operand) : op.toChar.utf8Size = 1 := by
  cases op <;> rfl

@[simp] theorem Operand.isBlank_toChar (op : Operand) : Text.isBlank op.toChar = false := by
  cases op <;> rfl

namespace Token

/-- The characters that a number can start with. -/
theorem startsNumber_iff {c : Char} : startsNumber c = true ↔ c.isDigit = true ∨ c = '.' := by
  rw [startsNumber, Bool.or_eq_true, decide_eq_true_eq]

/-- The characters that a number can go on with. A sign is one of them behind the letter of an exponent
only. -/
theorem continuesNumber_iff {last c : Char} :
    continuesNumber last c = true ↔ c.isDigit = true ∨ c = '.' ∨ c = 'e' ∨ c = 'E' ∨
      (c = '+' ∨ c = '-') ∧ (last = 'e' ∨ last = 'E') := by
  simp only [continuesNumber, Bool.or_eq_true, Bool.and_eq_true, decide_eq_true_eq, or_assoc]

/-- What starts a number is not blank and no operand symbol. -/
theorem not_isBlank_of_startsNumber {c : Char} (h : startsNumber c = true) :
    Text.isBlank c = false := by
  rcases startsNumber_iff.1 h with hdigit | rfl
  · exact not_isBlank_of_isDigit hdigit
  · rfl

/-- A run goes on with everything that could start one. -/
theorem continuesNumber_of_startsNumber {c : Char} (h : startsNumber c = true) (last : Char) :
    continuesNumber last c = true := by
  rcases startsNumber_iff.1 h with hdigit | rfl
  · exact continuesNumber_iff.2 (Or.inl hdigit)
  · rfl

/-- No character starts both a number and an operand. -/
theorem ofChar?_of_startsNumber {c : Char} (h : startsNumber c = true) :
    Operand.ofChar? c = none := by
  cases hop : Operand.ofChar? c with
  | none => rfl
  | some op =>
    rw [Operand.ofChar?_eq_some_iff.1 hop] at h
    cases op <;> cases h

theorem utf8Size_of_continuesNumber {last c : Char} (h : continuesNumber last c = true) :
    c.utf8Size = 1 := by
  rcases continuesNumber_iff.1 h with hdigit | rfl | rfl | rfl | ⟨rfl | rfl, _⟩
  · exact utf8Size_of_isDigit hdigit
  all_goals rfl

/-- A blank ends every number. -/
theorem not_continuesNumber_of_isBlank {c : Char} (h : Text.isBlank c = true) (last : Char) :
    continuesNumber last c = false := by
  rw [Bool.eq_false_iff]
  intro hcontinues
  rcases continuesNumber_iff.1 hcontinues with hdigit | rfl | rfl | rfl | ⟨rfl | rfl, _⟩
  · rw [not_isBlank_of_isDigit hdigit] at h
    cases h
  all_goals cases h

/-! ## The first character -/

variable {position : Nat} {c : Char} {rest : List Char}

@[simp] theorem scan_nil : scan position [] = .ok [] := by
  rw [scan]

theorem scan_blank (h : Text.isBlank c = true) :
    scan position (c :: rest) = scan (position + c.utf8Size) rest := by
  rw [scan, if_pos h]

/-- An operand is a token of one character. -/
theorem scan_operand (op : Operand) :
    scan position (op.toChar :: rest) =
      (scan (position + 1) rest).map (⟨.operand op, position⟩ :: ·) := by
  rw [scan, if_neg (by simp), Operand.ofChar?_toChar, Operand.utf8Size_toChar]

/-- A run is one token, if it is a literal. -/
theorem scan_run (h : startsNumber c = true) :
    scan position (c :: rest) =
      match Literal.read? (c :: (splitRun c rest).1) with
      | none => .error (.invalidNumber (String.ofList (c :: (splitRun c rest).1)) position)
      | some literal =>
        (scan (position + (c :: (splitRun c rest).1).length) (splitRun c rest).2).map
          (⟨.number literal.value, position⟩ :: ·) := by
  rw [scan, if_neg (by rw [not_isBlank_of_startsNumber h]; decide), ofChar?_of_startsNumber h]
  exact if_pos h

/-- A character that starts no token ends the reading. -/
theorem scan_unknown (hblank : Text.isBlank c = false) (hop : Operand.ofChar? c = none)
    (hstart : startsNumber c = false) :
    scan position (c :: rest) = .error (.unknownCharacter c position) := by
  rw [scan, if_neg (by rw [hblank]; decide), hop]
  exact if_neg (by rw [hstart]; decide)

/-! ## A blank in the text -/

/-- What stands behind a blank does not change the run before it. -/
theorem splitRun_append_blank {blank : Char} (h : Text.isBlank blank = true) (last : Char)
    (cs after : List Char) :
    splitRun last (cs ++ blank :: after) =
      ((splitRun last cs).1, (splitRun last cs).2 ++ blank :: after) := by
  induction cs generalizing last with
  | nil => simp [splitRun, not_continuesNumber_of_isBlank h]
  | cons c rest ih =>
    rw [List.cons_append, splitRun, splitRun, ih]
    split <;> rfl

/-- The characters of a run have one byte each, so its length in bytes is its length. -/
theorem utf8Len_splitRun (last : Char) (cs : List Char) :
    utf8Len cs = (splitRun last cs).1.length + utf8Len (splitRun last cs).2 := by
  induction cs generalizing last with
  | nil => rfl
  | cons c rest ih =>
    rw [splitRun]
    split
    · next hcontinues =>
      show utf8Len rest + c.utf8Size = (splitRun c rest).1.length + 1 + utf8Len (splitRun c rest).2
      rw [utf8Size_of_continuesNumber hcontinues, ih c]
      omega
    · simp

/-- A token in front of two readings is in front of the first one. -/
theorem map_cons_bind {ε : Type} (first : Token Float) (front back : Except ε (List (Token Float))) :
    ((front.map (first :: ·)).bind fun tokens => back.map (tokens ++ ·)) =
      (front.bind fun tokens => back.map (tokens ++ ·)).map (first :: ·) := by
  cases front with
  | error e => rfl
  | ok tokens => cases back <;> rfl

/-- A blank parts a text: what stands before it is read as if nothing followed, and what follows it
is read from its own position on. -/
theorem scan_append_blank {blank : Char} (h : Text.isBlank blank = true) (position : Nat)
    (before after : List Char) :
    scan position (before ++ blank :: after) =
      (scan position before).bind fun tokens =>
        (scan (position + utf8Len before + blank.utf8Size) after).map (tokens ++ ·) := by
  -- along the recursion of `scan`: what the first character decides, it decides in both texts
  fun_induction scan position before with
  | case1 position =>
    rw [List.nil_append, scan_blank h]
    show _ = (scan (position + blank.utf8Size) after).map id
    cases scan (position + blank.utf8Size) after <;> rfl
  | case2 position c rest hblank ih =>
    have hposition : position + utf8Len (c :: rest) = position + c.utf8Size + utf8Len rest := by
      rw [String.utf8Len_cons]
      omega
    rw [List.cons_append, scan_blank hblank, ih, hposition]
  | case3 position c rest hblank op hop ih =>
    obtain rfl := Operand.ofChar?_eq_some_iff.1 hop
    have hposition : position + utf8Len (op.toChar :: rest) = position + 1 + utf8Len rest := by
      rw [String.utf8Len_cons, Operand.utf8Size_toChar]
      omega
    rw [Operand.utf8Size_toChar] at ih ⊢
    rw [List.cons_append, scan_operand, ih, map_cons_bind, hposition]
  | case4 position c rest hblank hop hstart run hread =>
    -- the run ends before the blank, so it is no literal here either
    rw [List.cons_append, scan_run hstart, splitRun_append_blank h, hread]
    rfl
  | case5 position c rest hblank hop hstart run literal hread ih =>
    -- `scan` counts the characters of a run, which are as many as its bytes
    have hposition : position + utf8Len (c :: rest) =
        position + run.length + utf8Len (splitRun c rest).2 := by
      rw [String.utf8Len_cons, utf8Size_of_continuesNumber (continuesNumber_of_startsNumber hstart c),
        utf8Len_splitRun c rest]
      show _ = position + ((splitRun c rest).1.length + 1) + utf8Len (splitRun c rest).2
      omega
    rw [List.cons_append, scan_run hstart, splitRun_append_blank h, hread, map_cons_bind, hposition,
      ← ih]
  | case6 position c rest hblank hop hstart =>
    rw [List.cons_append, scan_unknown (by simpa using hblank) hop (by simpa using hstart)]
    rfl

end Token

/-! ## Numerals -/

/-- The double nearest to a numeral: to the number its digits form without the point, moved by as
many places as there are digits behind the point. -/
def numeralValue (cs : List Char) : Float :=
  Double.ofDecimal (digitsValue ((splitPoint cs).1 ++ (splitPoint cs).2)) (-(splitPoint cs).2.length)

/-- A text is what stands before its first point, the point, and what stands behind it. -/
theorem splitPoint_cases (cs : List Char) :
    cs = (splitPoint cs).1 ∧ (splitPoint cs).2 = [] ∨
      cs = (splitPoint cs).1 ++ '.' :: (splitPoint cs).2 := by
  have happend := List.takeWhile_append_dropWhile (p := fun c => decide (c ≠ '.')) (l := cs)
  rw [splitPoint]
  cases hrest : cs.dropWhile (fun c => decide (c ≠ '.')) with
  | nil =>
    rw [hrest, List.append_nil] at happend
    exact Or.inl ⟨happend.symm, rfl⟩
  | cons c fraction =>
    have hpoint := List.head?_dropWhile_not (fun c => decide (c ≠ '.')) cs
    rw [hrest] at hpoint happend
    obtain rfl : c = '.' := by simpa using hpoint
    exact Or.inr happend.symm

/-- The parts of a numeral are digits, and there is a digit in one of them. -/
theorem isNumeral_iff {cs : List Char} :
    isNumeral cs = true ↔
      ((splitPoint cs).1 ≠ [] ∨ (splitPoint cs).2 ≠ []) ∧
        (∀ c ∈ (splitPoint cs).1, c.isDigit = true) ∧
        ∀ c ∈ (splitPoint cs).2, c.isDigit = true := by
  simp [isNumeral, and_assoc]

/-- A numeral has no exponent. -/
theorem isDigit_or_point_of_isNumeral {cs : List Char} (h : isNumeral cs = true) {c : Char}
    (hc : c ∈ cs) : c.isDigit = true ∨ c = '.' := by
  obtain ⟨_, hwhole, hfraction⟩ := isNumeral_iff.1 h
  rcases splitPoint_cases cs with ⟨heq, _⟩ | heq
  · rw [heq] at hc
    exact Or.inl (hwhole c hc)
  · rw [heq] at hc
    rcases List.mem_append.1 hc with hc | hc
    · exact Or.inl (hwhole c hc)
    · rcases List.mem_cons.1 hc with rfl | hc
      · exact Or.inr rfl
      · exact Or.inl (hfraction c hc)

namespace Literal

/-- A numeral is a literal without an exponent. -/
theorem spells_of_isNumeral {cs : List Char} (h : isNumeral cs = true) :
    Spells cs ⟨(splitPoint cs).1, (splitPoint cs).2, 0⟩ := by
  obtain ⟨hne, hwhole, hfraction⟩ := isNumeral_iff.1 h
  refine ⟨cs, [], (List.append_nil cs).symm, ?_, .none⟩
  show Mantissa cs (splitPoint cs).1 (splitPoint cs).2
  rcases splitPoint_cases cs with ⟨heq, hnil⟩ | heq
  · rw [hnil, ← heq]
    rw [← heq] at hwhole hne
    exact .whole (hne.resolve_right (absurd hnil)) hwhole
  · have hmantissa := Mantissa.of_point hne hwhole hfraction
    rw [← heq] at hmantissa
    exact hmantissa

end Literal

namespace Token

theorem splitRun_eq_self {cs : List Char} (h : ∀ c ∈ cs, c.isDigit = true ∨ c = '.') (last : Char) :
    splitRun last cs = (cs, []) := by
  induction cs generalizing last with
  | nil => rfl
  | cons c rest ih =>
    have hcontinues : continuesNumber last c = true :=
      continuesNumber_of_startsNumber (startsNumber_iff.2 (h c List.mem_cons_self)) last
    rw [splitRun, if_pos hcontinues, ih fun d hd => h d (List.mem_cons_of_mem c hd)]

/-- A numeral with nothing behind it is one number. -/
theorem scan_numeral {cs : List Char} (h : isNumeral cs = true) (position : Nat) :
    scan position cs = .ok [⟨.number (numeralValue cs), position⟩] := by
  have hread := Literal.read?_eq_some_iff.2 (Literal.spells_of_isNumeral h)
  have hkind {c : Char} (hc : c ∈ cs) := isDigit_or_point_of_isNumeral h hc
  cases cs with
  | nil => cases h
  | cons c rest =>
    have hstart : startsNumber c = true := startsNumber_iff.2 (hkind List.mem_cons_self)
    -- nothing of the numeral is left behind its run
    have hrun : splitRun c rest = (rest, []) :=
      splitRun_eq_self (fun d hd => hkind (List.mem_cons_of_mem c hd)) c
    have hvalue : Literal.value ⟨(splitPoint (c :: rest)).1, (splitPoint (c :: rest)).2, 0⟩ =
        numeralValue (c :: rest) := by
      rw [Literal.value, Int.zero_sub]
      rfl
    rw [scan_run hstart, hrun, hread]
    simp only [scan_nil, hvalue]
    rfl

end Token

end TagFormula
