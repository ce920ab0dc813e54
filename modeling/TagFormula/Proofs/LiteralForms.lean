import TagFormula.Decimal.Numeral

/-!
# The forms of a literal

The spellings of number literals by rules, beside the function that reads them:

```
Literal  ::= Mantissa | Mantissa Exponent
Mantissa ::= digits | digits . | digits . digits | . digits
Exponent ::= (e|E) digits | (e|E) (+|-) digits
```

where `digits` are one or more.

* **`Literal.Mantissa`**, **`Literal.Exponent`**, **`Literal.Spells`**: the rules, with the parts that
  each form stands for.
* **`Literal.readTail?_eq_some_iff`**: what is read behind a mantissa are the exponents.
* **`Literal.read?_pointed`**, **`read?_pointless`**: how a text is read once its digits are cut off; every
  text is of one of these two shapes.
* **`Literal.read?_eq_some_iff`**: what is read are these spellings and no others.
-/

namespace TagFormula.Literal

/-! ## Spellings -/

/-- Decimal digits, and none of them is enough. -/
def Digits (cs : List Char) : Prop :=
  ∀ c ∈ cs, c.isDigit = true

/-- A mantissa, with its digits before and behind the point. -/
inductive Mantissa : List Char → (whole fraction : List Char) → Prop
  | whole {whole} (hne : whole ≠ []) (hwhole : Digits whole) : Mantissa whole whole []
  | point {whole fraction} (hne : whole ≠ []) (hwhole : Digits whole) (hfraction : Digits fraction) :
      Mantissa (whole ++ '.' :: fraction) whole fraction
  | fraction {fraction} (hne : fraction ≠ []) (hfraction : Digits fraction) :
      Mantissa ('.' :: fraction) [] fraction

/-- What may stand behind a mantissa, with the power of ten that it stands for. -/
inductive Exponent : List Char → Int → Prop
  | none : Exponent [] 0
  | unsigned {letter digits} (hletter : letter = 'e' ∨ letter = 'E') (hne : digits ≠ [])
      (hdigits : Digits digits) : Exponent (letter :: digits) (digitsValue digits)
  | plus {letter digits} (hletter : letter = 'e' ∨ letter = 'E') (hne : digits ≠ [])
      (hdigits : Digits digits) : Exponent (letter :: '+' :: digits) (digitsValue digits)
  | minus {letter digits} (hletter : letter = 'e' ∨ letter = 'E') (hne : digits ≠ [])
      (hdigits : Digits digits) : Exponent (letter :: '-' :: digits) (-digitsValue digits)

/-- The text is a spelling of the literal. -/
def Spells (cs : List Char) (l : Literal) : Prop :=
  ∃ mantissa exponent, cs = mantissa ++ exponent ∧ Mantissa mantissa l.whole l.fraction ∧
    Exponent exponent l.exponent

/-! ## Exponents -/

theorem all_isDigit_iff {cs : List Char} : cs.all Char.isDigit = true ↔ Digits cs :=
  List.all_eq_true

/-- The digits of an exponent, without its sign. -/
def readDigits? (negative : Bool) (digits : List Char) : Option Int :=
  if digits.isEmpty || !digits.all Char.isDigit then none
  else some (if negative then -(digitsValue digits : Int) else digitsValue digits)

/-- The test by which the reader refuses digits. -/
theorem isEmpty_or_not_all_iff {digits : List Char} :
    (digits.isEmpty || !digits.all Char.isDigit) = true ↔ ¬ (digits ≠ [] ∧ Digits digits) := by
  rw [Bool.or_eq_true, List.isEmpty_iff, Bool.not_eq_true', ← Bool.not_eq_true, all_isDigit_iff]
  constructor
  · rintro (hnil | hdigits) ⟨hne, h⟩
    · exact hne hnil
    · exact hdigits h
  · intro h
    by_cases hnil : digits = []
    · exact Or.inl hnil
    · exact Or.inr fun hdigits => h ⟨hnil, hdigits⟩

/-- Digits are read where there is one at least, with the sign that is handed over. -/
theorem readDigits?_eq_some_iff {negative : Bool} {digits : List Char} {value : Int} :
    readDigits? negative digits = some value ↔ (digits ≠ [] ∧ Digits digits) ∧
      (if negative then -(digitsValue digits : Int) else digitsValue digits) = value := by
  unfold readDigits?
  by_cases h : digits ≠ [] ∧ Digits digits
  · rw [if_neg fun hnot => isEmpty_or_not_all_iff.1 hnot h, Option.some.injEq]
    exact ⟨fun hvalue => ⟨h, hvalue⟩, fun hvalue => hvalue.2⟩
  · rw [if_pos (isEmpty_or_not_all_iff.2 h)]
    exact ⟨nofun, fun hvalue => absurd hvalue.1 h⟩

theorem readExponent?_minus (digits : List Char) :
    readExponent? ('-' :: digits) = readDigits? true digits := rfl

theorem readExponent?_plus (digits : List Char) :
    readExponent? ('+' :: digits) = readDigits? false digits := rfl

theorem readExponent?_unsigned {digits : List Char} (hminus : digits.head? ≠ some '-')
    (hplus : digits.head? ≠ some '+') : readExponent? digits = readDigits? false digits := by
  cases digits with
  | nil => rfl
  | cons c rest =>
    unfold readExponent?
    split
    rename_i heq
    split at heq
    · next h => cases h; exact absurd rfl hminus
    · next h => cases h; exact absurd rfl hplus
    · cases heq; rfl

/-- Read what stands behind a mantissa. -/
def readTail? : List Char → Option Int
  | [] => some 0
  | c :: rest => if c = 'e' || c = 'E' then readExponent? rest else none

theorem Digits.not_mem {digits : List Char} (h : Digits digits) {c : Char} (hc : c.isDigit = false) :
    c ∉ digits := by
  intro hmem
  rw [h c hmem] at hc
  cases hc

/-- Digits do not begin with a sign. -/
theorem Digits.head?_ne {digits : List Char} (h : Digits digits) {c : Char}
    (hc : c.isDigit = false) : digits.head? ≠ some c :=
  fun hhead => h.not_mem hc (List.mem_of_head? hhead)

/-- An exponent is written behind one of two letters. -/
theorem readTail?_letter {letter : Char} (h : letter = 'e' ∨ letter = 'E') (rest : List Char) :
    readTail? (letter :: rest) = readExponent? rest := by
  rcases h with rfl | rfl <;> rfl

theorem readTail?_other {c : Char} (h : ¬ (c = 'e' ∨ c = 'E')) (rest : List Char) :
    readTail? (c :: rest) = none := by
  show (if (decide (c = 'e') || decide (c = 'E')) = true then _ else _) = _
  rw [if_neg (by simpa using h)]

theorem readTail?_of_exponent {cs : List Char} {value : Int} (h : Exponent cs value) :
    readTail? cs = some value := by
  cases h with
  | none => rfl
  | unsigned hletter hne hdigits =>
    rw [readTail?_letter hletter,
      readExponent?_unsigned (hdigits.head?_ne rfl) (hdigits.head?_ne rfl)]
    exact readDigits?_eq_some_iff.2 ⟨⟨hne, hdigits⟩, rfl⟩
  | plus hletter hne hdigits =>
    rw [readTail?_letter hletter, readExponent?_plus]
    exact readDigits?_eq_some_iff.2 ⟨⟨hne, hdigits⟩, rfl⟩
  | minus hletter hne hdigits =>
    rw [readTail?_letter hletter, readExponent?_minus]
    exact readDigits?_eq_some_iff.2 ⟨⟨hne, hdigits⟩, rfl⟩

/-- What is read as an exponent is written as one. -/
theorem exponent_of_readTail? {cs : List Char} {value : Int} (h : readTail? cs = some value) :
    Exponent cs value := by
  cases cs with
  | nil =>
    cases h
    exact .none
  | cons letter rest =>
    by_cases hletter : letter = 'e' ∨ letter = 'E'
    · rw [readTail?_letter hletter] at h
      by_cases hminus : rest.head? = some '-'
      · obtain ⟨digits, rfl⟩ := List.head?_eq_some_iff.1 hminus
        rw [readExponent?_minus] at h
        obtain ⟨⟨hne, hdigits⟩, rfl⟩ := readDigits?_eq_some_iff.1 h
        exact .minus hletter hne hdigits
      · by_cases hplus : rest.head? = some '+'
        · obtain ⟨digits, rfl⟩ := List.head?_eq_some_iff.1 hplus
          rw [readExponent?_plus] at h
          obtain ⟨⟨hne, hdigits⟩, rfl⟩ := readDigits?_eq_some_iff.1 h
          exact .plus hletter hne hdigits
        · -- no sign
          rw [readExponent?_unsigned hminus hplus] at h
          obtain ⟨⟨hne, hdigits⟩, rfl⟩ := readDigits?_eq_some_iff.1 h
          exact .unsigned hletter hne hdigits
    · rw [readTail?_other hletter] at h
      cases h

theorem readTail?_eq_some_iff {cs : List Char} {value : Int} :
    readTail? cs = some value ↔ Exponent cs value :=
  ⟨exponent_of_readTail?, readTail?_of_exponent⟩

/-! ## Mantissas

A mantissa ends before the first character that is neither a digit nor its only point. -/

/-- The text does not go on with a digit. -/
def NoDigit (cs : List Char) : Prop :=
  ∀ c ∈ cs.head?, c.isDigit = false

/-- The reader takes the digits up to the first other character. -/
theorem takeWhile_digits {digits rest : List Char} (hdigits : Digits digits) (hrest : NoDigit rest) :
    (digits ++ rest).takeWhile Char.isDigit = digits := by
  have hstop : rest.takeWhile Char.isDigit = [] := by
    cases rest with
    | nil => rfl
    | cons c more => simp [hrest c rfl]
  rw [List.takeWhile_append_of_pos hdigits, hstop, List.append_nil]

theorem dropWhile_digits {digits rest : List Char} (hdigits : Digits digits) (hrest : NoDigit rest) :
    (digits ++ rest).dropWhile Char.isDigit = rest := by
  rw [List.dropWhile_append_of_pos hdigits]
  cases rest with
  | nil => rfl
  | cons c more => simp [hrest c rfl]

/-- Every text is some digits and a rest that does not go on with one. -/
theorem exists_digits (cs : List Char) :
    ∃ digits rest, cs = digits ++ rest ∧ Digits digits ∧ NoDigit rest := by
  refine ⟨cs.takeWhile Char.isDigit, cs.dropWhile Char.isDigit,
    List.takeWhile_append_dropWhile.symm, all_isDigit_iff.1 List.all_takeWhile, ?_⟩
  intro c hc
  have hnot := List.head?_dropWhile_not Char.isDigit cs
  rw [hc] at hnot
  simpa using hnot

/-- What is read when the digits of a mantissa are known. -/
def readWith (whole fraction rest : List Char) : Option Literal :=
  if whole.isEmpty && fraction.isEmpty then none
  else (readTail? rest).map (⟨whole, fraction, ·⟩)

/-- A number with a point, cut where the reader cuts it. -/
theorem read?_pointed {whole fraction rest : List Char} (hwhole : Digits whole)
    (hfraction : Digits fraction) (hrest : NoDigit rest) :
    read? (whole ++ '.' :: (fraction ++ rest)) = readWith whole fraction rest := by
  have hpoint : NoDigit ('.' :: (fraction ++ rest)) := by
    rintro c ⟨⟩
    rfl
  unfold read? readWith readTail?
  simp only [takeWhile_digits hwhole hpoint, dropWhile_digits hwhole hpoint,
    takeWhile_digits hfraction hrest, dropWhile_digits hfraction hrest]
  cases rest with
  | nil => rfl
  | cons c more =>
    by_cases hletter : (decide (c = 'e') || decide (c = 'E')) = true
    · simp only [hletter, if_true]
    · simp only [hletter, if_false, Bool.false_eq_true, Option.map_none]

theorem read?_pointless {whole rest : List Char} (hwhole : Digits whole) (hrest : NoDigit rest)
    (hpoint : rest.head? ≠ some '.') : read? (whole ++ rest) = readWith whole [] rest := by
  unfold read? readWith readTail?
  simp only [takeWhile_digits hwhole hrest, dropWhile_digits hwhole hrest]
  cases rest with
  | nil => rfl
  | cons c more =>
    have hc : c ≠ '.' := fun h => hpoint (congrArg some h)
    by_cases hletter : (decide (c = 'e') || decide (c = 'E')) = true
    · simp [hc, hletter]
    · simp [hc, hletter]

/-- Behind the digits only the exponent is left, and there must be a digit on one side of the point. -/
theorem readWith_eq_some_iff {whole fraction rest : List Char} {l : Literal} :
    readWith whole fraction rest = some l ↔ (whole ≠ [] ∨ fraction ≠ []) ∧
      l.whole = whole ∧ l.fraction = fraction ∧ Exponent rest l.exponent := by
  unfold readWith
  by_cases hempty : whole = [] ∧ fraction = []
  · obtain ⟨rfl, rfl⟩ := hempty
    exact ⟨nofun, fun h => absurd h.1 (by simp)⟩
  · have hdigits : whole ≠ [] ∨ fraction ≠ [] := by
      by_cases hwhole : whole = []
      · exact Or.inr fun hfraction => hempty ⟨hwhole, hfraction⟩
      · exact Or.inl hwhole
    rw [if_neg (by simpa using hempty), Option.map_eq_some_iff]
    constructor
    · rintro ⟨value, hvalue, rfl⟩
      exact ⟨hdigits, rfl, rfl, readTail?_eq_some_iff.1 hvalue⟩
    · obtain ⟨w, f, e⟩ := l
      rintro ⟨_, rfl, rfl, hexponent⟩
      exact ⟨e, readTail?_eq_some_iff.2 hexponent, rfl⟩

/-! ## Literals -/

/-- A point with digits on one of its sides. -/
theorem Mantissa.of_point {whole fraction : List Char} (hne : whole ≠ [] ∨ fraction ≠ [])
    (hwhole : Digits whole) (hfraction : Digits fraction) :
    Mantissa (whole ++ '.' :: fraction) whole fraction := by
  by_cases hnil : whole = []
  · -- a point in front needs digits behind it
    rw [hnil, List.nil_append]
    exact .fraction (hne.resolve_left (absurd hnil)) hfraction
  · exact .point hnil hwhole hfraction

/-- What is read has one of the written forms. -/
theorem spells_of_read? {cs : List Char} {l : Literal} (h : read? cs = some l) : Spells cs l := by
  obtain ⟨whole, rest, rfl, hwhole, hrest⟩ := exists_digits cs
  by_cases hpoint : rest.head? = some '.'
  · obtain ⟨behind, rfl⟩ := List.head?_eq_some_iff.1 hpoint
    obtain ⟨fraction, tail, rfl, hfraction, htail⟩ := exists_digits behind
    rw [read?_pointed hwhole hfraction htail] at h
    obtain ⟨hne, rfl, rfl, hexponent⟩ := readWith_eq_some_iff.1 h
    exact ⟨l.whole ++ '.' :: l.fraction, tail, by simp, .of_point hne hwhole hfraction, hexponent⟩
  · rw [read?_pointless hwhole hrest hpoint] at h
    obtain ⟨hne, rfl, hnil, hexponent⟩ := readWith_eq_some_iff.1 h
    refine ⟨l.whole, rest, rfl, ?_, hexponent⟩
    rw [hnil]
    exact .whole (hne.resolve_right (absurd rfl)) hwhole

/-- An exponent begins with its letter. -/
theorem Exponent.head?_letter {cs : List Char} {value : Int} (h : Exponent cs value) {c : Char}
    (hc : cs.head? = some c) : c = 'e' ∨ c = 'E' := by
  cases h with
  | none => cases hc
  | unsigned hletter | plus hletter | minus hletter =>
    cases hc
    exact hletter

/-- An exponent does not start with a digit, so the digits before it end there. -/
theorem Exponent.noDigit {cs : List Char} {value : Int} (h : Exponent cs value) : NoDigit cs := by
  intro c hc
  rcases h.head?_letter hc with rfl | rfl <;> rfl

theorem Exponent.head?_ne_point {cs : List Char} {value : Int} (h : Exponent cs value) :
    cs.head? ≠ some '.' := by
  intro hc
  rcases h.head?_letter hc with hletter | hletter <;> cases hletter

/-- What has a written form is read, with the parts of the form. -/
theorem read?_of_spells {cs : List Char} {l : Literal} (h : Spells cs l) : read? cs = some l := by
  obtain ⟨w, f, e⟩ := l
  obtain ⟨mantissa, exponent, rfl, hmantissa, hexponent⟩ := h
  simp only at hmantissa hexponent
  cases hmantissa with
  | whole hne hwhole =>
    rw [read?_pointless hwhole hexponent.noDigit hexponent.head?_ne_point]
    exact readWith_eq_some_iff.2 ⟨Or.inl hne, rfl, rfl, hexponent⟩
  | point hne hwhole hfraction =>
    rw [List.append_assoc, List.cons_append, read?_pointed hwhole hfraction hexponent.noDigit]
    exact readWith_eq_some_iff.2 ⟨Or.inl hne, rfl, rfl, hexponent⟩
  | fraction hne hfraction =>
    have hread := @read?_pointed [] _ _ nofun hfraction hexponent.noDigit
    rw [List.nil_append] at hread
    rw [List.cons_append, hread]
    exact readWith_eq_some_iff.2 ⟨Or.inr hne, rfl, rfl, hexponent⟩

/-- What is read as a literal are the spellings of it. -/
theorem read?_eq_some_iff {cs : List Char} {l : Literal} : read? cs = some l ↔ Spells cs l :=
  ⟨spells_of_read?, read?_of_spells⟩

end TagFormula.Literal
