import TagFormula.Decimal.Numeral
import TagFormula.Operand

/-!
# Tags

A tag is both a suggestion of the catalog and a committed unit of a formula. Its value is always one
plain token of the formula: a decimal numeral or an operand symbol.
-/

namespace TagFormula

inductive CatalogError where
  /-- The value is neither a numeral nor an operand symbol. -/
  | invalidValue (key value : String)
  /-- The label of an entry is blank. -/
  | emptyKey (value : String)
  /-- A label repeats an earlier one, letter case aside. -/
  | duplicateKey (key : String)
  /-- A word names no tag. -/
  | unknownTag (word : String)
  deriving DecidableEq, Repr

def CatalogError.message : CatalogError → String
  | invalidValue key value => s!"Invalid value '{value}' for tag '{key}': not a number or operand"
  | emptyKey value => s!"Catalog entry with value '{value}' has an empty key"
  | duplicateKey key => s!"Duplicate catalog key: {key}"
  | unknownTag word => s!"Unknown tag: {word}"

/-- A value that a tag may hold: a decimal numeral or one operand symbol. -/
def isTagValue (value : String) : Bool :=
  isNumeral value.toList || (Operand.ofChars? value.toList).isSome

/-- A value is a numeral, or one operand. -/
theorem isTagValue_iff {value : String} :
    isTagValue value = true ↔
      isNumeral value.toList = true ∨ ∃ op : Operand, value.toList = [op.toChar] := by
  rw [isTagValue, Bool.or_eq_true, Option.isSome_iff_exists]
  simp only [Operand.ofChars?_eq_some_iff]

/-- A named quantity or an operand symbol: the label that is shown and the value that is placed into
the formula. -/
structure Tag where
  key : String
  value : String
  isTagValue_value : isTagValue value = true
  deriving DecidableEq, Repr

namespace Tag

/-- The tag with a label and a value, if the value may be held. -/
def make (key value : String) : Except CatalogError Tag :=
  if h : isTagValue value then .ok ⟨key, value, h⟩ else .error (.invalidValue key value)

/-- The tag of an operand that is typed directly: its symbol is both label and value. -/
def ofOperand (op : Operand) : Tag :=
  ⟨op.symbol, op.symbol, by cases op <;> decide +kernel⟩

/-- The label itself is an operand symbol. Such a tag is drawn as the plain symbol and has no delete
control; a named alias of an operand is not one of them. -/
def isOperandLabel (tag : Tag) : Bool :=
  (Operand.ofChars? tag.key.toList).isSome

theorem make_eq_ok_iff {key value : String} {tag : Tag} :
    make key value = .ok tag ↔ tag.key = key ∧ tag.value = value := by
  constructor
  · intro h
    unfold make at h
    split at h
    · cases h; exact ⟨rfl, rfl⟩
    · cases h
  · rintro ⟨rfl, rfl⟩
    simp [make, tag.isTagValue_value]

/-- Only the value decides whether there is a tag. -/
theorem exists_make_iff {key value : String} :
    (∃ tag, make key value = .ok tag) ↔ isTagValue value = true := by
  constructor
  · rintro ⟨tag, h⟩
    rw [← (make_eq_ok_iff.1 h).2]
    exact tag.isTagValue_value
  · intro h
    exact ⟨⟨key, value, h⟩, make_eq_ok_iff.2 ⟨rfl, rfl⟩⟩

@[simp] theorem make_key_value (tag : Tag) : make tag.key tag.value = .ok tag :=
  make_eq_ok_iff.2 ⟨rfl, rfl⟩

end Tag

end TagFormula
