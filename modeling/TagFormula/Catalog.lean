import TagFormula.Tag
import TagFormula.Text.Blank
import TagFormula.Text.LowerCase

/-!
# The catalog

The ordered list of tags that are suggested while a formula is composed. It does not change once it
is built, and its order decides between suggestions that match equally.
-/

namespace TagFormula

/-- The suggestions, in the order in which they are declared. -/
structure Catalog where
  entries : List Tag
  deriving DecidableEq, Repr

namespace Catalog

/-- Check the entries that follow those with the lower-cased labels `seen`, and build their tags. Of
two faults the earlier entry's counts, and in one entry a blank label before a repeated one before
the value. -/
def checkEntries (seen : List String) : List (String × String) → Except CatalogError (List Tag)
  | [] => .ok []
  | (key, value) :: rest =>
    let label := Text.lowerCase key
    if key.toList.all Text.isBlank then .error (.emptyKey value)
    else if label ∈ seen then .error (.duplicateKey key)
    else
      match Tag.make key value with
      | .error e => .error e
      | .ok tag => (checkEntries (label :: seen) rest).map (tag :: ·)

/-- The catalog with the given labels and values: no label is blank, no two are equal but for letter
case, and every value is one that a tag may hold. -/
def ofEntries (entries : List (String × String)) : Except CatalogError Catalog :=
  (checkEntries [] entries).map (⟨·⟩)

def referenceEntries : List (String × String) :=
  [("Payment Processing Fees", "1000"), ("Payroll Bonus G&A", "2000"), ("SUM", "+"),
    ("Salary Increase Month", "3000"), ("Bonus Payout Month", "4000"),
    ("Health Insurance Expense", "5000"), ("Health Insurance per Employee", "6000"),
    ("COGS Headcount", "7000"), ("Contractors G&A", "8000"), ("Gross Margin %", "9000"),
    ("S&M Headcount", "10000")]

/-- The built-in catalog, used where no settings replace it. -/
def reference : Catalog :=
  ⟨referenceEntries.filterMap fun (key, value) => (Tag.make key value).toOption⟩

/-- The entry with a given label, letter case aside. -/
def find? (catalog : Catalog) (key : String) : Option Tag :=
  let label := Text.lowerCase key
  catalog.entries.find? fun tag => Text.lowerCase tag.key = label

/-- The tag that a word names: an operand symbol, the label of an entry, or a numeral, which is its
own label. -/
def resolve (catalog : Catalog) (word : String) : Except CatalogError Tag :=
  match Operand.ofChars? word.toList with
  | some op => .ok (.ofOperand op)
  | none =>
    match catalog.find? word with
    | some tag => .ok tag
    | none => if isNumeral word.toList then Tag.make word word else .error (.unknownTag word)

end Catalog

end TagFormula
