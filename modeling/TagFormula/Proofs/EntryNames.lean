import TagFormula.Command
import TagFormula.Proofs.CatalogEntries

/-!
# Naming an entry on the command line

A catalog is built only if no two labels are equal but for letter case, so looking up the label of an
entry gives that entry. A word of a command line loses the blanks at its ends before it is looked up;
what is looked up then is the label only if the label has no blanks there.

* **`Text.length_lower`**, **`Text.trim_eq_self`**: lower-casing keeps the length but for one letter, so
  a text that has lost blanks cannot have the same lower-case image.
* **`Catalog.resolve_eq_ok_cases`**: the three things that a word can name.
* **`Command.resolveAll_key_iff`**: when the label of an entry names it.
* **`Command.padded_label_names_nothing`**: a label with blanks at its ends does not.
-/

namespace TagFormula

namespace Text

/-! ## Lower case and length -/

/-- The one letter of which lower case has two characters. -/
theorem length_lowerChar (c : Char) : (lowerChar c).length = if c = 'İ' then 2 else 1 := by
  unfold lowerChar
  split
  · next hascii =>
    have hne : c ≠ 'İ' := by
      rintro rfl
      exact absurd hascii (by decide)
    rw [if_neg hne]
    rfl
  · split <;> rfl

/-- The number of these letters is what lower case adds to a text. -/
theorem length_lowerAfter (before cs : List Char) :
    (lowerAfter before cs).length = cs.length + cs.count 'İ' := by
  induction cs generalizing before with
  | nil => rfl
  | cons c rest ih =>
    -- a sigma has one of two images, and each of them is one character
    have himage : (if c = 'Σ' then [if endsWord before rest then 'ς' else 'σ']
        else lowerChar c).length = if c = 'İ' then 2 else 1 := by
      split
      · next hsigma =>
        have hne : c ≠ 'İ' := by
          rw [hsigma]
          decide
        rw [if_neg hne]
        rfl
      · exact length_lowerChar c
    rw [lowerAfter, List.length_append, himage, ih, List.length_cons, List.count_cons]
    simp only [beq_iff_eq]
    split <;> omega

/-- Every character has an image of one character, but for one letter, which has one of two. -/
theorem length_lower (cs : List Char) : (lower cs).length = cs.length + cs.count 'İ' :=
  length_lowerAfter [] cs

/-- Trimming takes characters away only, so a trimmed text with one more is not that text. -/
theorem trim_sublist (cs : List Char) : (trim cs).Sublist cs := by
  have hright (cs : List Char) : (trimRight cs).Sublist cs := by
    rw [trimRight, ← List.reverse_sublist, List.reverse_reverse]
    exact List.dropWhile_sublist isBlank
  exact (hright _).trans (List.dropWhile_sublist isBlank)

/-- A text that loses blanks at its ends loses length, also in lower case. -/
theorem trim_eq_self {cs : List Char} (h : lower (trim cs) = lower cs) : trim cs = cs := by
  have hsublist := trim_sublist cs
  have hlength := congrArg List.length h
  rw [length_lower, length_lower] at hlength
  have hle := hsublist.length_le
  have hcount := hsublist.count_le 'İ'
  exact hsublist.eq_of_length (by omega)

end Text

namespace Catalog

/-! ## What a word names -/

/-- What a word can name: an operand, an entry, or itself as a numeral. -/
theorem resolve_eq_ok_cases {catalog : Catalog} {word : String} {tag : Tag}
    (h : catalog.resolve word = .ok tag) :
    (∃ op, tag = .ofOperand op) ∨ catalog.find? word = some tag ∨ tag.key = word := by
  rw [resolve] at h
  split at h
  · next op _ =>
    cases h
    exact Or.inl ⟨op, rfl⟩
  · split at h
    · next found hfound =>
      cases h
      exact Or.inr (Or.inl hfound)
    · split at h
      · -- neither an operand nor found: a number with itself as its label
        exact Or.inr (Or.inr (Tag.make_eq_ok_iff.1 h).1)
      · cases h

/-- The catalog is asked before the numbers. -/
theorem resolve_of_find? {catalog : Catalog} {word : String} {tag : Tag}
    (hoperand : Operand.ofChars? word.toList = none) (hfind : catalog.find? word = some tag) :
    catalog.resolve word = .ok tag := by
  rw [resolve, hoperand, hfind]

end Catalog

theorem Tag.isOperandLabel_ofOperand (op : Operand) : (ofOperand op).isOperandLabel = true := by
  cases op <;> decide +kernel

namespace Command

/-! ## Words of a command line -/

/-- A word without the blanks at its ends. -/
def trimmed (word : String) : String :=
  String.ofList (Text.trim word.toList)

theorem resolveAll_singleton (catalog : Catalog) (word : String) :
    resolveAll catalog [word] = (catalog.resolve (trimmed word)).map ([·]) := by
  rw [resolveAll, ← trimmed]
  cases catalog.resolve (trimmed word) <;> rfl

/-- **An entry is named by its label exactly if the label has no blanks at its ends.** This holds for
every catalog that is built from entries and every entry whose label is no operand symbol, whatever
else the label looks like. -/
theorem resolveAll_key_iff {entries : List (String × String)} {catalog : Catalog}
    (hcatalog : Catalog.ofEntries entries = .ok catalog) {tag : Tag} (hmem : tag ∈ catalog.entries)
    (hlabel : tag.isOperandLabel = false) :
    resolveAll catalog [tag.key] = .ok [tag] ↔ Text.trim tag.key.toList = tag.key.toList := by
  rw [resolveAll_singleton]
  constructor
  · intro hnamed
    have hresolve : catalog.resolve (trimmed tag.key) = .ok tag := by
      cases hword : catalog.resolve (trimmed tag.key) with
      | error e =>
        rw [hword] at hnamed
        cases hnamed
      | ok found =>
        rw [hword] at hnamed
        cases hnamed
        rfl
    rcases Catalog.resolve_eq_ok_cases hresolve with ⟨op, rfl⟩ | hfind | hkey
    · -- the tag of an operand has the label of one
      rw [Tag.isOperandLabel_ofOperand] at hlabel
      cases hlabel
    · -- found by its label, so label and trimmed label are equal in lower case
      apply Text.trim_eq_self
      have hlower := congrArg String.toList (Catalog.lowerCase_of_find? hfind)
      simpa [Text.lowerCase, trimmed] using hlower.symm
    · -- made of the trimmed label itself
      have htoList := congrArg String.toList hkey
      rw [trimmed, String.toList_ofList] at htoList
      exact htoList.symm
  · intro htrim
    have hword : trimmed tag.key = tag.key := by
      rw [trimmed, htrim, String.ofList_toList]
    have hoperand : Operand.ofChars? tag.key.toList = none := by
      simpa [Tag.isOperandLabel] using hlabel
    rw [hword, Catalog.resolve_of_find? hoperand (Catalog.find?_key hcatalog hmem)]
    rfl

/-- A label that looks like a number names its entry and not the number. -/
theorem numeral_label_names_entry :
    let seven : Tag := ⟨"7", "8", by decide +kernel⟩
    Catalog.ofEntries [("7", "8")] = .ok ⟨[seven]⟩ ∧ seven.isOperandLabel = false ∧
      resolveAll ⟨[seven]⟩ ["7"] = .ok [seven] := by
  intro seven
  have hcatalog : Catalog.ofEntries [("7", "8")] = .ok ⟨[seven]⟩ := by rfl
  have hlabel : seven.isOperandLabel = false := by decide
  have hnamed := resolveAll_key_iff hcatalog List.mem_cons_self hlabel
  exact ⟨hcatalog, hlabel, hnamed.2 (by decide)⟩

/-- The catalog takes the label ` Fee `, but the word ` Fee ` is looked up without its blanks, and no
entry has the label `Fee`. -/
theorem padded_label_names_nothing :
    let fee : Tag := ⟨" Fee ", "250", by decide +kernel⟩
    Catalog.ofEntries [(" Fee ", "250")] = .ok ⟨[fee]⟩ ∧ fee.isOperandLabel = false ∧
      resolveAll ⟨[fee]⟩ [" Fee "] = .error (.unknownTag "Fee") ∧
      resolveAll ⟨[fee]⟩ [" Fee "] ≠ .ok [fee] := by
  intro fee
  have hunknown : resolveAll ⟨[fee]⟩ [" Fee "] = .error (.unknownTag "Fee") := by
    decide +kernel
  refine ⟨by rfl, by decide, hunknown, fun hnamed => ?_⟩
  have hboth := hunknown.symm.trans hnamed
  cases hboth

end Command

end TagFormula
