import Mathlib.Data.List.Basic
import Mathlib.Data.List.Induction
import Mathlib.Data.List.TakeWhile
import TagFormula.Catalog

/-!
# Which entries make a catalog

The entries of a catalog are checked one after another, each against the labels before it, and the
check ends at the first entry that is refused. Together this is a condition on all entries and all pairs
of them, and under it a lookup by the first equal label is a lookup by the only one.

* **`Catalog.Admissible`**, **`Catalog.Admits`**: the condition on all entries, and what it says of the
  last one.
* **`Catalog.Offends`**: why an entry is refused behind others, and how it is reported.
* **`Catalog.checkEntries_append`**: a list of entries is checked part by part.
* **`Catalog.checkEntries_cases`**: entries are admissible and make up a catalog, or the first that
  offends is reported. Induction from the right: one more entry behind those that were checked.
* **`Catalog.nodup_lowerCase`**, **`Catalog.find?_eq_some_iff`**: the labels of a catalog are distinct, and
  a lookup finds the entry with the label.
* **`Catalog.ofEntries_admits_or_reports`**: both, with the lookup in the catalog.
-/

namespace TagFormula.Catalog

/-! ## Conditions on entries

An entry is a label and a value. -/

/-- A label with no character to be seen, the empty one too. -/
def IsBlankLabel (key : String) : Prop :=
  ∀ c ∈ key.toList, Text.isBlank c = true

/-- No earlier entry has the label, letter case aside. -/
def IsFree (earlier : List (String × String)) (key : String) : Prop :=
  ∀ entry ∈ earlier, Text.lowerCase entry.1 ≠ Text.lowerCase key

/-- The value is a numeral or one operand symbol. -/
def MayHold (value : String) : Prop :=
  isNumeral value.toList = true ∨ ∃ op : Operand, value.toList = [op.toChar]

structure Admissible (entries : List (String × String)) : Prop where
  labelled : ∀ entry ∈ entries, ¬ IsBlankLabel entry.1
  distinct : entries.Pairwise fun earlier later => Text.lowerCase earlier.1 ≠ Text.lowerCase later.1
  held : ∀ entry ∈ entries, MayHold entry.2

/-- The entry may stand behind the earlier ones. -/
structure Admits (earlier : List (String × String)) (entry : String × String) : Prop where
  labelled : ¬ IsBlankLabel entry.1
  free : IsFree earlier entry.1
  held : MayHold entry.2

/-- The entry may not stand behind the earlier ones. A blank label counts before a repeated one, and
both before the value. -/
inductive Offends (earlier : List (String × String)) : String × String → CatalogError → Prop
  | blank {key value} (hblank : IsBlankLabel key) : Offends earlier (key, value) (.emptyKey value)
  | repeated {key value} (hlabel : ¬ IsBlankLabel key) (hseen : ¬ IsFree earlier key) :
      Offends earlier (key, value) (.duplicateKey key)
  | unheld {key value} (hlabel : ¬ IsBlankLabel key) (hfree : IsFree earlier key)
      (hvalue : ¬ MayHold value) : Offends earlier (key, value) (.invalidValue key value)

variable {earlier later entries : List (String × String)} {entry : String × String}
  {e : CatalogError}

theorem admissible_nil : Admissible [] :=
  ⟨nofun, .nil, nofun⟩

theorem admissible_append_singleton :
    Admissible (earlier ++ [entry]) ↔ Admissible earlier ∧ Admits earlier entry := by
  constructor
  · rintro ⟨hlabelled, hdistinct, hheld⟩
    rw [List.forall_mem_append, List.forall_mem_singleton] at hlabelled hheld
    obtain ⟨hearlier, -, hfree⟩ := List.pairwise_append.1 hdistinct
    exact ⟨⟨hlabelled.1, hearlier, hheld.1⟩, hlabelled.2,
      fun other hother => hfree other hother entry List.mem_cons_self, hheld.2⟩
  · rintro ⟨⟨hlabelled, hdistinct, hheld⟩, hlabel, hfree, hvalue⟩
    refine ⟨?_, List.pairwise_append.2 ⟨hdistinct, List.pairwise_singleton _ _, ?_⟩, ?_⟩
    · exact List.forall_mem_append.2 ⟨hlabelled, List.forall_mem_singleton.2 hlabel⟩
    · exact fun other hother => List.forall_mem_singleton.2 (hfree other hother)
    · exact List.forall_mem_append.2 ⟨hheld, List.forall_mem_singleton.2 hvalue⟩

/-- What stands in front of admissible entries is admissible. -/
theorem Admissible.front (h : Admissible (earlier ++ later)) : Admissible earlier where
  labelled := (List.forall_mem_append.1 h.labelled).1
  distinct := (List.pairwise_append.1 h.distinct).1
  held := (List.forall_mem_append.1 h.held).1

/-- An entry that is not admitted has an error of its own. -/
theorem admits_or_offends (earlier : List (String × String)) (entry : String × String) :
    Admits earlier entry ∨ ∃ e, Offends earlier entry e := by
  obtain ⟨key, value⟩ := entry
  by_cases hlabel : IsBlankLabel key
  · exact Or.inr ⟨_, .blank hlabel⟩
  · by_cases hfree : IsFree earlier key
    · by_cases hvalue : MayHold value
      · exact Or.inl ⟨hlabel, hfree, hvalue⟩
      · exact Or.inr ⟨_, .unheld hlabel hfree hvalue⟩
    · exact Or.inr ⟨_, .repeated hlabel hfree⟩

/-- Each error is the contrary of one of the conditions. -/
theorem Offends.not_admits (h : Offends earlier entry e) : ¬ Admits earlier entry := by
  rintro ⟨hlabel, hfree, hvalue⟩
  cases h with
  | blank hblank => exact hlabel hblank
  | repeated _ hseen => exact hseen hfree
  | unheld _ _ hunheld => exact hunheld hvalue

/-- Entries of which one offends are not admissible. -/
theorem Offends.not_admissible (h : Offends earlier entry e) (later : List (String × String)) :
    ¬ Admissible (earlier ++ entry :: later) := by
  intro hall
  rw [List.append_cons] at hall
  exact h.not_admits (admissible_append_singleton.1 hall.front).2

/-! ## Checking entries -/

/-- The labels of checked entries as the check keeps them, the last one first. -/
def labels (entries : List (String × String)) : List String :=
  (entries.map fun entry => Text.lowerCase entry.1).reverse

/-- The labels seen are kept with the last one first. -/
theorem labels_cons_append (entry : String × String) (rest : List (String × String))
    (seen : List String) :
    labels (entry :: rest) ++ seen = labels rest ++ Text.lowerCase entry.1 :: seen := by
  rw [labels, labels, List.map_cons, List.reverse_cons, List.append_assoc]
  rfl

/-- The test of the check, which compares labels in lower case. -/
theorem isFree_iff {key : String} : IsFree earlier key ↔ Text.lowerCase key ∉ labels earlier := by
  simp [IsFree, labels]

theorem all_isBlank_iff {key : String} : key.toList.all Text.isBlank = true ↔ IsBlankLabel key :=
  List.all_eq_true

/-- The entries of a list are checked behind those in front of them. -/
theorem checkEntries_append (seen : List String) (earlier later : List (String × String)) :
    checkEntries seen (earlier ++ later) =
      (checkEntries seen earlier).bind fun tags =>
        (checkEntries (labels earlier ++ seen) later).map (tags ++ ·) := by
  induction earlier generalizing seen with
  | nil =>
    show checkEntries seen later = (checkEntries seen later).map id
    rw [Except.map_id, id]
  | cons entry rest ih =>
    obtain ⟨key, value⟩ := entry
    rw [labels_cons_append, List.cons_append, checkEntries, checkEntries]
    split
    · rfl
    · split
      · rfl
      · cases Tag.make key value with
        | error e => rfl
        | ok tag =>
          simp only [ih]
          -- whether the rest fails decides before the later entries do
          cases checkEntries (Text.lowerCase key :: seen) rest with
          | error e => rfl
          | ok tags => cases checkEntries (labels rest ++ Text.lowerCase key :: seen) later <;> rfl

theorem checkEntries_of_admits (h : Admits earlier entry) :
    ∃ tag, (tag.key, tag.value) = entry ∧ checkEntries (labels earlier) [entry] = .ok [tag] := by
  obtain ⟨key, value⟩ := entry
  obtain ⟨tag, htag⟩ := Tag.exists_make_iff.2 (isTagValue_iff.2 h.held)
  obtain ⟨hkey, hvalue⟩ := Tag.make_eq_ok_iff.1 htag
  refine ⟨tag, by rw [hkey, hvalue], ?_⟩
  rw [checkEntries, if_neg (mt all_isBlank_iff.1 h.labelled), if_neg (isFree_iff.1 h.free), htag]
  rfl

/-- One step of the check at an entry that is not admitted. The later ones are not looked at. -/
theorem checkEntries_of_offends (h : Offends earlier entry e) (later : List (String × String)) :
    checkEntries (labels earlier) (entry :: later) = .error e := by
  cases h with
  | blank hblank => rw [checkEntries, if_pos (all_isBlank_iff.2 hblank)]
  | repeated hlabel hseen =>
    rw [checkEntries, if_neg (mt all_isBlank_iff.1 hlabel),
      if_pos (not_not.1 (mt isFree_iff.2 hseen))]
  | @unheld key value hlabel hfree hvalue =>
    have hmake : Tag.make key value = .error (.invalidValue key value) :=
      dif_neg (mt isTagValue_iff.1 hvalue)
    rw [checkEntries, if_neg (mt all_isBlank_iff.1 hlabel), if_neg (isFree_iff.1 hfree), hmake]

/-- Checking one more entry behind admissible ones. -/
theorem checkEntries_append_of_ok {tags : List Tag} (h : checkEntries [] earlier = .ok tags)
    (later : List (String × String)) :
    checkEntries [] (earlier ++ later) = (checkEntries (labels earlier) later).map (tags ++ ·) := by
  rw [checkEntries_append, h, List.append_nil]
  rfl

/-- All entries are admissible and become the tags of a catalog, or one offends behind admissible
ones. -/
theorem checkEntries_cases (entries : List (String × String)) :
    (Admissible entries ∧ ∃ tags, checkEntries [] entries = .ok tags ∧
        tags.map (fun tag => (tag.key, tag.value)) = entries) ∨
      ∃ earlier entry later e, entries = earlier ++ entry :: later ∧ Admissible earlier ∧
        Offends earlier entry e ∧ checkEntries [] entries = .error e := by
  induction entries using List.reverseRecOn with
  | nil => exact Or.inl ⟨admissible_nil, [], rfl, rfl⟩
  | append_singleton front entry ih =>
    rcases ih with ⟨hfront, tags, htags, hpairs⟩ | ⟨earlier, first, later, e, rfl, hearlier, hfirst, herror⟩
    · rcases admits_or_offends front entry with hentry | ⟨e, he⟩
      · obtain ⟨tag, htag, hcheck⟩ := checkEntries_of_admits hentry
        refine Or.inl ⟨admissible_append_singleton.2 ⟨hfront, hentry⟩, tags ++ [tag], ?_, ?_⟩
        · rw [checkEntries_append_of_ok htags, hcheck]
          rfl
        · rw [List.map_append, hpairs, List.map_singleton, htag]
      · refine Or.inr ⟨front, entry, [], e, rfl, hfront, he, ?_⟩
        rw [checkEntries_append_of_ok htags, checkEntries_of_offends he]
        rfl
    · -- what was reported before the last entry is reported with it
      refine Or.inr ⟨earlier, first, later ++ [entry], e, ?_, hearlier, hfirst, ?_⟩
      · rw [List.append_assoc, List.cons_append]
      · rw [checkEntries_append, herror]
        rfl

/-- The run for admissible entries. Induction on the entries from their end. -/
theorem checkEntries_of_admissible (h : Admissible entries) :
    ∃ tags, checkEntries [] entries = .ok tags := by
  rcases checkEntries_cases entries with ⟨-, tags, htags, -⟩ | ⟨_, _, later, _, rfl, -, hoffends, -⟩
  · exact ⟨tags, htags⟩
  · exact absurd h (hoffends.not_admissible later)

/-- What the check accepts is admissible, and it keeps every entry as it is. -/
theorem admissible_of_checkEntries {tags : List Tag} (h : checkEntries [] entries = .ok tags) :
    Admissible entries ∧ tags.map (fun tag => (tag.key, tag.value)) = entries := by
  rcases checkEntries_cases entries with ⟨hall, others, hothers, hpairs⟩ | ⟨_, _, _, _, -, -, -, herror⟩
  · rw [h] at hothers
    cases hothers
    exact ⟨hall, hpairs⟩
  · rw [h] at herror
    cases herror

/-- The first offence is reported: all entries before it are admissible. -/
theorem checkEntries_eq_error_iff :
    checkEntries [] entries = .error e ↔
      ∃ earlier entry later, entries = earlier ++ entry :: later ∧ Admissible earlier ∧
        Offends earlier entry e := by
  constructor
  · intro h
    rcases checkEntries_cases entries with ⟨-, tags, htags, -⟩ | hreported
    · rw [h] at htags
      cases htags
    · obtain ⟨earlier, entry, later, e', heq, hearlier, hoffends, herror⟩ := hreported
      rw [h] at herror
      cases herror
      exact ⟨earlier, entry, later, heq, hearlier, hoffends⟩
  · rintro ⟨earlier, entry, later, rfl, hearlier, hoffends⟩
    obtain ⟨tags, htags⟩ := checkEntries_of_admissible hearlier
    rw [checkEntries_append_of_ok htags, checkEntries_of_offends hoffends]
    rfl

/-! ## Catalogs -/

theorem ofEntries_eq_ok_iff {catalog : Catalog} :
    ofEntries entries = .ok catalog ↔ checkEntries [] entries = .ok catalog.entries := by
  obtain ⟨tags⟩ := catalog
  rw [ofEntries]
  cases checkEntries [] entries <;> simp [Except.map]

theorem ofEntries_eq_error_iff :
    ofEntries entries = .error e ↔ checkEntries [] entries = .error e := by
  rw [ofEntries]
  cases checkEntries [] entries <;> simp [Except.map]

/-! ## Looking up a label -/

/-- No two labels of a catalog are equal but for letter case. -/
theorem nodup_lowerCase {catalog : Catalog} (h : ofEntries entries = .ok catalog) :
    (catalog.entries.map fun tag => Text.lowerCase tag.key).Nodup := by
  obtain ⟨hall, hpairs⟩ := admissible_of_checkEntries (ofEntries_eq_ok_iff.1 h)
  have hdistinct := hall.distinct
  rw [← hpairs, List.pairwise_map] at hdistinct
  exact List.pairwise_map.2 hdistinct

/-- Among labels that differ in lower case, a search by a label finds its own entry. -/
theorem find?_of_nodup {tags : List Tag} {tag : Tag}
    (hnodup : (tags.map fun tag => Text.lowerCase tag.key).Nodup) (hmem : tag ∈ tags) :
    tags.find? (fun other => Text.lowerCase other.key = Text.lowerCase tag.key) = some tag := by
  induction tags with
  | nil => cases hmem
  | cons first rest ih =>
    rw [List.map_cons, List.nodup_cons] at hnodup
    rcases List.mem_cons.1 hmem with rfl | hrest
    · rw [List.find?_cons_of_pos (by simp)]
    · have hne : Text.lowerCase first.key ≠ Text.lowerCase tag.key :=
        fun heq => hnodup.1 (List.mem_map.2 ⟨tag, hrest, heq.symm⟩)
      rw [List.find?_cons_of_neg (by simpa using hne)]
      exact ih hnodup.2 hrest

theorem find?_key {entries : List (String × String)} {catalog : Catalog}
    (h : ofEntries entries = .ok catalog) {tag : Tag} (hmem : tag ∈ catalog.entries) :
    catalog.find? tag.key = some tag :=
  find?_of_nodup (nodup_lowerCase h) hmem

/-- What is found has the word as its label, but for the case. -/
theorem lowerCase_of_find? {catalog : Catalog} {word : String} {tag : Tag}
    (h : catalog.find? word = some tag) : Text.lowerCase tag.key = Text.lowerCase word := by
  simpa using List.find?_some h

/-- In a catalog the first entry with a label is the only one. -/
theorem find?_eq_some_iff {catalog : Catalog} (h : ofEntries entries = .ok catalog) {word : String}
    {tag : Tag} :
    catalog.find? word = some tag ↔
      tag ∈ catalog.entries ∧ Text.lowerCase tag.key = Text.lowerCase word := by
  constructor
  · intro hfind
    exact ⟨List.mem_of_find?_eq_some hfind, lowerCase_of_find? hfind⟩
  · rintro ⟨hmem, hlabel⟩
    rw [find?, ← hlabel]
    exact find?_key h hmem

/-- **The entries make a catalog exactly if they are admissible.** The catalog has them unchanged and in
order, and a lookup finds the one entry whose label is the word, letter case aside. Else the first
entry that offends is reported. -/
theorem ofEntries_admits_or_reports (entries : List (String × String)) :
    ((∃ catalog, ofEntries entries = .ok catalog) ↔ Admissible entries) ∧
      (∀ catalog, ofEntries entries = .ok catalog →
        catalog.entries.map (fun tag => (tag.key, tag.value)) = entries ∧
          (∀ word tag, catalog.find? word = some tag ↔
            tag ∈ catalog.entries ∧ Text.lowerCase tag.key = Text.lowerCase word) ∧
          (∀ word, catalog.find? word = none ↔
            ∀ tag ∈ catalog.entries, Text.lowerCase tag.key ≠ Text.lowerCase word) ∧
          ∀ (i : Nat) tag, catalog.entries[i]? = some tag → catalog.find? tag.key = some tag) ∧
      ∀ e, ofEntries entries = .error e ↔
        ∃ earlier entry later, entries = earlier ++ entry :: later ∧ Admissible earlier ∧
          Offends earlier entry e := by
  refine ⟨⟨?_, fun hall => ?_⟩, fun catalog h => ?_, fun e => ?_⟩
  · rintro ⟨catalog, h⟩
    exact (admissible_of_checkEntries (ofEntries_eq_ok_iff.1 h)).1
  · obtain ⟨tags, htags⟩ := checkEntries_of_admissible hall
    exact ⟨⟨tags⟩, ofEntries_eq_ok_iff.2 htags⟩
  · have hfind {word : String} {tag : Tag} := @find?_eq_some_iff _ _ h word tag
    refine ⟨(admissible_of_checkEntries (ofEntries_eq_ok_iff.1 h)).2, fun word tag => hfind,
      fun word => ?_, fun i tag hi => find?_key h (List.mem_of_getElem? hi)⟩
    -- nothing is found exactly if no entry could be
    rw [Option.eq_none_iff_forall_ne_some]
    exact ⟨fun hnone tag hmem hlabel => hnone tag (hfind.2 ⟨hmem, hlabel⟩),
      fun hnone tag hsome => hnone tag (hfind.1 hsome).1 (hfind.1 hsome).2⟩
  · rw [ofEntries_eq_error_iff, checkEntries_eq_error_iff]

/-- A label that repeats another one and has no value either is reported as repeated, as it is written. -/
theorem ofEntries_fee_twice :
    let fee : Tag := ⟨"Fee", "475", by decide +kernel⟩
    ofEntries [("Fee", "475")] = .ok ⟨[fee]⟩ ∧ find? ⟨[fee]⟩ "FEE" = some fee ∧
      ofEntries [("Fee", "475"), ("FEE", "?")] = .error (.duplicateKey "FEE") := by
  intro fee
  have hcatalog : ofEntries [("Fee", "475")] = .ok ⟨[fee]⟩ := by rfl
  have hlabel : Text.lowerCase "Fee" = Text.lowerCase "FEE" := by decide +kernel
  obtain ⟨hadmissible, hfound, -⟩ := ofEntries_admits_or_reports [("Fee", "475")]
  have hblank : ¬ IsBlankLabel "FEE" := fun h => absurd (h 'F' (by decide)) (by decide)
  have hseen : ¬ IsFree [("Fee", "475")] "FEE" := fun h => h _ List.mem_cons_self hlabel
  refine ⟨hcatalog, ?_, ?_⟩
  · exact ((hfound _ hcatalog).2.1 "FEE" fee).2 ⟨List.mem_cons_self, hlabel⟩
  · refine ((ofEntries_admits_or_reports _).2.2 _).2 ⟨[("Fee", "475")], ("FEE", "?"), [], rfl, ?_, ?_⟩
    · exact hadmissible.1 ⟨_, hcatalog⟩
    · exact .repeated hblank hseen

end TagFormula.Catalog
