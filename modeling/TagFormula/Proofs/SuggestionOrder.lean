import TagFormula.Command

/-!
# The order of suggestions

A ranking rearranges the catalog: first the entries that match the text, then the others, and neither
group loses its order. What is shown is found by cutting the ranking at the first entry that does not
match, and what a listing adds is found by skipping as many entries as are shown; both cuts fall
between the two groups.

* **`Suggestion.matching`**, **`Suggestion.others`**: the two groups, by the test for a single entry.
* **`Suggestion.rank_eq`**, **`Suggestion.shown_eq`**: the ranking is one group behind the other, and
  the first is what is shown.
* **`Command.list_eq`**: the report of a listing, told by the two groups.
* **`Command.list_partitions_catalog`**: both together, with what each line of a listing says.
-/

namespace TagFormula

namespace Suggestion

/-- The entries that match a text, in catalog order. -/
def matching (entries : List Tag) (text : String) : List Tag :=
  entries.filter fun tag => keyMatches tag.key text

/-- The entries that do not match a text, in catalog order. -/
def others (entries : List Tag) (text : String) : List Tag :=
  entries.filter fun tag => !keyMatches tag.key text

/-! ## The ranking and its first group -/

/-- The ranking keeps the order of the catalog among those that match, and among the others. -/
theorem rank_eq (entries : List Tag) (text : String) :
    rank entries text = matching entries text ++ others entries text := by
  unfold rank matching others
  split
  · next hempty =>
    -- an empty text is matched by every entry
    have hall : ∀ tag : Tag, keyMatches tag.key text = true := by
      intro tag
      rw [keyMatches, hempty, Bool.true_or]
    rw [List.filter_eq_self.2 fun tag _ => hall tag, List.filter_eq_nil_iff.2 (by simp [hall]),
      List.append_nil]
  · next hempty =>
    have htest : (fun tag : Tag => Text.hasPiece (Text.lower text.toList) (Text.lower tag.key.toList)) =
        fun tag => keyMatches tag.key text := by
      funext tag
      simp [keyMatches, hempty]
    simp only [List.partition_eq_filter_filter, htest]
    rfl

/-- Nothing is lost and nothing is doubled. -/
theorem perm_rank (entries : List Tag) (text : String) : (rank entries text).Perm entries := by
  rw [rank_eq]
  exact List.filter_append_perm _ entries

/-- What is shown stops where the first entry does not match. -/
theorem takeWhile_others (entries : List Tag) (text : String) :
    (others entries text).takeWhile (fun tag => keyMatches tag.key text) = [] := by
  cases h : others entries text with
  | nil => rfl
  | cons tag rest =>
    have hmem : tag ∈ others entries text := by
      rw [h]
      exact List.mem_cons_self
    have hfails : (!keyMatches tag.key text) = true := (List.mem_filter.1 hmem).2
    rw [Bool.not_eq_true'] at hfails
    rw [List.takeWhile_cons_of_neg (by simp [hfails])]

/-- The first entry that does not match is the first of the second group. -/
theorem shown_eq (entries : List Tag) (text : String) :
    shown entries text = matching entries text := by
  have hall : ∀ tag ∈ matching entries text, keyMatches tag.key text = true :=
    fun tag htag => (List.mem_filter.1 htag).2
  rw [shown, rank_eq, List.takeWhile_append_of_pos hall, takeWhile_others, List.append_nil]

end Suggestion

/-! ## The listing -/

namespace Report

/-- The lines of a level are picked out of each part. -/
theorem lines_append (report report' : Report) (level : Level) :
    lines (report ++ report') level = lines report level ++ lines report' level := by
  rw [lines, List.filter_append, List.map_append]
  rfl

end Report

namespace Command

open Suggestion

/-- What a listing says first. -/
def listHeading (catalog : Catalog) (query : String) : String :=
  let matched := matching catalog.entries query
  if matched = [] then s!"No suggestions match '{query}'"
  else s!"{matched.length} of {catalog.entries.length} suggestion(s) match:"

/-- What a listing adds for the entries that do not match. -/
def listOthers (catalog : Catalog) (query : String) (ranked : Bool) : Report :=
  let rest := others catalog.entries query
  if ranked ∧ rest ≠ [] then ⟨.info, "Not matching:"⟩ :: rest.map entryLine else []

/-- Skipping as many entries of the ranking as are shown skips the first group. -/
theorem list_eq (catalog : Catalog) (query : String) (ranked : Bool) :
    list catalog query ranked = ⟨.info, listHeading catalog query⟩ ::
      (matching catalog.entries query).map entryLine ++ listOthers catalog query ranked := by
  have hrest : (rank catalog.entries query).drop (matching catalog.entries query).length =
      others catalog.entries query := by
    rw [rank_eq, List.drop_left]
  unfold list listOthers listHeading
  simp only [shown_eq, hrest]
  cases matching catalog.entries query with
  | nil => cases ranked <;> cases others catalog.entries query <;> rfl
  | cons tag more => cases ranked <;> cases others catalog.entries query <;> simp

theorem lines_entryLine (tags : List Tag) :
    Report.lines (tags.map entryLine) .normal = tags.map (fun tag => s!"{tag.key} = {tag.value}") ∧
      Report.lines (tags.map entryLine) .info = [] := by
  induction tags with
  | nil => exact ⟨rfl, rfl⟩
  | cons tag rest ih => exact ⟨congrArg (s!"{tag.key} = {tag.value}" :: ·) ih.1, ih.2⟩

theorem getLast?_toList_append (front : String) {back : String} {c : Char}
    (h : back.toList.getLast? = some c) : (front ++ back).toList.getLast? = some c := by
  rw [String.toList_append, List.getLast?_append, h]
  rfl

/-- The other remarks that a listing can hold end with a colon. -/
theorem noMatch_ne (query : String) {line : String} (hline : line.toList.getLast? = some ':') :
    s!"No suggestions match '{query}'" ≠ line := by
  intro heq
  have hquote : "'".toList.getLast? = some '\'' := rfl
  have hlast : line.toList.getLast? = some '\'' := by
    rw [← heq]
    exact getLast?_toList_append ("No suggestions match '" ++ query) hquote
  rw [hline] at hlast
  exact absurd hlast (by decide)

/-- What the listing prints, level by level. -/
theorem lines_list (catalog : Catalog) (query : String) (ranked : Bool) :
    (list catalog query ranked).lines .normal =
        (matching catalog.entries query ++ if ranked then others catalog.entries query else []).map
          (fun tag => s!"{tag.key} = {tag.value}") ∧
      (list catalog query ranked).lines .info = listHeading catalog query ::
        if ranked ∧ others catalog.entries query ≠ [] then ["Not matching:"] else [] := by
  have hlisted := lines_entryLine (matching catalog.entries query)
  have hadded := lines_entryLine (others catalog.entries query)
  -- a heading is a line of information, and none of the normal ones
  have hheading (report : Report) (line : String) :
      Report.lines (⟨.info, line⟩ :: report) .normal = Report.lines report .normal ∧
        Report.lines (⟨.info, line⟩ :: report) .info = line :: Report.lines report .info :=
    ⟨rfl, rfl⟩
  rw [list_eq, List.cons_append]
  rw [(hheading _ _).1, (hheading _ _).2, Report.lines_append, Report.lines_append, hlisted.1, hlisted.2,
    listOthers]
  cases ranked with
  | false => simp [Report.lines]
  | true =>
    by_cases hnone : others catalog.entries query = []
    · simp [hnone, Report.lines]
    · simp [hnone, (hheading _ _).1, (hheading _ _).2, hadded.1, hadded.2]

/-- A listing says that nothing matches exactly if nothing does. -/
theorem noMatch_mem_info_iff (catalog : Catalog) (query : String) (ranked : Bool) :
    s!"No suggestions match '{query}'" ∈ (list catalog query ranked).lines .info ↔
      matching catalog.entries query = [] := by
  rw [(lines_list catalog query ranked).2, List.mem_cons, listHeading]
  have hrest : s!"No suggestions match '{query}'" ∉
      (if ranked ∧ others catalog.entries query ≠ [] then ["Not matching:"] else []) := by
    split
    · rw [List.mem_singleton]
      exact noMatch_ne query rfl
    · exact List.not_mem_nil
  split
  · next hnone => exact iff_of_true (Or.inl rfl) hnone
  · next hsome =>
    have hcolon : " suggestion(s) match:".toList.getLast? = some ':' := rfl
    have hheading := noMatch_ne query (getLast?_toList_append
      s!"{(matching catalog.entries query).length} of {catalog.entries.length}" hcolon)
    exact iff_of_false (fun h => h.elim hheading hrest) hsome

/-- **A listing keeps every entry, and the matches come first.** The ranking is the entries that match,
in catalog order, and behind them the others, in catalog order; with an empty text it is the catalog
itself. What is shown is the first of the two groups, and so the front of the ranking. A listing has
a line for each match, and if the others are asked for, a line for each of them behind; it says how many
entries match, or that none does. -/
theorem list_partitions_catalog (catalog : Catalog) (text : String) :
    let matched := catalog.entries.filter fun tag => keyMatches tag.key text
    let unmatched := catalog.entries.filter fun tag => !keyMatches tag.key text
    let line (tag : Tag) := s!"{tag.key} = {tag.value}"
    rank catalog.entries text = matched ++ unmatched ∧
      (rank catalog.entries text).Perm catalog.entries ∧
      rank catalog.entries "" = catalog.entries ∧
      shown catalog.entries text = matched ∧
      shown catalog.entries text <+: rank catalog.entries text ∧
      (list catalog text false).lines .normal = matched.map line ∧
      (list catalog text true).lines .normal = (matched ++ unmatched).map line ∧
      ∀ ranked,
        ((list catalog text ranked).lines .info).head? = some
          (if matched = [] then s!"No suggestions match '{text}'"
          else s!"{matched.length} of {catalog.entries.length} suggestion(s) match:") ∧
        (s!"No suggestions match '{text}'" ∈ (list catalog text ranked).lines .info ↔
          matched = []) := by
  intro matched unmatched line
  have hrank : rank catalog.entries text = matched ++ unmatched := rank_eq catalog.entries text
  have hshown : shown catalog.entries text = matched := shown_eq catalog.entries text
  refine ⟨hrank, perm_rank catalog.entries text, rfl, hshown, ?_, ?_, ?_, fun ranked => ⟨?_, ?_⟩⟩
  · rw [hshown, hrank]
    exact List.prefix_append matched unmatched
  · rw [(lines_list catalog text false).1]
    exact congrArg (List.map line) (List.append_nil matched)
  · exact (lines_list catalog text true).1
  · rw [(lines_list catalog text ranked).2, List.head?_cons]
    rfl
  · exact noMatch_mem_info_iff catalog text ranked

end Command

end TagFormula
