import TagFormula.Proofs.ComposedFormula

/-!
# Composing a formula with keys

Every formula of operands and catalog entries can be typed. An operand is the key with its symbol. An
entry is found in the list that an empty text shows, which is the catalog itself: as many presses of
Down as lead to its position, and Enter. After either the text field is empty and nothing is
highlighted, so the next tag is committed in the same way.

* **`KeyPress.choose`**, **`KeyPress.commit`**, **`KeyPress.compose`**: the presses for a suggestion, a
  tag and a formula.
* **`Session.after_downs`**: where the highlight is after some presses of Down.
* **`Session.after_commit`**: what the presses for one tag do to a session at rest.
* **`Session.exists_presses_compose`**: the presses for a formula, from a new session on.
-/

namespace TagFormula

/-! ## The presses -/

namespace KeyPress

/-- Without a highlight, go to the suggestion at a position and commit it. -/
def choose (index : Nat) : List KeyPress :=
  List.replicate (index + 1) { key := .down } ++ [{ key := .enter }]

/-- Commit a tag: choose it if the catalog has it, else type its label. -/
def commit (catalog : Catalog) (tag : Tag) : List KeyPress :=
  match catalog.entries.idxOf? tag with
  | some index => choose index
  | none => tag.key.toList.map fun c => { key := .character c }

/-- Commit tags one after the other. -/
def compose (catalog : Catalog) (tags : List Tag) : List KeyPress :=
  tags.flatMap (commit catalog)

end KeyPress

/-! ## The list that an empty text shows -/

/-- Without a text all entries are shown, in the order of the catalog. -/
theorem Suggestion.shown_empty (entries : List Tag) : shown entries "" = entries := by
  rw [shown_eq, matching]
  exact List.filter_eq_self.2 fun tag _ => rfl

namespace Session

/-- A session after keys have been pressed one after the other. -/
def afterPresses (s : Session) (presses : List KeyPress) : Session :=
  s.after (presses.map fun press => .handle (.key press .press))

/-- A run of presses can be cut anywhere. -/
theorem afterPresses_append (s : Session) (presses more : List KeyPress) :
    s.afterPresses (presses ++ more) = (s.afterPresses presses).afterPresses more := by
  rw [afterPresses, List.map_append, after, List.foldl_append]
  rfl

/-! ## One tag

The session stands in normal mode, the text field is empty, and at first nothing is highlighted. -/

/-- The session with an editor that holds tags and an empty text. -/
def holding (s : Session) (catalog : Catalog) (tags : List Tag) (highlighted : Option Nat := none) :
    Session :=
  { s with editor := ⟨catalog, tags, "", highlighted⟩ }

section

variable {s : Session} {catalog : Catalog} {tags : List Tag}

theorem shown_holding {highlighted : Option Nat} :
    (s.holding catalog tags highlighted).editor.shown = catalog.entries :=
  Suggestion.shown_empty catalog.entries

/-- Down moves the highlight, and changes neither tags nor text. -/
theorem handle_down (hmode : s.mode = .normal) {highlighted : Option Nat} :
    ((s.holding catalog tags highlighted).handle (.key { key := .down } .press)).1 =
      s.holding catalog tags (Editor.moved catalog.entries.length true highlighted) := by
  simp only [handle, pressKey, holding, hmode, normalKey, editorKey, Editor.press, Editor.move]
  rw [Editor.shown, Suggestion.shown_empty]

theorem handle_enter (hmode : s.mode = .normal) {index : Nat} {tag : Tag}
    (htag : catalog.entries[index]? = some tag) :
    ((s.holding catalog tags (some index)).handle (.key { key := .enter } .press)).1 =
      s.holding catalog (tags ++ [tag]) := by
  have hchosen : (s.holding catalog tags (some index)).editor.chosen? = some tag :=
    Editor.chosen?_of_highlighted rfl (by rw [shown_holding, htag])
  simp only [holding] at hchosen
  simp only [handle, pressKey, holding, hmode, normalKey, editorKey, Editor.press, hchosen]
  rfl

/-- As long as there are entries, each press of Down leads to the next one. -/
theorem after_downs (hmode : s.mode = .normal) {index : Nat} (h : index < catalog.entries.length) :
    (s.holding catalog tags).afterPresses (List.replicate (index + 1) { key := .down }) =
      s.holding catalog tags (some index) := by
  induction index with
  | zero =>
    show ((s.holding catalog tags).handle (.key { key := .down } .press)).1 = _
    rw [handle_down hmode, Editor.moved_down_none h]
  | succ index ih =>
    -- the last press is the one for this entry; the ones before led to the entry above
    rw [List.replicate_succ', afterPresses_append, ih (by omega)]
    show ((s.holding catalog tags (some index)).handle (.key { key := .down } .press)).1 = _
    rw [handle_down hmode, Editor.moved_down_some h]

/-- An entry is reached by as many presses as its position asks for. -/
theorem after_choose (hmode : s.mode = .normal) {index : Nat} {tag : Tag}
    (htag : catalog.entries[index]? = some tag) :
    (s.holding catalog tags).afterPresses (KeyPress.choose index) =
      s.holding catalog (tags ++ [tag]) := by
  obtain ⟨hindex, _⟩ := List.getElem?_eq_some_iff.1 htag
  -- down to the entry, then Enter
  rw [KeyPress.choose, afterPresses_append, after_downs hmode hindex]
  exact handle_enter hmode htag

theorem after_operand (hmode : s.mode = .normal) (op : Operand) :
    (s.holding catalog tags).afterPresses [{ key := .character op.toChar }] =
      s.holding catalog (tags ++ [.ofOperand op]) := by
  have hpush : (⟨catalog, tags, "", none⟩ : Editor).push op.toChar =
      ⟨catalog, tags ++ [.ofOperand op], "", none⟩ :=
    Editor.push_of_operand (Operand.ofChar?_toChar op)
  show ((s.holding catalog tags).handle (.key { key := .character op.toChar } .press)).1 = _
  simp only [handle, pressKey, holding, hmode, normalKey, characterKey, type, hpush]
  rfl

/-- A tag that is known takes the presses of its kind. -/
theorem after_commit (hmode : s.mode = .normal) {tag : Tag} (htag : Editor.Known catalog tag) :
    (s.holding catalog tags).afterPresses (KeyPress.commit catalog tag) =
      s.holding catalog (tags ++ [tag]) := by
  unfold KeyPress.commit
  split
  · next index hindex =>
    obtain ⟨hlt, heq, _⟩ := List.idxOf?_eq_some_iff.1 hindex
    exact after_choose hmode (by rw [List.getElem?_eq_getElem hlt, heq])
  · next hnone =>
    -- a tag that the catalog does not have is that of an operand
    rcases htag with ⟨op, rfl⟩ | hmem
    · have hkey : (Tag.ofOperand op).key.toList = [op.toChar] := by
        simp [Tag.ofOperand, Operand.symbol]
      rw [hkey]
      exact after_operand hmode op
    · exact absurd hmem (List.idxOf?_eq_none_iff.1 hnone)

/-! ## A formula -/

/-- The whole formula. Induction on its tags, with `after_commit` as the step. -/
theorem after_compose (hmode : s.mode = .normal) {more : List Tag}
    (hmore : ∀ tag ∈ more, Editor.Known catalog tag) :
    (s.holding catalog tags).afterPresses (KeyPress.compose catalog more) =
      s.holding catalog (tags ++ more) := by
  induction more generalizing tags with
  | nil =>
    rw [List.append_nil]
    rfl
  | cons tag rest ih =>
    rw [List.forall_mem_cons] at hmore
    have hrest : (s.holding catalog (tags ++ [tag])).afterPresses (KeyPress.compose catalog rest) =
        s.holding catalog (tags ++ [tag] ++ rest) := ih hmore.2
    rw [KeyPress.compose, List.flatMap_cons, afterPresses_append, after_commit hmode hmore.1,
      ← KeyPress.compose, hrest, List.append_assoc, List.singleton_append]

end

/-- **Every formula can be composed with keys.** For every list of tags that are those of operands or
entries of the catalog there are presses that take a new session to one in normal mode with exactly
these tags and an empty text. Nothing else in the session has changed. -/
theorem exists_presses_compose (catalog : Catalog) (messageTime : Nat) (hints : List KeyHint)
    (tags : List Tag) (htags : ∀ tag ∈ tags, (∃ op, tag = .ofOperand op) ∨ tag ∈ catalog.entries) :
    ∃ presses : List KeyPress,
      let start := opened ⟨catalog, [], "", none⟩ messageTime hints
      let s := start.after (presses.map fun press => .handle (.key press .press))
      s.mode = .normal ∧ s.editor.tags = tags ∧ s.editor.freeText = "" ∧
        s = { start with editor := ⟨catalog, tags, "", none⟩ } := by
  refine ⟨KeyPress.compose catalog tags, ?_⟩
  intro start s
  have hs : s = start.holding catalog tags := by
    show (start.holding catalog []).afterPresses (KeyPress.compose catalog tags) = _
    rw [after_compose rfl htags, List.nil_append]
  rw [hs]
  exact ⟨rfl, rfl, rfl, rfl⟩

/-- The catalog has one entry, which is wanted twice, and an operand between. -/
theorem exists_presses_fee_plus_fee :
    let fee : Tag := ⟨"Fee", "40", by decide +kernel⟩
    let start := opened ⟨⟨[fee]⟩, [], "", none⟩ 0 []
    (∀ tag ∈ [fee, .ofOperand .add, fee], (∃ op, tag = .ofOperand op) ∨ tag ∈ [fee]) ∧
      ∃ presses : List KeyPress,
        (start.after (presses.map fun press => .handle (.key press .press))).editor =
          ⟨⟨[fee]⟩, [fee, .ofOperand .add, fee], "", none⟩ := by
  intro fee start
  have hknown : ∀ tag ∈ [fee, .ofOperand .add, fee],
      (∃ op, tag = .ofOperand op) ∨ tag ∈ [fee] := by
    intro tag htag
    simp only [List.mem_cons, List.not_mem_nil, or_false] at htag
    rcases htag with rfl | rfl | rfl
    · exact Or.inr (by simp)
    · exact Or.inl ⟨.add, rfl⟩
    · exact Or.inr (by simp)
  obtain ⟨presses, _, _, _, hsession⟩ :=
    exists_presses_compose ⟨[fee]⟩ 0 [] [fee, .ofOperand .add, fee] hknown
  exact ⟨hknown, presses, by rw [hsession]⟩

end Session

end TagFormula
