import TagFormula.Editor

/-!
# Runs of the editor

An editor changes only by its operations. What one of them keeps, every sequence of them keeps.

* **`Editor.Operation`**, **`Editor.perform`**, **`Editor.after`**: the operations, what one does, and
  the editor after a sequence of them.
* **`Editor.Effect`**, **`Editor.perform_effect`**: all that an operation can do to an editor, said once.
  Every fact about operations is a case analysis over it.
* **`Editor.HighlightInRange`**: the highlight, if there is one, is the position of a shown
  suggestion. The list it points into depends on the free text, so an operation that touches the text
  has to take the highlight away: `Effect.highlightInRange`.
* **`countP_highlighted`**: the suggestions that carry the highlight, counted.
* **`highlighted_lt_shown`**: both for every editor that can come about.
-/

namespace TagFormula

namespace Editor

/-! ## Operations -/

/-- What can be done with an editor from outside. -/
inductive Operation where
  | input (text : String)
  | push (c : Char)
  | pop
  | add (tag : Tag)
  | select (index : Nat)
  | delete (index : Nat)
  | clear
  | press (key : EditorKey)
  deriving DecidableEq, Repr

/-- The operation is one that a session has a key or a click for: text comes one character at a time,
and a tag comes from the shown suggestions. -/
def Operation.isOffered : Operation → Bool
  | .input _ | .add _ => false
  | _ => true

/-- The editor after an operation. One that is refused changes nothing. -/
def perform (e : Editor) : Operation → Editor
  | .input text => e.input text
  | .push c => e.push c
  | .pop => e.pop
  | .add tag => e.add tag
  | .select index => (e.select? index).getD e
  | .delete index => ((e.delete? index).map (·.2)).getD e
  | .clear => e.clear
  | .press key => (e.press key).1

/-- A new editor over a catalog after some operations. -/
def after (catalog : Catalog) (operations : List Operation) : Editor :=
  operations.foldl perform ⟨catalog, [], "", none⟩

/-- What holds of a new editor and is kept by every operation holds after any of them. -/
theorem after_induction {P : Editor → Prop} {catalog : Catalog} (start : P ⟨catalog, [], "", none⟩)
    (step : ∀ e op, P e → P (e.perform op)) (operations : List Operation) :
    P (after catalog operations) :=
  List.foldlRecOn operations perform start fun e he op _ => step e op he

/-! ## The text field -/

/-- A text ends in an operand symbol, or it does not. -/
theorem exists_or_forall_getLast? (cs : List Char) :
    (∃ op : Operand, cs.getLast? = some op.toChar) ∨ ∀ c ∈ cs.getLast?, Operand.ofChar? c = none := by
  cases hlast : cs.getLast? with
  | none => exact Or.inr (by simp)
  | some c =>
    cases hc : Operand.ofChar? c with
    | none =>
      refine Or.inr fun d hd => ?_
      cases hd
      exact hc
    | some op => exact Or.inl ⟨op, by rw [Operand.ofChar?_eq_some_iff.1 hc]⟩

section

variable {e : Editor}

/-- A text that does not end in an operand symbol becomes the free text. -/
theorem input_of_getLast? {text : String}
    (h : ∀ c ∈ text.toList.getLast?, Operand.ofChar? c = none) :
    e.input text = { e with freeText := text, highlighted := none } := by
  have hkeystroke : Keystroke.ofText text = .append text := by
    rw [Keystroke.ofText, Option.bind_eq_none_iff.2 h]
  rw [input, hkeystroke]

/-- A text that ends in an operand symbol commits the operand. -/
theorem input_of_operand {text : String} {op : Operand}
    (h : text.toList.getLast? = some op.toChar) : e.input text = e.add (.ofOperand op) := by
  have hkeystroke : Keystroke.ofText text = .commit op := by
    simp [Keystroke.ofText, h]
  rw [input, hkeystroke]
  rfl

/-- A text that changes makes another list, in which nothing is highlighted yet. -/
@[simp] theorem highlighted_input (e : Editor) (text : String) :
    (e.input text).highlighted = none := by
  rw [input]
  cases Keystroke.ofText text <;> rfl

theorem push_of_operand {c : Char} {op : Operand} (h : Operand.ofChar? c = some op) :
    e.push c = e.add (.ofOperand op) :=
  input_of_operand (by simp [typed, Operand.ofChar?_eq_some_iff.1 h])

/-- Any other character only makes the text longer. -/
theorem push_of_not_operand {c : Char} (h : Operand.ofChar? c = none) :
    e.push c = { e with freeText := e.freeText.push c, highlighted := none } :=
  input_of_getLast? (by simpa [typed] using h)

/-- Erasing takes the last character away. -/
theorem erased?_of_ne (h : e.freeText ≠ "") :
    e.erased? = some (String.ofList e.freeText.toList.dropLast) := by
  simp [erased?, h]

/-- With no text there is nothing to erase; tags are erased by another key. -/
theorem pop_of_empty (h : e.freeText = "") : e.pop = e := by
  simp [pop, erased?, h]

/-- The plain case: the character before the last is no operand. -/
theorem pop_of_getLast? (hne : e.freeText ≠ "")
    (hlast : ∀ c ∈ e.freeText.toList.dropLast.getLast?, Operand.ofChar? c = none) :
    e.pop = { e with freeText := String.ofList e.freeText.toList.dropLast, highlighted := none } := by
  rw [pop, erased?_of_ne hne]
  exact input_of_getLast? (by rwa [String.toList_ofList])

/-- The other case: an operand in the middle of the text is committed when it comes to the end. -/
theorem pop_of_operand {op : Operand} (hlast : e.freeText.toList.dropLast.getLast? = some op.toChar) :
    e.pop = e.add (.ofOperand op) := by
  have hne : e.freeText ≠ "" := by
    intro h
    rw [h] at hlast
    cases hlast
  rw [pop, erased?_of_ne hne]
  exact input_of_operand (by rwa [String.toList_ofList])

end

/-! ## What an operation does -/

/-- The changed text that an operation brings into the text field. -/
def changedText? (e : Editor) : Operation → Option String
  | .input text => some text
  | .push c => some (e.typed c)
  | .pop => e.erased?
  | _ => none

/-- The editor that can come of an operation. Only `unchanged` and `moved` leave the highlight. -/
inductive Effect (e : Editor) (op : Operation) : Editor → Prop where
  /-- There is nothing to do. -/
  | unchanged : Effect e op e
  /-- The changed text does not end in an operand symbol and becomes the free text. -/
  | kept {text : String} (htext : e.changedText? op = some text)
      (hlast : ∀ c ∈ text.toList.getLast?, Operand.ofChar? c = none) :
      Effect e op { e with freeText := text, highlighted := none }
  | committed {text : String} {operand : Operand} (htext : e.changedText? op = some text)
      (hlast : text.toList.getLast? = some operand.toChar) : Effect e op (e.add (.ofOperand operand))
  | added {tag : Tag} (hop : op = .add tag) : Effect e op (e.add tag)
  | chosen {tag : Tag} (hshown : tag ∈ e.shown) : Effect e op (e.add tag)
  | deleted {tags : List Tag} (htags : tags.Sublist e.tags) :
      Effect e op { e with tags, highlighted := none }
  | cleared (hop : op = .clear) : Effect e op e.clear
  | moved (down : Bool) : Effect e op (e.move down)

/-- Three operations change the text, and all go through the same function. -/
theorem input_effect {e : Editor} {op : Operation} {text : String}
    (htext : e.changedText? op = some text) : Effect e op (e.input text) := by
  rcases exists_or_forall_getLast? text.toList with ⟨operand, hlast⟩ | hlast
  · rw [input_of_operand hlast]
    exact .committed htext hlast
  · rw [input_of_getLast? hlast]
    exact .kept htext hlast

theorem chosen?_mem_shown {e : Editor} {tag : Tag} (h : e.chosen? = some tag) : tag ∈ e.shown := by
  rw [chosen?, Option.or_eq_some_iff] at h
  rcases h with h | ⟨_, h⟩
  · obtain ⟨i, _, hi⟩ := Option.bind_eq_some_iff.1 h
    exact List.mem_of_getElem? hi
  · exact List.mem_of_mem_head? h

/-- The keys, each by the effect of what it does. -/
theorem press_effect (e : Editor) (key : EditorKey) : Effect e (.press key) (e.press key).1 := by
  cases key with
  | enter =>
    rw [press]
    cases hchosen : e.chosen? with
    | none => exact .unchanged
    | some tag => exact .chosen (chosen?_mem_shown hchosen)
  | backspace =>
    rw [press]
    split
    · exact .deleted (List.dropLast_sublist _)
    · exact .unchanged
  -- the arrows leave the text alone, so the list that the highlight moves on stays
  | down | up => exact .moved _

/-- The inversion lemma of the editor: all that an operation can do. The invariants below use it. -/
theorem perform_effect (e : Editor) (op : Operation) : Effect e op (e.perform op) := by
  cases op with
  | input text => exact input_effect rfl
  | push c => exact input_effect rfl
  | pop =>
    rw [perform, pop]
    cases herased : e.erased? with
    -- no text to shorten
    | none => exact .unchanged
    | some text => exact input_effect herased
  | add tag => exact .added rfl
  | select index =>
    rw [perform, select?]
    cases hshown : e.shown[index]? with
    -- no such suggestion: the editor is as it was
    | none => exact .unchanged
    | some tag => exact .chosen (List.mem_of_getElem? hshown)
  | delete index =>
    rw [perform, delete?]
    cases e.tags[index]? with
    | none => exact .unchanged
    | some tag => exact .deleted (List.eraseIdx_sublist ..)
  | clear => exact .cleared rfl
  | press key => exact press_effect e key

/-- No operation changes the catalog. -/
theorem Effect.catalog_eq {e e' : Editor} {op : Operation} (h : Effect e op e') :
    e'.catalog = e.catalog := by
  cases h <;> rfl

theorem catalog_perform (e : Editor) (op : Operation) : (e.perform op).catalog = e.catalog :=
  (perform_effect e op).catalog_eq

theorem catalog_after (catalog : Catalog) (operations : List Operation) :
    (after catalog operations).catalog = catalog :=
  after_induction (P := fun e => e.catalog = catalog) rfl
    (fun e op he => (catalog_perform e op).trans he) operations

/-! ## Keys that are ignored -/

/-- Enter has nothing to commit, or Backspace no tag to delete and perhaps a text to shorten. -/
theorem press_ignored_iff {e : Editor} {key : EditorKey} :
    (e.press key).2 = .ignored ↔
      key = .enter ∧ e.shown = [] ∨ key = .backspace ∧ (e.freeText ≠ "" ∨ e.tags = []) := by
  cases key with
  | enter =>
    have hchosen : e.chosen? = none ↔ e.shown = [] := by
      rw [chosen?, Option.or_eq_none_iff, List.head?_eq_none_iff, Option.bind_eq_none_iff]
      refine ⟨fun h => h.2, fun h => ⟨fun i _ => ?_, h⟩⟩
      rw [h]
      rfl
    rw [press]
    cases h : e.chosen? <;> simp [h, ← hchosen]
  | backspace =>
    by_cases htext : e.freeText = "" <;> by_cases htags : e.tags = [] <;> simp [press, htext, htags]
  | down | up => simp [press]

theorem press_of_ignored {e : Editor} {key : EditorKey} (h : (e.press key).2 = .ignored) :
    (e.press key).1 = e := by
  cases key with
  | enter =>
    rw [press] at h ⊢
    cases hchosen : e.chosen? with
    | none => rfl
    | some tag =>
      rw [hchosen] at h
      cases h
  | backspace =>
    rw [press] at h ⊢
    split
    · next hdeletes =>
      rw [if_pos hdeletes] at h
      cases h
    · rfl
  | down | up => cases h

/-! ## The highlight -/

/-- The highlight, if there is one, is the position of a shown suggestion. -/
def HighlightInRange (e : Editor) : Prop :=
  ∀ i, e.highlighted = some i → i < e.shown.length

theorem HighlightInRange.of_none {e : Editor} (h : e.highlighted = none) : e.HighlightInRange := by
  intro i hi
  rw [h] at hi
  cases hi

/-- A moved highlight stays on the list, wherever it was before. -/
theorem moved_lt {length i : Nat} {down : Bool} {highlighted : Option Nat}
    (h : moved length down highlighted = some i) : i < length := by
  unfold moved at h
  split at h
  · cases h
  · cases highlighted <;> cases down <;> grind

/-- What an operation does keeps the highlight on the list or takes it away. -/
theorem Effect.highlightInRange {e e' : Editor} {op : Operation} (h : Effect e op e')
    (he : e.HighlightInRange) : e'.HighlightInRange := by
  cases h with
  | unchanged => exact he
  | moved down => exact fun i hi => moved_lt hi
  | kept | committed | added | chosen | deleted | cleared => exact .of_none rfl

/-- The invariant of a run: what is highlighted is in the list that is shown. -/
theorem after_highlightInRange (catalog : Catalog) (operations : List Operation) :
    (after catalog operations).HighlightInRange :=
  after_induction (P := HighlightInRange) (.of_none rfl)
    (fun e op he => (perform_effect e op).highlightInRange he) operations

/-! ## The suggestions that carry the highlight -/

/-- Every entry that is shown makes one suggestion. -/
theorem length_suggestions (e : Editor) : e.suggestions.length = e.shown.length :=
  List.length_mapIdx

theorem suggestions_eq_nil_iff {e : Editor} : e.suggestions = [] ↔ e.shown = [] :=
  List.mapIdx_eq_nil_iff

/-- A suggestion knows its position, and has the tag that is shown there. -/
theorem index_of_getElem?_suggestions {e : Editor} {j : Nat} {view : SuggestionView}
    (h : e.suggestions[j]? = some view) : view.index = j ∧ e.shown[j]? = some view.tag := by
  rw [suggestions, List.getElem?_mapIdx, Option.map_eq_some_iff] at h
  obtain ⟨tag, htag, rfl⟩ := h
  exact ⟨rfl, htag⟩

/-- The positions of the suggestions are all those of the list, in order. -/
theorem map_index_suggestions (e : Editor) :
    e.suggestions.map (·.index) = List.range e.shown.length := by
  apply List.ext_getElem
  · simp [suggestions]
  · intro i hi hi'
    simp [suggestions]

/-- A suggestion is marked at the position of the highlight only. -/
theorem highlighted_of_mem_suggestions {e : Editor} {view : SuggestionView}
    (h : view ∈ e.suggestions) : view.highlighted = decide (e.highlighted = some view.index) := by
  rw [suggestions, List.mem_mapIdx] at h
  obtain ⟨i, hi, rfl⟩ := h
  rfl

/-- A highlight on the list is carried by one suggestion. -/
theorem countP_highlighted {e : Editor} (h : e.HighlightInRange) :
    e.suggestions.countP (·.highlighted) = if e.highlighted.isSome then 1 else 0 := by
  -- count the numbers of the suggestions instead of the suggestions
  have hindex : e.suggestions.countP (·.highlighted) =
      (List.range e.shown.length).countP fun i => e.highlighted = some i := by
    rw [← map_index_suggestions, List.countP_map]
    apply List.countP_congr
    intro view hview
    rw [highlighted_of_mem_suggestions hview]
    exact Iff.rfl
  rw [hindex]
  cases hhighlighted : e.highlighted with
  | none => simp
  | some k =>
    have hcount := List.count_range (a := k) (n := e.shown.length)
    rw [if_pos (h k hhighlighted), List.count] at hcount
    rw [Option.isSome_some, if_pos rfl, ← hcount]
    apply List.countP_congr
    intro i _
    simp only [Option.some.injEq, decide_eq_true_eq, beq_iff_eq]
    exact eq_comm

/-- **The highlight is always on the list.** After any operations on a new editor the highlight, if
there is one, is the position of an entry of the catalog's suggestions for the free text, and then
exactly one of the suggestions carries it; otherwise none does. -/
theorem highlighted_lt_shown (catalog : Catalog) (operations : List Operation) :
    (∀ i, (after catalog operations).highlighted = some i →
      i < (Suggestion.shown catalog.entries (after catalog operations).freeText).length) ∧
    (after catalog operations).suggestions.countP (·.highlighted) =
      if (after catalog operations).highlighted.isSome then 1 else 0 := by
  have hrange := after_highlightInRange catalog operations
  refine ⟨fun i hi => ?_, countP_highlighted hrange⟩
  have hlt := hrange i hi
  rwa [shown, catalog_after] at hlt

/-- With one entry in the catalog the first press of an arrow highlights it. -/
theorem highlighted_first_lt_shown :
    0 < (Suggestion.shown [Tag.ofOperand .add] "").length ∧
      (after ⟨[Tag.ofOperand .add]⟩ [.press .down]).suggestions.countP (·.highlighted) = 1 :=
  have h := highlighted_lt_shown ⟨[Tag.ofOperand .add]⟩ [.press .down]
  ⟨h.1 0 rfl, h.2⟩

end Editor

end TagFormula
