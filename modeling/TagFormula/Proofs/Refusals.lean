import TagFormula.Proofs.SessionRun

/-!
# What is refused changes nothing

An operation of the editor can answer that there is nothing for it to do, and an event can be answered
as ignored. The answer of a key goes from the editor through the session to whoever sent the event, and
each of them hands on the state that it was left with; so the answer is true only if the state behind
it is the old one at every stage.

* **`Editor.refuses`**: the operation is answered by a refusal.
* **`Editor.perform_of_refuses`**: then the editor is as it was.
* **`Editor.delete?_eq_some_iff`**: what a deletion that is not refused removes.
* **`Session.ignored_changes_nothing`**: both for a session, with the conditions for a refusal.
-/

namespace TagFormula

namespace Editor

/-! ## Operations -/

/-- The operation is answered by a refusal. Text that is put into the text field, a tag that is added
and the clearing of all are never refused. -/
def refuses (e : Editor) : Operation → Bool
  | .pop => e.erased?.isNone
  | .select index => (e.select? index).isNone
  | .delete index => (e.delete? index).isNone
  | .press key => (e.press key).2 = .ignored
  | .input _ | .push _ | .add _ | .clear => false

section

variable {e : Editor}

/-- Erasing has nothing to erase. -/
theorem refuses_pop_iff : e.refuses .pop = true ↔ e.freeText = "" := by
  simp [refuses, erased?]

theorem refuses_select_iff {index : Nat} :
    e.refuses (.select index) = true ↔ e.suggestions.length ≤ index := by
  simp [refuses, select?, length_suggestions]

theorem refuses_delete_iff {index : Nat} :
    e.refuses (.delete index) = true ↔ e.tags.length ≤ index := by
  simp [refuses, delete?]

/-- The arrows and the other keys are never refused by the editor. -/
theorem refuses_press_iff {key : EditorKey} :
    e.refuses (.press key) = true ↔
      key = .enter ∧ e.suggestions = [] ∨
        key = .backspace ∧ (e.freeText ≠ "" ∨ e.tags = []) := by
  rw [refuses, decide_eq_true_iff, press_ignored_iff, suggestions_eq_nil_iff]

/-- An operation that is refused leaves the editor as it was. -/
theorem perform_of_refuses {op : Operation} (h : e.refuses op = true) : e.perform op = e := by
  cases op with
  | input text | push c | add tag | clear => cases h
  | pop =>
    rw [refuses, Option.isNone_iff_eq_none] at h
    rw [perform, pop, h]
  | select index =>
    rw [refuses, Option.isNone_iff_eq_none] at h
    rw [perform, h]
    rfl
  | delete index =>
    rw [refuses, Option.isNone_iff_eq_none] at h
    rw [perform, h]
    rfl
  | press key =>
    rw [refuses, decide_eq_true_iff] at h
    exact press_of_ignored h

/-- A deletion takes out the tag at its position and the highlight, no more. -/
theorem delete?_eq_some_iff {index : Nat} {tag : Tag} {e' : Editor} :
    e.delete? index = some (tag, e') ↔ e.tags[index]? = some tag ∧
      e' = { e with tags := e.tags.take index ++ e.tags.drop (index + 1), highlighted := none } := by
  rw [delete?, Option.map_eq_some_iff, ← List.eraseIdx_eq_take_drop_succ]
  constructor
  · rintro ⟨found, hfound, heq⟩
    cases heq
    exact ⟨hfound, rfl⟩
  · rintro ⟨htag, rfl⟩
    exact ⟨tag, htag, rfl⟩

end

end Editor

namespace Session

/-! ## Events -/

/-- Of all reactions only one is answered as ignored. -/
theorem Reaction.eq_of_ignored {s : Session} {event : Event} {result : Session × Response}
    (h : Reaction s event result) (hignored : result.2 = .ignored) : result.1 = s := by
  cases h with
  | ignored => rfl
  | _ => cases hignored

/-- **What is refused changes nothing.** An event that is answered as ignored leaves the whole session as
it was, in every mode. An operation that the editor refuses leaves the editor as it was; refused are
the erasing of an empty text, positions behind the suggestions or the tags, Enter without a suggestion,
and Backspace with a text or without a tag. A deletion that is not refused gives the tag at its position
and keeps all others in order, and the free text. -/
theorem ignored_changes_nothing :
    (∀ (s : Session) (event : Event), (s.handle event).2 = .ignored → (s.handle event).1 = s) ∧
      (∀ (e : Editor) (op : Editor.Operation), e.refuses op = true → e.perform op = e) ∧
      (∀ e : Editor,
        (e.refuses .pop = true ↔ e.freeText = "") ∧
        (∀ i, e.refuses (.select i) = true ↔ e.suggestions.length ≤ i) ∧
        (∀ i, e.refuses (.delete i) = true ↔ e.tags.length ≤ i) ∧
        ∀ key, e.refuses (.press key) = true ↔ key = .enter ∧ e.suggestions = [] ∨
          key = .backspace ∧ (e.freeText ≠ "" ∨ e.tags = [])) ∧
      ∀ (e e' : Editor) (i : Nat) (tag : Tag), e.delete? i = some (tag, e') →
        e.tags[i]? = some tag ∧
          e' = { e with tags := e.tags.take i ++ e.tags.drop (i + 1), highlighted := none } := by
  refine ⟨fun s event => (handle_reaction s event).eq_of_ignored,
    fun e op => Editor.perform_of_refuses, fun e => ?_,
    fun e e' i tag => Editor.delete?_eq_some_iff.1⟩
  exact ⟨Editor.refuses_pop_iff, fun i => Editor.refuses_select_iff,
    fun i => Editor.refuses_delete_iff, fun key => Editor.refuses_press_iff⟩

/-- Enter without a suggestion is ignored, and even a highlight that points nowhere stays. The first of
two tags can be deleted. -/
theorem ignored_enter_keeps_highlight :
    let e : Editor := ⟨⟨[]⟩, [.ofOperand .add, .ofOperand .power], "x", some 3⟩
    let s := opened e 0 []
    let enter := Event.key { key := .enter } .press
    (s.handle enter).2 = .ignored ∧ (s.handle enter).1 = s ∧
      e.refuses (.press .enter) = true ∧ e.perform (.press .enter) = e ∧
      e.delete? 0 = some (.ofOperand .add, ⟨⟨[]⟩, [.ofOperand .power], "x", none⟩) ∧
      e.tags[0]? = some (.ofOperand .add) := by
  intro e s enter
  obtain ⟨hevent, hoperation, hwhen, hdelete⟩ := ignored_changes_nothing
  have hignored : (s.handle enter).2 = .ignored := by decide +kernel
  have hrefused : e.refuses (.press .enter) = true :=
    ((hwhen e).2.2.2 .enter).2 (Or.inl ⟨rfl, by decide +kernel⟩)
  have hdeleted : e.delete? 0 = some (.ofOperand .add, ⟨⟨[]⟩, [.ofOperand .power], "x", none⟩) := rfl
  exact ⟨hignored, hevent s enter hignored, hrefused, hoperation e _ hrefused, hdeleted,
    (hdelete e _ 0 _ hdeleted).1⟩

end Session

end TagFormula
