import TagFormula.Proofs.ChosenSuggestion
import TagFormula.Proofs.SessionRun
import TagFormula.Proofs.TextField

/-!
# The formula that a session composes

A session commits operands when they are typed and entries of the catalog when they are chosen, and
it keeps operand symbols out of the free text. Backspace depends on that: it hands the shortened text
to the text field, and a text that ended in an operand symbol would commit it instead.

* **`Editor.Known`**: where a committed tag can come from.
* **`Editor.Composed`**: what holds of an editor that only a session has changed.
* **`Editor.perform_composed`**: every operation that a session offers keeps it.
* **`Editor.withoutLast`**, **`Session.erase_eq`**: what Backspace removes.
* **`Session.after_opened_composes`**: all of it for a new session.
-/

namespace TagFormula

namespace Editor

/-! ## What a session makes of an editor -/

/-- The tag is that of a typed operand or an entry of the catalog. -/
def Known (catalog : Catalog) (tag : Tag) : Prop :=
  (∃ op, tag = .ofOperand op) ∨ tag ∈ catalog.entries

/-- The editor stands over the catalog, no operand symbol is left in its text, and all its tags are
known. -/
structure Composed (catalog : Catalog) (e : Editor) : Prop where
  catalog_eq : e.catalog = catalog
  isPlain : IsPlain e.freeText
  known : ∀ tag ∈ e.tags, Known catalog tag

/-- The editor starts with no tags, and an empty text is no obstacle. -/
theorem Composed.start (catalog : Catalog) : Composed catalog ⟨catalog, [], "", none⟩ :=
  ⟨rfl, isPlain_empty, by simp⟩

/-- A property of all tags is kept when a tag with it is added, wherever it is put. -/
theorem forall_mem_add {e : Editor} {new : Tag} {p : Tag → Prop} (h : ∀ tag ∈ e.tags, p tag)
    (hnew : p new) : ∀ tag ∈ (e.add new).tags, p tag := by
  rw [add, List.forall_mem_append, List.forall_mem_singleton]
  exact ⟨h, hnew⟩

/-- What an operation that a session offers does keeps the text plain and the tags known. -/
theorem Effect.composed {catalog : Catalog} {e e' : Editor} {op : Operation} (heffect : Effect e op e')
    (hop : op.isOffered = true) (h : e.Composed catalog) : e'.Composed catalog where
  catalog_eq := heffect.catalog_eq.trans h.catalog_eq
  isPlain := heffect.isPlain h.isPlain (by rintro text rfl; cases hop)
  known := by
    cases heffect with
    | unchanged | kept | moved => exact h.known
    | committed => exact forall_mem_add h.known (Or.inl ⟨_, rfl⟩)
    | chosen hshown =>
      exact forall_mem_add h.known (Or.inr (h.catalog_eq ▸ (mem_shown_iff.1 hshown).1))
    | deleted htags => exact fun tag htag => h.known tag (htags.subset htag)
    | cleared => exact fun tag htag => by cases htag
    | added hadd =>
      rw [hadd] at hop
      cases hop

/-- The step: an operation that the session offers keeps the invariant. -/
theorem perform_composed {catalog : Catalog} {e : Editor} (h : e.Composed catalog) {op : Operation}
    (hop : op.isOffered = true) : (e.perform op).Composed catalog :=
  (perform_effect e op).composed hop h

/-! ## Backspace -/

/-- The editor without the last character of its text, or without its last tag if it has no text. -/
def withoutLast (e : Editor) : Editor :=
  if e.freeText = "" then
    if e.tags = [] then e else { e with tags := e.tags.dropLast, highlighted := none }
  else { e with freeText := String.ofList e.freeText.toList.dropLast, highlighted := none }

end Editor

namespace Session

/-- The editor takes the key only for a tag; with a text it is left to the text field. -/
theorem erase_eq {s : Session} (h : Editor.IsPlain s.editor.freeText) :
    s.erase = { s with editor := s.editor.withoutLast } := by
  rw [erase, Editor.press, Editor.withoutLast]
  by_cases htext : s.editor.freeText = ""
  · by_cases htags : s.editor.tags = []
    · simp [htext, htags, Editor.pop_of_empty htext]
    · simp [htext, htags]
  · simp [htext, Editor.pop_of_isPlain h htext]

/-- The only key that erases, in normal mode. -/
theorem handle_backspace {s : Session} (hmode : s.mode = .normal) {press : KeyPress}
    (hkey : press.key = .backspace) : s.handle (.key press .press) = (s.erase, .goesOn) := by
  simp only [handle, pressKey, hmode, normalKey, hkey]

/-! ## Runs -/

/-- Whatever a session does with an event, its formula stays composed. -/
theorem Reaction.composed {catalog : Catalog} {s : Session} {event : Event}
    {result : Session × Response} (h : Reaction s event result) (hs : s.editor.Composed catalog) :
    result.1.editor.Composed catalog := by
  cases h with
  | ignored | resized | closedHelp _ | dismissed _ | left _ _ | openedHelp _ => exact hs
  | calculated _ =>
    rcases calculate_eq_or s with ⟨_, _, h⟩ | ⟨_, _, h⟩ <;> rw [h] <;> exact hs
  | cleared _ =>
    show (s.editor.perform .clear).Composed catalog
    exact Editor.perform_composed hs rfl
  | edited _ _ hop => exact Editor.perform_composed hs hop

/-- The run of a session. Induction on its actions, with `Reaction.composed` as the step. -/
theorem after_composed {catalog : Catalog} {s : Session} (hs : s.editor.Composed catalog)
    (actions : List Action) : (s.after actions).editor.Composed catalog := by
  refine after_induction (P := fun s => s.editor.Composed catalog) hs (fun s action h => ?_) actions
  cases action with
  | handle event => exact (handle_reaction s event).composed h
  | draw area | wait milliseconds | expire => exact h

/-- **A session composes a formula of known tags, and Backspace takes back one unit of it.** After any
events, frames and pauses of a new session over a catalog, the free text has no operand symbol, and
every committed tag is that of an operand or an entry of the catalog. In normal mode Backspace then
removes the last character of the free text and no tag; without a text, the last tag; without either,
nothing. -/
theorem after_opened_composes (catalog : Catalog) (messageTime : Nat) (hints : List KeyHint)
    (actions : List Action) :
    let s := (opened ⟨catalog, [], "", none⟩ messageTime hints).after actions
    (∀ c ∈ s.editor.freeText.toList, Operand.ofChar? c = none) ∧
      (∀ tag ∈ s.editor.tags, (∃ op, tag = .ofOperand op) ∨ tag ∈ catalog.entries) ∧
      ∀ press : KeyPress, press.key = .backspace → s.mode = .normal →
        let next := (s.handle (.key press .press)).1
        (s.editor.freeText ≠ "" → next = { s with editor := { s.editor with
          freeText := String.ofList s.editor.freeText.toList.dropLast, highlighted := none } }) ∧
        (s.editor.freeText = "" → s.editor.tags ≠ [] → next = { s with editor := { s.editor with
          tags := s.editor.tags.dropLast, highlighted := none } }) ∧
        (s.editor.freeText = "" → s.editor.tags = [] → next = s) := by
  intro s
  have h : s.editor.Composed catalog := after_composed (Editor.Composed.start catalog) actions
  refine ⟨h.isPlain, h.known, fun press hkey hmode => ?_⟩
  intro next
  -- in a composed formula Backspace takes the last character or the last tag
  have hnext : next = { s with editor := s.editor.withoutLast } := by
    rw [← erase_eq h.isPlain]
    exact congrArg Prod.fst (handle_backspace hmode hkey)
  rw [hnext, Editor.withoutLast]
  refine ⟨fun htext => ?_, fun htext htags => ?_, fun htext htags => ?_⟩
  · rw [if_neg htext]
  · rw [if_pos htext, if_neg htags]
  · rw [if_pos htext, if_pos htags]

/-- The keys `a`, `+` and `b` leave the operand and the text `b`, which Backspace erases. -/
theorem after_typing_erases_text :
    let keys := ['a', '+', 'b'].map fun c => Action.handle (.key { key := .character c } .press)
    let s := (opened ⟨Catalog.reference, [], "", none⟩ 0 []).after keys
    s.mode = .normal ∧ s.editor.freeText ≠ "" ∧ s.editor.tags = [.ofOperand .add] ∧
      (s.handle (.key { key := .backspace } .press)).1.editor =
        ⟨Catalog.reference, [.ofOperand .add], "", none⟩ := by
  intro keys s
  obtain ⟨_, _, hbackspace⟩ := after_opened_composes Catalog.reference 0 [] keys
  have hmode : s.mode = .normal := by decide +kernel
  have htext : s.editor.freeText ≠ "" := by decide +kernel
  have htags : s.editor.tags = [.ofOperand .add] := by decide +kernel
  refine ⟨hmode, htext, htags, ?_⟩
  rw [(hbackspace { key := .backspace } rfl hmode).1 htext]
  decide +kernel

end Session

end TagFormula
