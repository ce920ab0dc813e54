import Mathlib.Data.Int.ModEq
import TagFormula.Proofs.EditorRun
import TagFormula.Proofs.SuggestionOrder

/-!
# Choosing a suggestion

The arrow keys carry the highlight around the list of suggestions as around a ring, and Enter or a
click commits a suggestion of the list. The list is computed anew each time it is read: for the
suggestions that are shown, for the length of the ring and for what is committed. The three agree
because a highlight is always a position on the list, and a key that moves it leaves the text alone.

* **`Editor.pressAll`**: keys pressed one after the other.
* **`Editor.exists_moved_some`**: one step on the ring.
* **`Editor.pressAll_arrows`**, **`Editor.pressAll_arrows_turns`**: any number of steps, from a highlight
  and from none.
* **`Editor.chosen?_of_mem_suggestions`**, **`Editor.chosen?_of_not_highlighted`**: what Enter commits, told
  by what is shown.
* **`Editor.enter_and_select_commit_shown`**: both ways to commit a suggestion.
-/

namespace TagFormula

namespace Editor

/-! ## One step on the ring -/

section

variable {length i : Nat}

/-- The first press of Down chooses the first entry. -/
theorem moved_down_none (h : 0 < length) : moved length true none = some 0 := by
  rw [moved, if_neg (Nat.ne_of_gt h)]

theorem moved_down_some (h : i + 1 < length) : moved length true (some i) = some (i + 1) := by
  rw [moved, if_neg (by omega)]
  exact if_pos h

theorem moved_down_last (h : i + 1 = length) : moved length true (some i) = some 0 := by
  rw [moved, if_neg (by omega)]
  exact if_neg (by omega)

theorem moved_up_none (h : 0 < length) : moved length false none = some (length - 1) := by
  rw [moved, if_neg (Nat.ne_of_gt h)]

theorem moved_up_some (hi : 0 < i) (h : i < length) :
    moved length false (some i) = some (i - 1) := by
  rw [moved, if_neg (by omega)]
  exact if_pos (by simp [hi, h])

theorem moved_up_first (h : 0 < length) : moved length false (some 0) = some (length - 1) := by
  rw [moved, if_neg (Nat.ne_of_gt h)]
  rfl

/-- The last position is the one before the first. -/
theorem last_modEq (h : 0 < length) : ((length - 1 : Nat) : Int) ≡ -1 [ZMOD length] := by
  rw [Int.modEq_iff_dvd]
  exact ⟨-1, by omega⟩

/-- A step leads from a position on the list to the next one, or to the one before, on the ring. -/
theorem exists_moved_some (h : i < length) (down : Bool) :
    ∃ j < length, moved length down (some i) = some j ∧
      (j : Int) ≡ i + (if down then 1 else -1) [ZMOD length] := by
  cases down with
  | true =>
    by_cases hlast : i + 1 = length
    · refine ⟨0, by omega, moved_down_last hlast, ?_⟩
      -- one step behind the last position is a whole round
      rw [Int.modEq_iff_dvd]
      show (length : Int) ∣ (i : Int) + 1 - (0 : Nat)
      exact ⟨1, by omega⟩
    · exact ⟨i + 1, by omega, moved_down_some (by omega), rfl⟩
  | false =>
    by_cases hfirst : i = 0
    · subst hfirst
      refine ⟨length - 1, by omega, moved_up_first h, ?_⟩
      simpa using last_modEq h
    · refine ⟨i - 1, by omega, moved_up_some (by omega) h, ?_⟩
      have hcast : ((i - 1 : Nat) : Int) = i + -1 := by omega
      rw [hcast]
      rfl

/-- Without a highlight, Down does what it does from the last position, and Up what it does from the
first. -/
theorem moved_none (h : 0 < length) (down : Bool) :
    moved length down none = moved length down (some (if down then length - 1 else 0)) := by
  cases down with
  | true => rw [moved_down_none h, if_pos rfl, moved_down_last (by omega)]
  | false => rw [moved_up_none h, if_neg (by simp), moved_up_first h]

end

/-! ## Any number of steps -/

/-- The editor after keys have been pressed one after the other. -/
def pressAll (e : Editor) (keys : List EditorKey) : Editor :=
  keys.foldl (fun e key => (e.press key).1) e

/-- Where on the ring a turn begins: at the highlight; else before the first position if the first key
is Down, and at the first position if it is Up. -/
def turnStart (e : Editor) (keys : List EditorKey) : Int :=
  match e.highlighted with
  | some i => i
  | none => if keys.head? = some .down then -1 else 0

section

variable {e : Editor} {keys : List EditorKey}

/-- Both arrows are one move, so a run of arrows needs no case for each. -/
theorem press_arrow {key : EditorKey} (h : key = .down ∨ key = .up) :
    (e.press key).1 = e.move (key = .down) := by
  rcases h with rfl | rfl <;> rfl

/-- An arrow key without suggestions. -/
theorem move_of_shown_eq_nil (h : e.shown = []) (hhighlighted : e.highlighted = none) (down : Bool) :
    e.move down = e := by
  rw [move, h]
  show { e with highlighted := none } = e
  rw [← hhighlighted]

/-- In an empty list there is nothing to move, however often an arrow is pressed. -/
theorem pressAll_of_shown_eq_nil (harrows : ∀ key ∈ keys, key = .down ∨ key = .up)
    (h : e.shown = []) (hhighlighted : e.highlighted = none) : e.pressAll keys = e := by
  induction keys with
  | nil => rfl
  | cons key rest ih =>
    rw [List.forall_mem_cons] at harrows
    rw [pressAll, List.foldl_cons, press_arrow harrows.1, move_of_shown_eq_nil h hhighlighted]
    exact ih harrows.2

/-- From a highlight on, each Down counts one step forwards and each Up one step backwards. -/
theorem pressAll_arrows (harrows : ∀ key ∈ keys, key = .down ∨ key = .up) {i : Nat}
    (hhighlighted : e.highlighted = some i) (hi : i < e.shown.length) :
    ∃ j < e.shown.length, e.pressAll keys = { e with highlighted := some j } ∧
      (j : Int) ≡ i + (keys.count .down - keys.count .up) [ZMOD e.shown.length] := by
  induction keys generalizing e i with
  | nil =>
    refine ⟨i, hi, ?_, by simp⟩
    rw [← hhighlighted]
    rfl
  | cons key rest ih =>
    rw [List.forall_mem_cons] at harrows
    obtain ⟨j, hj, hmoved, hstep⟩ := exists_moved_some hi (key = .down)
    have hpress : (e.press key).1 = { e with highlighted := some j } := by
      rw [press_arrow harrows.1, move, hhighlighted, hmoved]
    -- the suggestions are the same, so the rest turns on the same ring
    obtain ⟨k, hk, hrest, hturn⟩ := @ih { e with highlighted := some j } harrows.2 j rfl hj
    refine ⟨k, hk, ?_, ?_⟩
    · rw [pressAll, List.foldl_cons, hpress]
      exact hrest
    · have hcount : (if key = .down then 1 else -1) + ((rest.count .down : Int) - rest.count .up) =
          (key :: rest).count .down - (key :: rest).count .up := by
        rcases harrows.1 with rfl | rfl <;> simp <;> omega
      calc (k : Int)
          ≡ j + (rest.count .down - rest.count .up) [ZMOD e.shown.length] := hturn
        _ ≡ i + (if key = .down then 1 else -1) + (rest.count .down - rest.count .up)
            [ZMOD e.shown.length] := by simpa using hstep.add_right _
        _ = i + ((key :: rest).count .down - (key :: rest).count .up) := by
            rw [add_assoc, hcount]

/-- Without a highlight the first key acts as if there were one: at the last position for Down, which is
one before the first on the ring, and at the first position for Up. -/
theorem exists_pressAll_eq (hrange : e.HighlightInRange) (hshown : 0 < e.shown.length)
    (harrows : ∀ key ∈ keys, key = .down ∨ key = .up) (hne : keys ≠ []) :
    ∃ i < e.shown.length, (i : Int) ≡ e.turnStart keys [ZMOD e.shown.length] ∧
      e.pressAll keys = pressAll { e with highlighted := some i } keys := by
  unfold turnStart
  cases hhighlighted : e.highlighted with
  | some i => exact ⟨i, hrange i hhighlighted, rfl, by rw [← hhighlighted]⟩
  | none =>
    obtain ⟨key, rest, rfl⟩ := List.exists_cons_of_ne_nil hne
    have harrow := harrows key List.mem_cons_self
    -- the first arrow then does what it would do from the other end of the list
    let first := if key = .down then e.shown.length - 1 else 0
    have hfirst : (e.press key).1 = (press { e with highlighted := some first } key).1 := by
      rw [press_arrow harrow, press_arrow harrow, move, hhighlighted, moved_none hshown]
      simp [first, move, shown]
    refine ⟨first, ?_, ?_, ?_⟩
    · simp only [first]
      split <;> omega
    · rcases harrow with rfl | rfl
      · simpa [first] using last_modEq hshown
      · simp [first]
    · rw [pressAll, pressAll, List.foldl_cons, List.foldl_cons, hfirst]

end

/-- **The arrow keys turn the highlight around the list.** After any operations, with suggestions to
show: some presses of Down and Up, in any order, lead from where the turn begins as many positions
forwards as Down was pressed more often than Up, on the ring of the suggestions, and change nothing
else. Without suggestions there is no highlight, and the keys change nothing. -/
theorem pressAll_arrows_turns (catalog : Catalog) (operations : List Operation)
    (keys : List EditorKey) (harrows : ∀ key ∈ keys, key = .down ∨ key = .up) (hne : keys ≠ []) :
    let e := after catalog operations
    let n := e.suggestions.length
    (0 < n → ∃ j : Nat, e.pressAll keys = { e with highlighted := some j } ∧
        (j : Int) = (e.turnStart keys + keys.count .down - keys.count .up) % n) ∧
      (n = 0 → e.highlighted = none ∧ e.pressAll keys = e) := by
  intro e n
  have hrange : e.HighlightInRange := after_highlightInRange catalog operations
  have hlength : n = e.shown.length := length_suggestions e
  rw [hlength]
  refine ⟨fun hshown => ?_, fun hnone => ?_⟩
  · obtain ⟨i, hi, hstart, hpress⟩ := exists_pressAll_eq hrange hshown harrows hne
    obtain ⟨j, hj, hturned, hturn⟩ :=
      @pressAll_arrows { e with highlighted := some i } keys harrows i rfl hi
    refine ⟨j, hpress.trans hturned, ?_⟩
    -- a position in the list is its own remainder
    have hsmall : (j : Int) % e.shown.length = j :=
      Int.emod_eq_of_lt (Int.natCast_nonneg j) (Int.ofNat_lt.2 hj)
    rw [add_sub_assoc, ← hsmall]
    exact hturn.trans (hstart.add_right _)
  · have hshown : e.shown = [] := List.length_eq_zero_iff.1 hnone
    have hhighlighted : e.highlighted = none := by
      rw [Option.eq_none_iff_forall_ne_some]
      intro i hi
      exact absurd (hrange i hi) (by omega)
    exact ⟨hhighlighted, pressAll_of_shown_eq_nil harrows hshown hhighlighted⟩

/-- On the eleven entries of an empty text, Up, Up and Down lead to the last one. -/
theorem pressAll_up_up_down :
    let keys : List EditorKey := [.up, .up, .down]
    (∀ key ∈ keys, key = .down ∨ key = .up) ∧ keys ≠ [] ∧
      0 < (after Catalog.reference []).suggestions.length ∧
      (after Catalog.reference []).pressAll keys = ⟨Catalog.reference, [], "", some 10⟩ := by
  intro keys
  have harrows : ∀ key ∈ keys, key = .down ∨ key = .up := by simp [keys]
  have hne : keys ≠ [] := by simp [keys]
  have hlength : (after Catalog.reference []).suggestions.length = 11 := by decide +kernel
  have hshown : 0 < (after Catalog.reference []).suggestions.length := by omega
  obtain ⟨j, hpress, hj⟩ := (pressAll_arrows_turns Catalog.reference [] keys harrows hne).1 hshown
  have hturn : (after Catalog.reference []).turnStart keys + keys.count .down - keys.count .up = -1 := by
    decide
  rw [hlength, hturn] at hj
  obtain rfl : j = 10 := by omega
  exact ⟨harrows, hne, hshown, hpress⟩

/-! ## What is committed -/

section

variable {e : Editor} {view : SuggestionView}

/-- What is shown are the entries that match, whatever their order. -/
theorem mem_shown_iff {tag : Tag} :
    tag ∈ e.shown ↔ tag ∈ e.catalog.entries ∧ Suggestion.keyMatches tag.key e.freeText = true := by
  rw [shown, Suggestion.shown_eq]
  exact List.mem_filter

/-- The chosen entry is the one at the highlight. -/
theorem chosen?_of_highlighted {i : Nat} {tag : Tag} (hhighlighted : e.highlighted = some i)
    (htag : e.shown[i]? = some tag) : e.chosen? = some tag := by
  rw [chosen?, hhighlighted, Option.bind_some, htag]
  rfl

/-- A suggestion keeps the position of its entry in the list that is shown. -/
theorem getElem?_shown_of_mem (h : view ∈ e.suggestions) : e.shown[view.index]? = some view.tag := by
  obtain ⟨j, hj⟩ := List.mem_iff_getElem?.1 h
  obtain ⟨rfl, htag⟩ := index_of_getElem?_suggestions hj
  exact htag

/-- A suggestion that carries the highlight is the one that Enter commits. -/
theorem chosen?_of_mem_suggestions (h : view ∈ e.suggestions) (hhighlighted : view.highlighted = true) :
    e.chosen? = some view.tag := by
  rw [highlighted_of_mem_suggestions h, decide_eq_true_iff] at hhighlighted
  exact chosen?_of_highlighted hhighlighted (getElem?_shown_of_mem h)

/-- If none of the suggestions carries the highlight, there is none that Enter could follow. -/
theorem chosen?_of_not_highlighted (hrange : e.HighlightInRange)
    (h : ∀ view ∈ e.suggestions, view.highlighted = false) :
    e.chosen? = e.suggestions.head?.map (·.tag) := by
  have hcount : e.suggestions.countP (·.highlighted) = 0 := by
    rw [List.countP_eq_zero]
    intro view hview
    simp [h view hview]
  have hnone : e.highlighted = none := by
    rw [countP_highlighted hrange] at hcount
    simpa using hcount
  rw [chosen?, hnone, suggestions, List.head?_mapIdx]
  cases e.shown.head? <;> rfl

theorem press_enter_of_chosen? {tag : Tag} (h : e.chosen? = some tag) :
    e.press .enter = (e.add tag, .handled false) := by
  rw [press, h]

/-- A click on a suggestion does what Enter does for the highlighted one. -/
theorem select?_of_getElem?_suggestions {index : Nat} (h : e.suggestions[index]? = some view) :
    e.select? index = some (e.add view.tag) := by
  rw [select?, (index_of_getElem?_suggestions h).2, Option.map_some]

/-- A selection fails past the end of the list only. -/
theorem isSome_select?_iff {index : Nat} :
    (e.select? index).isSome = true ↔ index < e.suggestions.length := by
  simp [select?, length_suggestions]

end

/-- **Enter and a selection commit what is shown.** After any operations: Enter commits the suggestion
that carries the highlight, and the first one if none does; it is ignored exactly if there are no
suggestions, and then changes nothing. A selection commits the suggestion at its position, and there is
one exactly if the position is on the list. The tags stay in front of the one that is committed, text
and highlight are gone, and each suggestion is an entry of the catalog that matches the text. -/
theorem enter_and_select_commit_shown (catalog : Catalog) (operations : List Operation) :
    let e := after catalog operations
    let committed (tag : Tag) : Editor := ⟨catalog, e.tags ++ [tag], "", none⟩
    (∀ view ∈ e.suggestions, view.highlighted = true →
        e.press .enter = (committed view.tag, .handled false)) ∧
      ((∀ view ∈ e.suggestions, view.highlighted = false) →
        ∀ first, e.suggestions.head? = some first →
          e.press .enter = (committed first.tag, .handled false)) ∧
      ((e.press .enter).2 = .ignored ↔ e.suggestions = []) ∧
      (e.suggestions = [] → (e.press .enter).1 = e) ∧
      (∀ (index : Nat) view, e.suggestions[index]? = some view →
        e.select? index = some (committed view.tag)) ∧
      (∀ index, (e.select? index).isSome = true ↔ index < e.suggestions.length) ∧
      ∀ view ∈ e.suggestions,
        view.tag ∈ catalog.entries ∧ Suggestion.keyMatches view.tag.key e.freeText = true := by
  intro e committed
  have hcatalog : e.catalog = catalog := catalog_after catalog operations
  -- the catalog of a run is the one it started with
  have hadd (tag : Tag) : e.add tag = committed tag := by
    rw [add, hcatalog]
  have hignored : (e.press .enter).2 = .ignored ↔ e.suggestions = [] := by
    rw [press_ignored_iff, suggestions_eq_nil_iff]
    simp
  refine ⟨fun view hview hhighlighted => ?_, fun hnone first hfirst => ?_, hignored,
    fun hempty => press_of_ignored (hignored.2 hempty), fun index view hview => ?_,
    fun index => isSome_select?_iff, fun view hview => ?_⟩
  · rw [press_enter_of_chosen? (chosen?_of_mem_suggestions hview hhighlighted), hadd]
  · -- nothing is highlighted, and then the first entry is chosen
    have hchosen := chosen?_of_not_highlighted (after_highlightInRange catalog operations) hnone
    rw [hfirst] at hchosen
    rw [press_enter_of_chosen? hchosen, hadd]
  · rw [select?_of_getElem?_suggestions hview, hadd]
  · rw [← hcatalog]
    exact mem_shown_iff.1 (List.mem_of_getElem? (getElem?_shown_of_mem hview))

/-- Of three entries two match the text `r`. The second one of them carries the highlight: Enter commits
it, and the first one can still be selected. -/
theorem enter_repairs_or_select_rent :
    let rent : Tag := ⟨"Rent", "1750", by decide +kernel⟩
    let tax : Tag := ⟨"Tax", "815", by decide +kernel⟩
    let repairs : Tag := ⟨"Repairs", "320", by decide +kernel⟩
    let catalog : Catalog := ⟨[rent, tax, repairs]⟩
    let e := after catalog [.add tax, .push 'r', .press .down, .press .down]
    e.suggestions = [⟨0, rent, false⟩, ⟨1, repairs, true⟩] ∧
      e.press .enter = (⟨catalog, [tax, repairs], "", none⟩, .handled false) ∧
      e.select? 0 = some ⟨catalog, [tax, rent], "", none⟩ ∧ e.select? 2 = none := by
  intro rent tax repairs catalog e
  have hviews : e.suggestions = [⟨0, rent, false⟩, ⟨1, repairs, true⟩] := by decide +kernel
  have htags : e.tags = [tax] := by decide +kernel
  obtain ⟨henter, _, _, _, hselect, hbounds, _⟩ := enter_and_select_commit_shown catalog
    [.add tax, .push 'r', .press .down, .press .down]
  have hrepairs := henter ⟨1, repairs, true⟩ (by rw [hviews]; simp) rfl
  have hrent := hselect 0 ⟨0, rent, false⟩ (by rw [hviews]; rfl)
  have hbehind : ¬ (e.select? 2).isSome = true := by
    rw [hbounds, hviews]
    simp
  rw [htags] at hrepairs hrent
  exact ⟨hviews, hrepairs, hrent, by simpa using hbehind⟩

end Editor

end TagFormula
