import TagFormula.Proofs.EditorRun

/-!
# Typing and erasing

The text field is judged by its last character alone. A character that is typed is the last one, so a
text can be typed through: each operand symbol commits its operand and drops what stood before it, and
what is left is the text behind the last of them. A character that is erased uncovers the one before
it, and an operand symbol that is uncovered is committed like one that is typed. Only a text that was
put into the field as a whole can hold one there.

* **`Editor.typeText`**, **`Editor.typeText_commits_operands`**: a text typed character by character.
* **`Editor.Effect.isPlain`**, **`Editor.isPlain_after`**: where an operand symbol in the text field comes
  from.
* **`Editor.pop_erases_or_commits`**: what erasing does, after any operations.
* **`Editor.uncovered_operand_is_committed`**: erasing one character can commit an operand.
-/

namespace TagFormula

namespace Editor

/-! ## Plain texts -/

/-- A text without operand symbols. -/
def IsPlain (text : String) : Prop :=
  ∀ c ∈ text.toList, Operand.ofChar? c = none

theorem isPlain_empty : IsPlain "" := by
  intro c hc
  cases hc

/-- Erasing brings no operand into a text. -/
theorem IsPlain.dropLast {text : String} (h : IsPlain text) :
    IsPlain (String.ofList text.toList.dropLast) := by
  intro c hc
  rw [String.toList_ofList] at hc
  exact h c ((List.dropLast_sublist _).subset hc)

/-- Only the last character of the text may be an operand symbol, and it is none. -/
theorem IsPlain.of_dropLast {text : String} (h : IsPlain (String.ofList text.toList.dropLast))
    (hlast : ∀ c ∈ text.toList.getLast?, Operand.ofChar? c = none) : IsPlain text := by
  intro c hc
  rcases List.eq_nil_or_concat text.toList with hnil | ⟨front, last, htext⟩
  · rw [hnil] at hc
    cases hc
  · -- the characters are those in front of the last one, and the last one
    rw [htext, List.concat_eq_append] at h hlast hc
    rw [List.mem_append, List.mem_singleton] at hc
    rcases hc with hc | rfl
    · exact h c (by simpa using hc)
    · exact hlast c (by simp)

/-- Characters without an operand symbol, or those before and behind the last one. -/
theorem forall_or_exists_last_operand (cs : List Char) :
    (∀ c ∈ cs, Operand.ofChar? c = none) ∨ ∃ front op back,
      cs = front ++ Operand.toChar op :: back ∧ ∀ c ∈ back, Operand.ofChar? c = none := by
  induction cs with
  | nil => exact Or.inl (by simp)
  | cons c rest ih =>
    rcases ih with hrest | ⟨front, op, back, rfl, hback⟩
    · cases hc : Operand.ofChar? c with
      | none => exact Or.inl (List.forall_mem_cons.2 ⟨hc, hrest⟩)
      | some op => exact Or.inr ⟨[], op, rest, by rw [Operand.ofChar?_eq_some_iff.1 hc]; rfl, hrest⟩
    · exact Or.inr ⟨c :: front, op, back, rfl, hback⟩

/-! ## Typing a text -/

/-- The editor after a text has been typed, one character after the other. -/
def typeText (e : Editor) (text : String) : Editor :=
  text.toList.foldl push e

section

variable (e : Editor)

/-- Typing changes no catalog, so the lists of suggestions can be compared. -/
theorem foldl_push_catalog (cs : List Char) : (cs.foldl push e).catalog = e.catalog := by
  induction cs generalizing e with
  | nil => rfl
  | cons c rest ih => exact (ih _).trans (catalog_perform e (.push c))

/-- Every operand symbol commits its operand, wherever it stands. -/
theorem foldl_push_tags (cs : List Char) :
    (cs.foldl push e).tags = e.tags ++ (cs.filterMap Operand.ofChar?).map Tag.ofOperand := by
  induction cs generalizing e with
  | nil => exact (List.append_nil _).symm
  | cons c rest ih =>
    rw [List.foldl_cons, ih]
    cases hc : Operand.ofChar? c with
    | none => rw [push_of_not_operand hc, List.filterMap_cons_none hc]
    | some op =>
      rw [push_of_operand hc, List.filterMap_cons_some hc, List.map_cons, add, List.append_assoc,
        List.singleton_append]

/-- Without operands the text only gets longer. -/
theorem foldl_push_freeText_of_plain {cs : List Char} (h : ∀ c ∈ cs, Operand.ofChar? c = none) :
    (cs.foldl push e).freeText = e.freeText ++ String.ofList cs := by
  induction cs generalizing e with
  | nil => exact String.append_empty.symm
  | cons c rest ih =>
    rw [List.forall_mem_cons] at h
    rw [List.foldl_cons, ih _ h.2, push_of_not_operand h.1]
    simp [← String.toList_inj]

/-- The last operand symbol drops what was typed before it. -/
theorem foldl_push_freeText_of_operand (front : List Char) (op : Operand) {back : List Char}
    (hback : ∀ c ∈ back, Operand.ofChar? c = none) :
    ((front ++ op.toChar :: back).foldl push e).freeText = String.ofList back := by
  -- whatever the front has left, the operand empties the text field before the back is typed
  rw [List.foldl_append, List.foldl_cons, foldl_push_freeText_of_plain _ hback,
    push_of_operand (Operand.ofChar?_toChar op)]
  exact String.empty_append

theorem foldl_push_highlighted {cs : List Char} (h : cs ≠ []) :
    (cs.foldl push e).highlighted = none := by
  rcases List.eq_nil_or_concat cs with hnil | ⟨front, last, rfl⟩
  · exact absurd hnil h
  · rw [List.concat_eq_append, List.foldl_append]
    exact highlighted_input _ _

end

/-- **A text that is typed commits its operands and leaves what stands behind the last of them.** From
any editor on, whatever its text field holds: the operands come behind the tags, in order. A text
without an operand symbol is left behind the text that was there. Nothing is highlighted. -/
theorem typeText_commits_operands (e : Editor) (text : String) (htext : text ≠ "") :
    let typed := e.typeText text
    typed.tags = e.tags ++ (text.toList.filterMap Operand.ofChar?).map Tag.ofOperand ∧
      ((IsPlain text ∧ typed.freeText = e.freeText ++ text) ∨
        ∃ front op back, text.toList = front ++ Operand.toChar op :: back ∧
          (∀ c ∈ back, Operand.ofChar? c = none) ∧ typed.freeText = String.ofList back) ∧
      typed.highlighted = none ∧ typed.catalog = e.catalog := by
  intro typed
  have hne : text.toList ≠ [] := by
    rwa [Ne, String.toList_eq_nil_iff]
  refine ⟨foldl_push_tags e _, ?_, foldl_push_highlighted e hne, foldl_push_catalog e _⟩
  rcases forall_or_exists_last_operand text.toList with hplain | ⟨front, op, back, heq, hback⟩
  · have hleft := foldl_push_freeText_of_plain e hplain
    rw [String.ofList_toList] at hleft
    exact Or.inl ⟨hplain, hleft⟩
  · have hleft := foldl_push_freeText_of_operand e front op hback
    rw [← heq] at hleft
    exact Or.inr ⟨front, op, back, heq, hback, hleft⟩

/-- Two operands are committed, and the operand symbol that the text field held stays text. -/
theorem typeText_behind_sum :
    let e : Editor := ⟨Catalog.reference, [.ofOperand .openParen], "a+b", some 2⟩
    "1/2-3" ≠ "" ∧
      (e.typeText "1/2-3").tags = [.ofOperand .openParen, .ofOperand .divide, .ofOperand .subtract] ∧
      "c" ≠ "" ∧ (e.typeText "c").freeText = "a+bc" ∧ (e.typeText "c").highlighted = none := by
  intro e
  have hoperands : "1/2-3" ≠ "" := by decide
  have hplain : "c" ≠ "" := by decide
  obtain ⟨_, htext, hhighlighted, _⟩ := typeText_commits_operands e "c" hplain
  refine ⟨hoperands, (typeText_commits_operands e "1/2-3" hoperands).1, hplain, ?_, hhighlighted⟩
  rcases htext with ⟨_, htext⟩ | ⟨front, op, back, heq, _⟩
  · exact htext
  · -- the text has no operand symbol
    have hmem : op.toChar ∈ "c".toList := by
      rw [heq]
      exact List.mem_append_right _ List.mem_cons_self
    revert hmem
    cases op <;> decide

/-! ## Where an operand symbol in the text field comes from -/

/-- Without its last character a typed text is the old one, and an erased text is a part of it. -/
theorem IsPlain.changedText {e : Editor} (h : IsPlain e.freeText) {op : Operation} {text : String}
    (htext : e.changedText? op = some text)
    (hinput : ∀ text, op = .input text → IsPlain (String.ofList text.toList.dropLast)) :
    IsPlain (String.ofList text.toList.dropLast) := by
  cases op with
  | input new =>
    cases htext
    exact hinput text rfl
  | push c =>
    cases htext
    -- the text before the character that is typed
    simpa [typed] using h
  | pop =>
    change e.erased? = some text at htext
    by_cases hne : e.freeText = ""
    · simp [erased?, hne] at htext
    · rw [erased?_of_ne hne] at htext
      cases htext
      exact h.dropLast.dropLast
  | _ => cases htext

/-- The step: an operand leaves the text when it is typed. Only a text that is put in as a whole can
bring one in. -/
theorem Effect.isPlain {e e' : Editor} {op : Operation} (heffect : Effect e op e')
    (h : IsPlain e.freeText)
    (hinput : ∀ text, op = .input text → IsPlain (String.ofList text.toList.dropLast)) :
    IsPlain e'.freeText := by
  cases heffect with
  | kept htext hlast => exact (h.changedText htext hinput).of_dropLast hlast
  | committed | added | chosen | cleared => exact isPlain_empty
  | unchanged | deleted | moved => exact h

/-- An operand symbol comes into the text field only within a text that is put there as a whole. -/
theorem isPlain_after (catalog : Catalog) {operations : List Operation}
    (hinputs : ∀ text, .input text ∈ operations → IsPlain (String.ofList text.toList.dropLast)) :
    IsPlain (after catalog operations).freeText := by
  have hstart : IsPlain (⟨catalog, [], "", none⟩ : Editor).freeText := isPlain_empty
  refine List.foldlRecOn (motive := fun e => IsPlain e.freeText) operations perform hstart ?_
  intro e he op hop
  exact (perform_effect e op).isPlain he fun text heq => hinputs text (heq ▸ hop)

/-! ## Erasing a character -/

/-- A plain text without its last character stays text. -/
theorem pop_of_isPlain {e : Editor} (h : IsPlain e.freeText) (hne : e.freeText ≠ "") :
    e.pop = { e with freeText := String.ofList e.freeText.toList.dropLast, highlighted := none } :=
  pop_of_getLast? hne fun c hc => h c ((List.dropLast_sublist _).subset (List.mem_of_getLast? hc))

/-- **Erasing takes the last character away, unless it uncovers an operand symbol.** After any
operations that leave a text: if what is left of the text does not end in an operand symbol, it becomes
the text and the tags stay; if it does, that operand is committed and the text is dropped. The latter
comes about only behind a text that was put into the field as a whole with an operand symbol before its
last character. -/
theorem pop_erases_or_commits (catalog : Catalog) (operations : List Operation)
    (htext : (after catalog operations).freeText ≠ "") :
    let e := after catalog operations
    let shortened := String.ofList e.freeText.toList.dropLast
    (e.pop.tags = e.tags ∧ e.pop.freeText = shortened ↔
        ∀ op : Operand, shortened.toList.getLast? ≠ some op.toChar) ∧
      (∀ op : Operand, shortened.toList.getLast? = some op.toChar →
        e.pop = ⟨catalog, e.tags ++ [.ofOperand op], "", none⟩) ∧
      ((∀ text, .input text ∈ operations → IsPlain (String.ofList text.toList.dropLast)) →
        e.pop = { e with freeText := shortened, highlighted := none }) := by
  intro e shortened
  have hshortened : shortened.toList = e.freeText.toList.dropLast := String.toList_ofList
  have hcommits : ∀ op : Operand, shortened.toList.getLast? = some op.toChar →
      e.pop = ⟨catalog, e.tags ++ [.ofOperand op], "", none⟩ := by
    intro op hlast
    rw [hshortened] at hlast
    rw [pop_of_operand hlast, add, catalog_after]
  refine ⟨⟨fun ⟨htags, _⟩ op hlast => ?_, fun hnone => ?_⟩, hcommits,
    fun hinputs => pop_of_isPlain (isPlain_after catalog hinputs) htext⟩
  · -- with the operand there is a tag more
    rw [hcommits op hlast] at htags
    simp at htags
  · -- no operand at the end, so the shortened text is put in as it is
    rcases exists_or_forall_getLast? e.freeText.toList.dropLast with ⟨op, hlast⟩ | hlast
    · exact absurd (hshortened ▸ hlast) (hnone op)
    · rw [pop_of_getLast? htext hlast]
      exact ⟨rfl, rfl⟩

/-- From `n/ab` the last character is erased; the next one is not, but the operand is committed. -/
theorem pop_erases_then_commits :
    let set : Operation := .input "n/ab"
    (after Catalog.reference [set]).freeText ≠ "" ∧
      (after Catalog.reference [set]).pop.tags = [] ∧
      (after Catalog.reference [set]).pop.freeText = "n/a" ∧
      (after Catalog.reference [set, .pop]).freeText ≠ "" ∧
      (after Catalog.reference [set, .pop]).pop =
        ⟨Catalog.reference, [.ofOperand .divide], "", none⟩ := by
  intro set
  have htext : (after Catalog.reference [set]).freeText = "n/ab" := by decide +kernel
  have hshorter : (after Catalog.reference [set, .pop]).freeText = "n/a" := by decide +kernel
  have htags : (after Catalog.reference [set]).tags = [] := by decide +kernel
  have hnone : (after Catalog.reference [set, .pop]).tags = [] := by decide +kernel
  have hne : (after Catalog.reference [set]).freeText ≠ "" := by simp [htext]
  have hshorterNe : (after Catalog.reference [set, .pop]).freeText ≠ "" := by simp [hshorter]
  obtain ⟨herases, _⟩ := pop_erases_or_commits Catalog.reference [set] hne
  obtain ⟨_, hcommits, _⟩ := pop_erases_or_commits Catalog.reference [set, .pop] hshorterNe
  rw [htext, htags] at herases
  rw [hshorter, hnone] at hcommits
  obtain ⟨hkept, hleft⟩ := herases.2 fun op => by cases op <;> decide
  exact ⟨hne, hkept, hleft, hshorterNe, hcommits .divide (by decide)⟩

/-- Without its last character `a+b` ends in an operand symbol: erasing `b` adds the tag `+` and drops
the `a`. -/
theorem uncovered_operand_is_committed :
    let e := after Catalog.reference [.input "a+b"]
    e.freeText = "a+b" ∧ e.tags = [] ∧ e.pop.tags = [.ofOperand .add] ∧ e.pop.freeText = "" ∧
      ¬ (e.pop.tags = e.tags ∧ e.pop.freeText = String.ofList e.freeText.toList.dropLast) := by
  decide +kernel

end Editor

end TagFormula
