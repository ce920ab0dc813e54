import TagFormula.Proofs.ErrorPosition

/-!
# Parentheses without partners

A parenthesis is reported as unbalanced in three places: an opening one at the end of a formula that
does not close it, a closing one behind a complete sum, and a closing one where an operand has to come.
In the first two it has no partner. In the third it may have one: in `( )` what is missing is an
operand.

* **`parenPairs`**, **`Unpaired`**: the partners among the parentheses of some tokens, matched with a
  stack.
* **`unpaired_of_mem_openGroups`**, **`unpaired_of_openGroups_eq_nil`**: what is still open at the end
  has no partner, and a closing parenthesis has none if nothing is open before it.
* **`Cursor.unbalanced_of_step`**, **`Cursor.operand_of_advance`**: where a closing parenthesis is
  refused, and what stands before a place where an operand has to come.
* **`Tree.ofTokens_unbalanced_cases`**: each report, and when it is true; `( )` is one that is not.
-/

namespace TagFormula

variable {ν : Type}

/-! ## Partners

Along the tokens the opening parentheses wait as in `openGroups`, and a closing one is the partner of
the innermost that waits. -/

/-- The token with its partner, if it is a closing parenthesis and one waits for it. -/
def closedBy? (waiting : List (Token ν)) (token : Token ν) : Option (Token ν × Token ν) :=
  match token.lexeme with
  | .operand .closeParen => waiting.head?.map fun opening => (opening, token)
  | _ => none

/-- The partners that the tokens make of each other and of the opening parentheses that wait. -/
def parenPairsFrom (waiting : List (Token ν)) : List (Token ν) → List (Token ν × Token ν)
  | [] => []
  | token :: more => (closedBy? waiting token).toList ++ parenPairsFrom (pairParen waiting token) more

/-- The opening parentheses that are closed, each with the one that closes it. -/
def parenPairs (tokens : List (Token ν)) : List (Token ν × Token ν) :=
  parenPairsFrom [] tokens

/-- The token has no partner among the tokens. -/
def Unpaired (tokens : List (Token ν)) (token : Token ν) : Prop :=
  ∀ pair ∈ parenPairs tokens, pair.1 ≠ token ∧ pair.2 ≠ token

/-- A pair is closed by its second parenthesis, and opened by the innermost one that waits. -/
theorem closedBy?_eq_some {waiting : List (Token ν)} {token : Token ν} {pair : Token ν × Token ν}
    (h : closedBy? waiting token = some pair) :
    waiting.head? = some pair.1 ∧ pair.2 = token ∧ token.lexeme = .operand .closeParen := by
  unfold closedBy? at h
  split at h
  · next hclose =>
    obtain ⟨opening, hopening, rfl⟩ := Option.map_eq_some_iff.1 h
    exact ⟨hopening, rfl, hclose⟩
  · cases h

/-- A closing parenthesis takes its partner away, if there is one. -/
theorem pairParen_of_close {waiting : List (Token ν)} {token : Token ν}
    (h : token.lexeme = .operand .closeParen) : pairParen waiting token = waiting.tail := by
  unfold pairParen
  rw [h]

/-- The pairs of a text in two parts, of which the first one leaves parentheses open. -/
theorem parenPairsFrom_append (waiting before after : List (Token ν)) :
    parenPairsFrom waiting (before ++ after) =
      parenPairsFrom waiting before ++ parenPairsFrom (before.foldl pairParen waiting) after := by
  induction before generalizing waiting with
  | nil => rfl
  | cons token more ih =>
    rw [List.cons_append, parenPairsFrom, ih, parenPairsFrom, List.append_assoc]
    rfl

/-- A pair is made of an opening parenthesis that waits or comes, and of a closing one that comes. -/
theorem mem_parenPairsFrom {waiting tokens : List (Token ν)} {pair : Token ν × Token ν}
    (h : pair ∈ parenPairsFrom waiting tokens) :
    (pair.1 ∈ waiting ∨ pair.1 ∈ tokens ∧ pair.1.lexeme = .operand .openParen) ∧
      pair.2 ∈ tokens ∧ pair.2.lexeme = .operand .closeParen := by
  induction tokens generalizing waiting with
  | nil => cases h
  | cons token more ih =>
    unfold parenPairsFrom at h
    rcases List.mem_append.1 h with hfirst | hmore
    · obtain ⟨hopening, hsecond, hclose⟩ := closedBy?_eq_some (Option.mem_toList.1 hfirst)
      refine ⟨Or.inl (List.mem_of_head? hopening), ?_, ?_⟩
      · rw [hsecond]
        exact List.mem_cons_self
      · rw [hsecond]
        exact hclose
    · -- a pair that is closed later
      obtain ⟨hopening, hclosing, hclose⟩ := ih hmore
      refine ⟨?_, List.mem_cons_of_mem _ hclosing, hclose⟩
      rcases hopening with hwaiting | ⟨hmem, hopen⟩
      · -- what waits behind the token waited before it, or is the token
        have hone : pair.1 ∈ [token].foldl pairParen waiting := hwaiting
        rcases mem_foldl_pairParen hone with hwaiting | ⟨hmem, hopen⟩
        · exact Or.inl hwaiting
        · rw [List.mem_singleton.1 hmem] at hopen ⊢
          exact Or.inr ⟨List.mem_cons_self, hopen⟩
      · exact Or.inr ⟨List.mem_cons_of_mem _ hmem, hopen⟩

/-- What waits and what comes stay different from each other. -/
theorem nodup_pairParen {waiting more : List (Token ν)} {token : Token ν}
    (h : (waiting ++ token :: more).Nodup) : (pairParen waiting token ++ more).Nodup := by
  obtain ⟨hwaiting, hcoming, hapart⟩ := List.nodup_append.1 h
  obtain ⟨htoken, hmore⟩ := List.nodup_cons.1 hcoming
  have hrest : ∀ a ∈ waiting, ∀ b ∈ more, a ≠ b :=
    fun a ha b hb => hapart a ha b (List.mem_cons_of_mem _ hb)
  unfold pairParen
  split
  · -- an opening parenthesis now waits and does not come again
    refine List.nodup_cons.2 ⟨?_, List.nodup_append.2 ⟨hwaiting, hmore, hrest⟩⟩
    intro hmem
    rcases List.mem_append.1 hmem with hbefore | hlater
    · exact hapart token hbefore token List.mem_cons_self rfl
    · exact htoken hlater
  · exact List.nodup_append.2 ⟨hwaiting.tail, hmore,
      fun a ha b hb => hrest a (List.mem_of_mem_tail ha) b hb⟩
  · exact List.nodup_append.2 ⟨hwaiting, hmore, hrest⟩

/-- What still waits at the end was closed by nothing. No token comes twice, so what was closed does
not come to wait again. -/
theorem fst_ne_of_mem_foldl {waiting tokens : List (Token ν)} (hnodup : (waiting ++ tokens).Nodup)
    {token : Token ν} (h : token ∈ tokens.foldl pairParen waiting) {pair : Token ν × Token ν}
    (hpair : pair ∈ parenPairsFrom waiting tokens) : pair.1 ≠ token := by
  induction tokens generalizing waiting with
  | nil => cases hpair
  | cons first more ih =>
    have hparts := List.nodup_append.1 hnodup
    unfold parenPairsFrom at hpair
    rcases List.mem_append.1 hpair with hclosed | hlater
    · -- the pair closed here: its opening parenthesis is on the stack no more, and does not come again
      obtain ⟨hopening, _, hclose⟩ := closedBy?_eq_some (Option.mem_toList.1 hclosed)
      rintro rfl
      have hrest : pair.1 ∈ more.foldl pairParen waiting.tail := by
        rw [← pairParen_of_close hclose]
        exact h
      rcases mem_foldl_pairParen hrest with htail | ⟨hmem, _⟩
      · cases waiting with
        | nil => cases hopening
        | cons top outer =>
          cases hopening
          exact (List.nodup_cons.1 hparts.1).1 htail
      · exact hparts.2.2 _ (List.mem_of_head? hopening) _ (List.mem_cons_of_mem _ hmem) rfl
    · exact ih (nodup_pairParen hnodup) h hlater

/-- What is open at the end of the text has no partner. -/
theorem unpaired_of_mem_openGroups {tokens : List (Token ν)} (hnodup : tokens.Nodup)
    {token : Token ν} (h : token ∈ openGroups tokens) : Unpaired tokens token := by
  intro pair hpair
  refine ⟨@fst_ne_of_mem_foldl ν [] tokens hnodup token h pair hpair, ?_⟩
  -- an opening parenthesis closes nothing
  rintro rfl
  obtain ⟨_, _, hclose⟩ := mem_parenPairsFrom hpair
  rcases mem_foldl_pairParen h with hnil | ⟨_, hopen⟩
  · cases hnil
  · rw [hclose] at hopen
    cases hopen

/-- A closing parenthesis has no partner where nothing is open. -/
theorem unpaired_of_openGroups_eq_nil {before after : List (Token ν)} {token : Token ν}
    (hnodup : (before ++ token :: after).Nodup) (hclose : token.lexeme = .operand .closeParen)
    (hopen : openGroups before = []) : Unpaired (before ++ token :: after) token := by
  intro pair hpair
  have hparts := List.nodup_append.1 hnodup
  constructor
  · -- a closing parenthesis opens nothing
    rintro rfl
    rcases (mem_parenPairsFrom hpair).1 with hnil | ⟨_, hopening⟩
    · cases hnil
    · rw [hclose] at hopening
      cases hopening
  · have hfold : before.foldl pairParen [] = [] := hopen
    unfold parenPairs at hpair
    rw [parenPairsFrom_append, hfold, parenPairsFrom] at hpair
    rintro rfl
    rcases List.mem_append.1 hpair with hbefore | hrest
    · -- a pair before it is closed before it
      obtain ⟨_, hmem, _⟩ := mem_parenPairsFrom hbefore
      exact hparts.2.2 _ hmem _ List.mem_cons_self rfl
    · rcases List.mem_append.1 hrest with hhere | hafter
      · -- here nothing waits that could be closed
        obtain ⟨hhead, _, _⟩ := closedBy?_eq_some (Option.mem_toList.1 hhere)
        cases hhead
      · obtain ⟨_, hmem, _⟩ := mem_parenPairsFrom hafter
        exact (List.nodup_cons.1 hparts.2.1).1 hmem

theorem mem_parenPairs_of_head?_openGroups {before after : List (Token ν)} {token opening : Token ν}
    (hclose : token.lexeme = .operand .closeParen) (hopen : (openGroups before).head? = some opening) :
    (opening, token) ∈ parenPairs (before ++ token :: after) := by
  have hclosed : closedBy? (before.foldl pairParen []) token = some (opening, token) := by
    have hhead : (before.foldl pairParen []).head? = some opening := hopen
    unfold closedBy?
    rw [hclose]
    simp only [hhead, Option.map_some]
  unfold parenPairs
  rw [parenPairsFrom_append, parenPairsFrom, hclosed]
  exact List.mem_append_right _ List.mem_cons_self

/-! ## The places of a report -/

namespace Cursor

/-- What leaves the cursor before an operand is an operator or an opening parenthesis. -/
theorem operand_of_step {cursor : Cursor ν} {token : Token ν} {stack : List (Frame ν)}
    (h : cursor.step token = .ok (operand stack)) :
    ∃ op, token.lexeme = .operand op ∧ op ≠ .closeParen := by
  cases hlexeme : token.lexeme with
  | number value =>
    cases cursor <;> rw [step, hlexeme] at h <;> cases h
  | operand op =>
    refine ⟨op, rfl, ?_⟩
    rintro rfl
    cases cursor with
    | operand stack =>
      rw [step, hlexeme] at h
      cases h
    | operation tree stack =>
      -- a closing parenthesis is refused or completes an operand
      rw [step, hlexeme] at h
      simp only at h
      split at h <;> cases h

/-- An operand has to come at the start, and behind an operator or an opening parenthesis. -/
theorem operand_of_advance {before : List (Token ν)} {stack : List (Frame ν)}
    (h : (operand []).advance before = .ok (operand stack)) {last : Token ν}
    (hlast : before.getLast? = some last) : ∃ op, last.lexeme = .operand op ∧ op ≠ .closeParen := by
  obtain ⟨front, rfl⟩ := List.getLast?_eq_some_iff.1 hlast
  rw [advance_append] at h
  obtain ⟨next, _, hnext⟩ := bind_eq_ok h
  unfold advance at hnext
  obtain ⟨final, hstep, hfinal⟩ := bind_eq_ok hnext
  cases hfinal
  exact operand_of_step hstep

/-- A closing parenthesis is refused where no group waits, or where an operand has to come. -/
theorem unbalanced_of_step {cursor : Cursor ν} {token : Token ν} {position : Nat}
    (h : cursor.step token = .error (.unbalanced position)) :
    position = token.position ∧ token.lexeme = .operand .closeParen ∧
      (cursor.groups = [] ∨ ∃ stack, cursor = operand stack) := by
  obtain ⟨hposition, hclose⟩ := pointsAt_of_step h
  refine ⟨hposition, hclose, ?_⟩
  cases cursor with
  | operand stack => exact Or.inr ⟨stack, rfl⟩
  | operation tree stack =>
    left
    rw [step, hclose] at h
    simp only at h
    rcases unwind_sum_cases tree stack with ⟨whole, heq⟩ | ⟨inner, opening, outer, heq, _⟩
    · have hgroups := filterMap_opening?_unwind true tree stack
      rw [heq] at hgroups
      exact hgroups.symm
    · rw [heq] at h
      cases h

end Cursor

theorem nodup_of_increasing {tokens : List (Token ν)}
    (h : tokens.Pairwise fun a b => a.position < b.position) : tokens.Nodup := by
  refine h.imp ?_
  rintro a _ hlt rfl
  exact Nat.lt_irrefl _ hlt

/-- **An unbalanced parenthesis has no partner, or an operand is missing before it.** The report is about
a parenthesis of the formula. The only one of them with a partner is a closing parenthesis right
behind an operator or an opening parenthesis. -/
theorem Tree.ofTokens_unbalanced_cases {tokens : List (Token ν)} {position : Nat}
    (hpositions : tokens.Pairwise fun a b => a.position < b.position)
    (h : ofTokens tokens = .error (.unbalanced position)) :
    ∃ before token after, tokens = before ++ token :: after ∧ token.position = position ∧
      ((token.lexeme = .operand .openParen ∨ token.lexeme = .operand .closeParen) ∧
          Unpaired tokens token ∨
        token.lexeme = .operand .closeParen ∧ (∃ opening, (opening, token) ∈ parenPairs tokens) ∧
          ∃ last op, before.getLast? = some last ∧ last.lexeme = .operand op ∧
            op ≠ .closeParen) := by
  have hnodup := nodup_of_increasing hpositions
  have hne : tokens ≠ [] := by
    rintro rfl
    cases h
  rw [Cursor.ofTokens_eq_run hne, Cursor.run] at h
  cases hadvance : (Cursor.operand []).advance tokens with
  | ok cursor =>
    -- the formula is over and the innermost group is open
    rw [hadvance] at h
    rcases Cursor.finish_eq_error h with hend | ⟨opening, hhead, heq⟩
    · cases hend
    · cases heq
      rw [Cursor.groups_advance hadvance] at hhead
      have hopening : opening ∈ openGroups tokens := List.mem_of_head? hhead
      obtain ⟨hmem, hlexeme⟩ := (mem_foldl_pairParen hopening).resolve_left List.not_mem_nil
      obtain ⟨before, after, hsplit⟩ := List.append_of_mem hmem
      exact ⟨before, opening, after, hsplit, rfl,
        Or.inl ⟨Or.inl hlexeme, unpaired_of_mem_openGroups hnodup hopening⟩⟩
  | error e =>
    rw [hadvance] at h
    cases h
    obtain ⟨before, token, after, cursor, rfl, hbefore, hstep⟩ := Cursor.advance_eq_error hadvance
    obtain ⟨rfl, hclose, hplace⟩ := Cursor.unbalanced_of_step hstep
    have hgroups : cursor.groups = openGroups before := Cursor.groups_advance hbefore
    refine ⟨before, token, after, rfl, rfl, ?_⟩
    cases hopen : openGroups before with
    | nil =>
      exact Or.inl ⟨Or.inr hclose, unpaired_of_openGroups_eq_nil hnodup hclose hopen⟩
    | cons opening outer =>
      -- it closes a group, so the cursor waits for an operand
      right
      have hhead : (openGroups before).head? = some opening := by rw [hopen]; rfl
      refine ⟨hclose, ⟨opening, mem_parenPairs_of_head?_openGroups hclose hhead⟩, ?_⟩
      rw [hgroups, hopen] at hplace
      obtain ⟨stack, rfl⟩ := hplace.resolve_left (List.cons_ne_nil _ _)
      cases hlast : before.getLast? with
      | none =>
        rw [List.getLast?_eq_none_iff.1 hlast] at hopen
        cases hopen
      | some last =>
        obtain ⟨op, hlexeme, hop⟩ := Cursor.operand_of_advance hbefore hlast
        exact ⟨last, op, rfl, hlexeme, hop⟩

/-- In `( 1 ) + ( 2 * )` the last parenthesis is reported, whose partner is the second opening one. -/
theorem Tree.ofTokens_missing_factor_unbalanced :
    let tokens : List (Token Nat) := [⟨.operand .openParen, 0⟩, ⟨.number 1, 2⟩,
      ⟨.operand .closeParen, 4⟩, ⟨.operand .add, 6⟩, ⟨.operand .openParen, 8⟩, ⟨.number 2, 10⟩,
      ⟨.operand .multiply, 12⟩, ⟨.operand .closeParen, 14⟩]
    ofTokens tokens = .error (.unbalanced 14) ∧
      ∃ before token after, tokens = before ++ token :: after ∧ token.position = 14 ∧
        ((token.lexeme = .operand .openParen ∨ token.lexeme = .operand .closeParen) ∧
            Unpaired tokens token ∨
          token.lexeme = .operand .closeParen ∧ (∃ opening, (opening, token) ∈ parenPairs tokens) ∧
            ∃ last op, before.getLast? = some last ∧ last.lexeme = .operand op ∧
              op ≠ .closeParen) := by
  intro tokens
  have hrefused : ofTokens tokens = .error (.unbalanced 14) := by
    rw [Cursor.ofTokens_eq_run (List.cons_ne_nil _ _)]
    rfl
  exact ⟨hrefused, ofTokens_unbalanced_cases (by decide) hrefused⟩

/-- In `( )` the closing parenthesis is reported, and it is the partner of the opening one. -/
theorem Tree.empty_group_is_paired :
    let opening : Token Nat := ⟨.operand .openParen, 0⟩
    let closing : Token Nat := ⟨.operand .closeParen, 2⟩
    [opening, closing].Pairwise (fun a b => a.position < b.position) ∧
      ofTokens [opening, closing] = .error (.unbalanced closing.position) ∧
      (opening, closing) ∈ parenPairs [opening, closing] ∧
      ¬ Unpaired [opening, closing] closing := by
  intro opening closing
  have hpair : (opening, closing) ∈ parenPairs [opening, closing] := List.mem_cons_self
  refine ⟨by decide, ?_, hpair, fun hunpaired => (hunpaired _ hpair).2 rfl⟩
  rw [Cursor.ofTokens_eq_run (List.cons_ne_nil _ _)]
  rfl

end TagFormula
