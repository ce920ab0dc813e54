import TagFormula.Proofs.FrameStack

/-!
# Where a formula goes wrong

A formula that is no sum is refused at the first token with which it cannot become one any more, or
at its end if it could still become one.

* **`FormulaError.PointsAt`**: the token an error is about.
* **`openGroups`**: the parentheses that are open after some tokens, matched with a stack.
* **`groups_advance`**: the groups on the cursor's stack are these. Induction on the tokens, a
  step at a time.
* **`exists_completion`**: from wherever the cursor stands, a number and some closing parentheses
  complete the formula; so what it has taken was a beginning of a formula.
* **`ofTokens_error_earliest`**: both kinds of errors, for whole formulas.
-/

namespace TagFormula

variable {ν : Type}

/-- The error is about the token. Of the parentheses only a closing one can be where a formula goes
wrong; an opening one is reported when the formula is over. -/
def FormulaError.PointsAt (e : FormulaError ν) (token : Token ν) : Prop :=
  match e with
  | .unexpected _ position | .tooDeep position => position = token.position
  | .unbalanced position => position = token.position ∧ token.lexeme = .operand .closeParen
  | _ => False

/-- An error has one position, so it points at one place. -/
theorem FormulaError.PointsAt.position_eq {e : FormulaError ν} {a b : Token ν}
    (ha : e.PointsAt a) (hb : e.PointsAt b) : a.position = b.position := by
  cases e with
  | unexpected _ position | tooDeep position => exact Eq.trans (Eq.symm ha) hb
  | unbalanced position => exact ha.1.symm.trans hb.1
  | _ => exact ha.elim

/-! ## Open parentheses -/

/-- What a token does to the opening parentheses that wait for their partners, innermost first. -/
def pairParen (waiting : List (Token ν)) (token : Token ν) : List (Token ν) :=
  match token.lexeme with
  | .operand .openParen => token :: waiting
  | .operand .closeParen => waiting.tail
  | _ => waiting

/-- The parentheses that are open after the tokens, innermost first. -/
def openGroups (tokens : List (Token ν)) : List (Token ν) :=
  tokens.foldl pairParen []

/-- A parenthesis that waits for its partner is an opening one of the text. -/
theorem mem_foldl_pairParen {tokens waiting : List (Token ν)} {token : Token ν}
    (h : token ∈ tokens.foldl pairParen waiting) :
    token ∈ waiting ∨ token ∈ tokens ∧ token.lexeme = .operand .openParen := by
  induction tokens generalizing waiting with
  | nil => exact Or.inl h
  | cons first more ih =>
    rcases ih h with hwaiting | ⟨hmem, hopen⟩
    · rw [pairParen] at hwaiting
      split at hwaiting
      · next hlexeme =>
        rcases List.mem_cons.1 hwaiting with rfl | hwaiting
        · exact Or.inr ⟨List.mem_cons_self, hlexeme⟩
        · exact Or.inl hwaiting
      · exact Or.inl (List.mem_of_mem_tail hwaiting)
      · exact Or.inl hwaiting
    · exact Or.inr ⟨List.mem_cons_of_mem _ hmem, hopen⟩

namespace Cursor

/-! ## The groups on the stack -/

/-- The frames that wait for an operand, or for an operator behind it. -/
def stack : Cursor ν → List (Frame ν)
  | operand stack | operation _ stack => stack

/-- The opening parentheses of the groups that wait at the cursor, innermost first. -/
def groups (cursor : Cursor ν) : List (Token ν) :=
  cursor.stack.filterMap Frame.opening?

/-- Frames that are completed have no parenthesis open. -/
theorem filterMap_opening?_unwind (sum : Bool) (tree : Tree ν) (stack : List (Frame ν)) :
    (unwind sum tree stack).2.filterMap Frame.opening? = stack.filterMap Frame.opening? := by
  induction stack generalizing tree with
  | nil => rfl
  | cons frame stack ih =>
    rw [unwind]
    split
    · next hends =>
      rw [ih]
      cases frame <;> first | rfl | cases hends
    · rfl

/-- At the end of a sum everything is completed up to the innermost group. -/
theorem unwind_sum_cases (tree : Tree ν) (stack : List (Frame ν)) :
    (∃ whole, unwind true tree stack = (whole, [])) ∨
      ∃ inner opening outer, unwind true tree stack = (inner, .group opening :: outer) ∧
        outer.length < stack.length := by
  induction stack generalizing tree with
  | nil => exact Or.inl ⟨tree, rfl⟩
  | cons frame stack ih =>
    rw [unwind]
    cases frame with
    | group opening => exact Or.inr ⟨tree, opening, stack, rfl, Nat.lt_succ_self _⟩
    | _ =>
      rcases ih (Frame.complete _ tree) with hwhole | ⟨inner, opening, outer, heq, hlength⟩
      · exact Or.inl hwhole
      · exact Or.inr ⟨inner, opening, outer, heq, Nat.lt_succ_of_lt hlength⟩

theorem groups_link (sum : Bool) (op : BinaryOp) (tree : Tree ν) (stack : List (Frame ν)) :
    (operand (link sum op tree stack)).groups = stack.filterMap Frame.opening? := by
  rw [← filterMap_opening?_unwind sum tree stack]
  cases sum <;> rfl

/-- A phrase that is entered opens at most the group of its own frame. -/
theorem groups_enter {token : Token ν} {frame : Frame ν} {stack : List (Frame ν)}
    {next : Cursor ν} (h : enter token frame stack = .ok next) :
    next.groups = (frame :: stack).filterMap Frame.opening? := by
  rw [enter] at h
  split at h
  · cases h
  · cases h
    rfl

/-- A token does to the groups at the cursor what it does to the open parentheses. -/
theorem groups_step {cursor next : Cursor ν} {token : Token ν}
    (h : cursor.step token = .ok next) : next.groups = pairParen cursor.groups token := by
  rw [pairParen]
  cases cursor with
  | operand stack =>
    rw [step] at h
    cases hlexeme : token.lexeme with
    | number value =>
      rw [hlexeme] at h
      cases h
      rfl
    | operand op =>
      rw [hlexeme] at h
      cases op with
      | add | subtract | openParen => exact groups_enter h
      | _ => cases h
  | operation tree stack =>
    rw [step] at h
    cases hlexeme : token.lexeme with
    | number value => rw [hlexeme] at h; cases h
    | operand op =>
      rw [hlexeme] at h
      cases op with
      | add | subtract | multiply | divide =>
        cases h
        exact groups_link _ _ tree stack
      | power => exact groups_enter h
      | openParen =>
        -- the product begun before the group adds none
        rw [groups_enter h]
        exact congrArg (token :: ·) (groups_link false .multiply tree stack)
      | closeParen =>
        -- the innermost group is closed, and the frames above it are no groups
        have hgroups := filterMap_opening?_unwind true tree stack
        simp only at h
        split at h
        · next inner opening outer heq =>
          cases h
          rw [heq] at hgroups
          exact congrArg List.tail hgroups
        · cases h

/-- The groups of a cursor are the parentheses that are read and have no partner. Induction on the
tokens. -/
theorem groups_advance {cursor next : Cursor ν} {tokens : List (Token ν)}
    (h : cursor.advance tokens = .ok next) : next.groups = tokens.foldl pairParen cursor.groups := by
  induction tokens generalizing cursor with
  | nil =>
    cases h
    rfl
  | cons token more ih =>
    obtain ⟨after, hstep, hmore⟩ := bind_eq_ok h
    rw [ih hmore, groups_step hstep]
    rfl

/-! ## Completing a formula -/

/-- After an operand, closing parentheses complete the formula, one for each group. -/
theorem exists_completion_operation [Inhabited ν] (tree : Tree ν) (stack : List (Frame ν)) :
    ∃ more whole, (operation tree stack).run more = .ok whole := by
  rcases unwind_sum_cases tree stack with ⟨whole, heq⟩ | ⟨inner, opening, outer, heq, hlength⟩
  · refine ⟨[], whole, ?_⟩
    rw [run_nil, finish, heq]
  · obtain ⟨more, whole, hrun⟩ := exists_completion_operation inner outer
    refine ⟨⟨.operand .closeParen, 0⟩ :: more, whole, ?_⟩
    rw [run_cons, step]
    simp only [heq]
    exact hrun
termination_by stack.length

/-- What is read so far can be completed. Where an operand has to come, any number does. -/
theorem exists_completion [Inhabited ν] (cursor : Cursor ν) :
    ∃ more whole, cursor.run more = .ok whole := by
  cases cursor with
  | operation tree stack => exact exists_completion_operation tree stack
  | operand stack =>
    -- any number will do
    obtain ⟨more, whole, hrun⟩ := exists_completion_operation (.number default) stack
    exact ⟨⟨.number default, 0⟩ :: more, whole, hrun⟩

/-! ## The token that is refused

The cursor looks at no token after the one it refuses, and before it there is a place from which the
formula can be completed. -/

theorem advance_append (cursor : Cursor ν) (before after : List (Token ν)) :
    cursor.advance (before ++ after) =
      (cursor.advance before).bind fun next => next.advance after := by
  induction before generalizing cursor with
  | nil => rfl
  | cons token more ih =>
    rw [List.cons_append, advance, advance]
    cases cursor.step token with
    | error e => rfl
    | ok next => exact ih next

theorem run_append {cursor next : Cursor ν} {before : List (Token ν)}
    (h : cursor.advance before = .ok next) (after : List (Token ν)) :
    cursor.run (before ++ after) = next.run after := by
  rw [run, advance_append, h]
  rfl

/-- A token that is refused is the one that the error is about. -/
theorem pointsAt_of_step {cursor : Cursor ν} {token : Token ν} {e : FormulaError ν}
    (h : cursor.step token = .error e) : e.PointsAt token := by
  have henter {frame : Frame ν} {stack : List (Frame ν)}
      (h : enter token frame stack = .error e) : e.PointsAt token := by
    rw [enter] at h
    split at h
    · cases h
      exact rfl
    · cases h
  cases cursor with
  | operand stack =>
    rw [step] at h
    cases hlexeme : token.lexeme with
    | number value => rw [hlexeme] at h; cases h
    | operand op =>
      rw [hlexeme] at h
      cases op with
      | add | subtract | openParen => exact henter h
      | multiply | divide | power => cases h; exact rfl
      | closeParen => cases h; exact ⟨rfl, hlexeme⟩
  | operation tree stack =>
    rw [step] at h
    cases hlexeme : token.lexeme with
    | number value => rw [hlexeme] at h; cases h; exact rfl
    | operand op =>
      rw [hlexeme] at h
      cases op with
      | add | subtract | multiply | divide => cases h
      | power | openParen => exact henter h
      | closeParen =>
        simp only at h
        split at h
        · cases h
        · cases h
          exact ⟨rfl, hlexeme⟩

/-- If nothing is refused, an operand is missing at the end or the innermost group is open. -/
theorem finish_eq_error {cursor : Cursor ν} {e : FormulaError ν} (h : cursor.finish = .error e) :
    e = .unexpectedEnd ∨
      ∃ opening, cursor.groups.head? = some opening ∧ e = .unbalanced opening.position := by
  cases cursor with
  | operand stack =>
    cases h
    exact Or.inl rfl
  | operation tree stack =>
    rw [finish] at h
    rcases unwind_sum_cases tree stack with ⟨whole, heq⟩ | ⟨inner, opening, outer, heq, _⟩
    · rw [heq] at h
      cases h
    · -- the frames above the group that is found are no groups, so it is the innermost one
      have hgroups := filterMap_opening?_unwind true tree stack
      rw [heq] at h hgroups
      cases h
      refine Or.inr ⟨opening, ?_, rfl⟩
      show (stack.filterMap Frame.opening?).head? = some opening
      rw [← hgroups]
      rfl

/-- An error comes from the step at one token, and all tokens before it are read. -/
theorem advance_eq_error {cursor : Cursor ν} {tokens : List (Token ν)} {e : FormulaError ν}
    (h : cursor.advance tokens = .error e) :
    ∃ before token after next, tokens = before ++ token :: after ∧
      cursor.advance before = .ok next ∧ next.step token = .error e := by
  induction tokens generalizing cursor with
  | nil => cases h
  | cons token more ih =>
    cases hstep : cursor.step token with
    | error e' =>
      rw [advance, hstep] at h
      cases h
      exact ⟨[], token, more, cursor, rfl, rfl, hstep⟩
    | ok next =>
      -- the refused token is further on
      rw [advance, hstep] at h
      obtain ⟨before, refused, after, last, rfl, hbefore, hrefused⟩ := ih h
      refine ⟨token :: before, refused, after, last, rfl, ?_, hrefused⟩
      rw [advance, hstep]
      exact hbefore

/-! ## Whole formulas -/

/-- What the cursor has taken from the start is the beginning of a formula. -/
theorem exists_ofTokens_eq_ok [Inhabited ν] {tokens : List (Token ν)} {cursor : Cursor ν}
    (h : (operand []).advance tokens = .ok cursor) :
    ∃ more tree, tokens <+: more ∧ Tree.ofTokens more = .ok tree := by
  obtain ⟨more, tree, hrun⟩ := exists_completion cursor
  refine ⟨tokens ++ more, tree, List.prefix_append _ _, ?_⟩
  rw [← run_append h] at hrun
  rw [ofTokens_eq_run ?_, hrun]
  -- no tokens are no formula, but these were completed to one
  intro hnil
  rw [hnil] at hrun
  cases hrun

/-- Tokens that begin with refused ones are refused in the same way. -/
theorem ofTokens_eq_error {tokens before : List (Token ν)} {token : Token ν} {cursor : Cursor ν}
    {e : FormulaError ν} (hbefore : (operand []).advance before = .ok cursor)
    (htoken : cursor.step token = .error e) (h : before ++ [token] <+: tokens) :
    Tree.ofTokens tokens = .error e := by
  obtain ⟨after, rfl⟩ := h
  rw [ofTokens_eq_run (by simp), List.append_assoc, run_append hbefore, List.singleton_append,
    run_cons, htoken]
  rfl

end Cursor

/-- In a text no two tokens start at one place. -/
theorem index_eq_of_position_eq {tokens : List (Token ν)}
    (h : tokens.Pairwise fun a b => a.position < b.position) {i j : Nat} {a b : Token ν}
    (ha : tokens[i]? = some a) (hb : tokens[j]? = some b) (hposition : a.position = b.position) :
    i = j := by
  obtain ⟨hi, rfl⟩ := List.getElem?_eq_some_iff.1 ha
  obtain ⟨hj, rfl⟩ := List.getElem?_eq_some_iff.1 hb
  rw [List.pairwise_iff_getElem] at h
  rcases Nat.lt_trichotomy i j with hlt | heq | hgt
  · exact absurd hposition (Nat.ne_of_lt (h i j hi hj hlt))
  · exact heq
  · exact absurd hposition.symm (Nat.ne_of_lt (h j i hj hi hgt))

/-- **Errors are reported as early as possible.** If the error is about a token, then all tokens that
begin like these up to that token are refused with the same error, and the tokens before it are the
beginning of a formula. If it is about none of them, an operand is missing at the end or the
innermost open parenthesis is not closed, and all the tokens are the beginning of a formula. -/
theorem Tree.ofTokens_error_earliest [Inhabited ν] {tokens : List (Token ν)} {e : FormulaError ν}
    (hne : tokens ≠ []) (hpositions : tokens.Pairwise fun a b => a.position < b.position)
    (h : ofTokens tokens = .error e) :
    (∀ (i : Nat) (token : Token ν), tokens[i]? = some token → e.PointsAt token →
      (∀ more, tokens.take (i + 1) <+: more → ofTokens more = .error e) ∧
        ∃ more tree, tokens.take i <+: more ∧ ofTokens more = .ok tree) ∧
    ((∀ token ∈ tokens, ¬ e.PointsAt token) →
      (e = .unexpectedEnd ∨
        ∃ opening, (openGroups tokens).head? = some opening ∧ e = .unbalanced opening.position) ∧
        ∃ more tree, tokens <+: more ∧ ofTokens more = .ok tree) := by
  rw [Cursor.ofTokens_eq_run hne, Cursor.run] at h
  cases hadvance : (Cursor.operand []).advance tokens with
  | error e' =>
    rw [hadvance] at h
    cases h
    obtain ⟨before, refused, after, cursor, rfl, hbefore, hrefused⟩ := Cursor.advance_eq_error hadvance
    have hpoints := Cursor.pointsAt_of_step hrefused
    -- positions increase, so the token that the error is about is the refused one
    refine ⟨?_, fun hnone => absurd hpoints (hnone refused (by simp))⟩
    intro i token htoken hpoints'
    have hrefused? : (before ++ refused :: after)[before.length]? = some refused := by simp
    obtain rfl := index_eq_of_position_eq hpositions htoken hrefused?
      (hpoints'.position_eq hpoints)
    rw [List.take_left, List.take_length_add_append]
    exact ⟨fun more hmore => Cursor.ofTokens_eq_error hbefore hrefused hmore,
      Cursor.exists_ofTokens_eq_ok hbefore⟩
  | ok cursor =>
    rw [hadvance] at h
    have hend := Cursor.finish_eq_error h
    rw [Cursor.groups_advance hadvance] at hend
    refine ⟨?_, fun _ => ⟨hend, Cursor.exists_ofTokens_eq_ok hadvance⟩⟩
    intro i token htoken hpoints
    rcases hend with rfl | ⟨opening, hopening, rfl⟩
    · exact hpoints.elim
    · -- the open parenthesis would be a closing one
      obtain ⟨hposition, hclose⟩ := hpoints
      rcases mem_foldl_pairParen (List.mem_of_head? hopening) with hnil | ⟨hmem, hopen⟩
      · cases hnil
      · obtain ⟨j, hj⟩ := List.getElem?_of_mem hmem
        obtain rfl := index_eq_of_position_eq hpositions hj htoken hposition
        rw [hj] at htoken
        cases htoken
        rw [hopen] at hclose
        cases hclose

/-- `( 1 2` is refused at its last token, and `( 1` at its end. -/
theorem Tree.ofTokens_adjacent_numbers_and_open_group :
    let opening : Token Nat := ⟨.operand .openParen, 0⟩
    let one : Token Nat := ⟨.number 1, 2⟩
    let two : Token Nat := ⟨.number 2, 4⟩
    ((∀ more, [opening, one, two] <+: more →
        ofTokens more = .error (.unexpected (.number 2) 4)) ∧
      ∃ more tree, [opening, one] <+: more ∧ ofTokens more = .ok tree) ∧
    ∃ more tree, [opening, one] <+: more ∧ ofTokens more = .ok tree := by
  intro opening one two
  have hadjacent : ofTokens [opening, one, two] = .error (.unexpected (.number 2) 4) := by
    rw [Cursor.ofTokens_eq_run (List.cons_ne_nil _ _)]
    rfl
  have hopen : ofTokens [opening, one] = .error (.unbalanced 0) := by
    rw [Cursor.ofTokens_eq_run (List.cons_ne_nil _ _)]
    rfl
  refine ⟨(ofTokens_error_earliest (List.cons_ne_nil _ _) (by decide) hadjacent).1 2 two rfl rfl, ?_⟩
  refine ((ofTokens_error_earliest (List.cons_ne_nil _ _) (by decide) hopen).2 ?_).2
  simp [FormulaError.PointsAt, opening, one]

end TagFormula
