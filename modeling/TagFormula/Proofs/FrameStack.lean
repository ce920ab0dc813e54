import TagFormula.Expression.Cursor
import TagFormula.Proofs.Parsing

/-!
# The readers as a cursor

A cursor that is moved over the tokens, with a stack of the phrases that are begun, ends with the tree
that the readers give.

* **`Cursor.step_frame`**: a frame is completed by the first token with which its phrase does not go on.
* **`run_operand_sum`** and its companions: a reader that is called under a stack does what the cursor
  does from there. Induction along the recursion of the readers; where a reader returns, the frame
  that waited for it is completed, which `run_frame` justifies.
* **`ofTokens_eq_run`**: the tree of a formula is what the cursor ends with.
-/

namespace TagFormula

variable {ν : Type}

namespace Cursor

/-! ## Runs -/

@[simp] theorem run_nil (cursor : Cursor ν) : cursor.run [] = cursor.finish := rfl

theorem run_cons (cursor : Cursor ν) (token : Token ν) (more : List (Token ν)) :
    cursor.run (token :: more) = (cursor.step token).bind fun next => next.run more := by
  show ((cursor.step token).bind _).bind finish = _
  cases cursor.step token <;> rfl

/-! ## Where a phrase is complete

A frame on top of the stack is completed by the first token that its phrase does not go on with, so
before such a token it makes no difference whether the frame is still there. -/

/-- A sum first completes what binds more tightly. -/
theorem step_additive {op : BinaryOp} (hop : op.IsAdditive) {token : Token ν}
    (htoken : token.lexeme = .operand op.operand) (tree : Tree ν) (stack : List (Frame ν)) :
    (operation tree stack).step token = .ok (.operand (link true op tree stack)) := by
  rcases hop with rfl | rfl <;> rw [step, htoken] <;> rfl

/-- A product leaves the sums that wait as they are. -/
theorem step_multiplicative {op : BinaryOp} (hop : op.IsMultiplicative) {token : Token ν}
    (htoken : token.lexeme = .operand op.operand) (tree : Tree ν) (stack : List (Frame ν)) :
    (operation tree stack).step token = .ok (.operand (link false op tree stack)) := by
  rcases hop with rfl | rfl <;> rw [step, htoken] <;> rfl

/-- Taking a token completes a frame whose phrase does not go on with it. -/
theorem step_frame {frame : Frame ν} (hframe : frame.opening? = none) {token : Token ν}
    (hstops : frame.awaits.continues token.lexeme = false) (tree : Tree ν)
    (stack : List (Frame ν)) :
    (operation tree (frame :: stack)).step token =
      (operation (frame.complete tree) stack).step token := by
  rw [step, step]
  cases hlexeme : token.lexeme with
  | number value => rfl
  | operand op =>
    rw [hlexeme] at hstops
    cases frame with
    | group opening => cases hframe
    -- a symbol either completes the frame on its way down the stack, or the phrase goes on with it
    | _ => cases op <;> first | rfl | cases hstops

/-- A frame that is no group is completed as soon as its phrase is read, before the next token is looked
at. -/
theorem run_frame (frame : Frame ν) (hframe : frame.opening? = none) {rest : List (Token ν)}
    (hstops : Stops frame.awaits rest) (tree : Tree ν) (stack : List (Frame ν)) :
    (operation tree (frame :: stack)).run rest =
      (operation (frame.complete tree) stack).run rest := by
  cases rest with
  | nil => cases frame <;> first | rfl | cases hframe
  | cons token more => rw [run_cons, run_cons, step_frame hframe hstops]

/-- No phrase on top of the stack ends where a link of a sum, or of a product, ends. -/
def Settled (sum : Bool) : List (Frame ν) → Prop
  | [] => True
  | frame :: _ => frame.endsIn sum = false

/-- Where nothing binds more tightly than the operator, nothing is completed. -/
theorem unwind_of_settled {sum : Bool} {stack : List (Frame ν)} (h : Settled sum stack)
    (tree : Tree ν) : unwind sum tree stack = (tree, stack) := by
  cases stack with
  | nil => rfl
  | cons frame stack =>
    have hframe : frame.endsIn sum = false := h
    rw [unwind, hframe]
    rfl

/-- What is settled for sums is settled for products. -/
theorem Settled.product {stack : List (Frame ν)} (h : Settled true stack) :
    Settled false stack := by
  cases stack with
  | nil => trivial
  | cons frame stack => cases frame <;> first | rfl | exact h

/-! ## The readers under a stack

A reader that is called under a stack ends where its phrase stops, and there the frame that waited
for it is completed. -/

/-- A reader that is called under a stack, and then the cursor over what it leaves. -/
def runAfter (stack : List (Frame ν)) (answer : Answer ν) : Except (FormulaError ν) (Tree ν) :=
  answer.bind fun (tree, rest) => (operation tree stack).run rest

/-- A reader that is called under a frame: where its phrase stops, the frame is completed. -/
theorem runAfter_frame (frame : Frame ν) (hframe : frame.opening? = none) {answer : Answer ν}
    (hstops : ∀ {tree rest}, answer = .ok (tree, rest) → Stops frame.awaits rest)
    (stack : List (Frame ν)) :
    runAfter (frame :: stack) answer =
      answer.bind fun (tree, rest) => (operation (frame.complete tree) stack).run rest := by
  cases answer with
  | error e => rfl
  | ok result => exact run_frame frame hframe (hstops rfl) result.1 stack

/-- Behind the inside of a group the run expects the parenthesis that closes it. -/
theorem run_group {opening : Token ν} {rest : List (Token ν)} (hstops : Stops .sum rest)
    (inner : Tree ν) (stack : List (Frame ν)) :
    (operation inner (.group opening :: stack)).run rest =
      runAfter stack (Tree.closeGroup opening inner rest) := by
  cases rest with
  | nil => rfl
  | cons token more =>
    have hcontinues : Phrase.continues .sum token.lexeme = false := hstops
    rw [run_cons, step, Tree.closeGroup]
    cases htoken : token.lexeme with
    | number value => rfl
    | operand op =>
      rw [htoken] at hcontinues
      cases op <;> first | rfl | cases hcontinues

/-- Behind the whole formula the run expects the end. -/
theorem run_whole {rest : List (Token ν)} (hstops : Stops .sum rest) (tree : Tree ν) :
    (operation tree []).run rest = Tree.closeFormula tree rest := by
  cases rest with
  | nil => rfl
  | cons token more =>
    have hcontinues : Phrase.continues .sum token.lexeme = false := hstops
    rw [run_cons, step, Tree.closeFormula]
    cases htoken : token.lexeme with
    | number value => rfl
    | operand op =>
      rw [htoken] at hcontinues
      cases op <;> first | rfl | cases hcontinues

/-- Texts that do not start with a sign. The readers of powers and operands see no others. -/
def Unsigned (tokens : List (Token ν)) : Prop :=
  ∀ token ∈ tokens.head?, token.lexeme.sign? = none

mutual

/-- The main lemma: the machine with a stack does what the reader of sums does, and goes on with its
answer. The lemmas below say the same of the other readers. All are proved together: a step takes a
token, or hands the tokens to a reader that binds more tightly. -/
theorem run_operand_sum (stack : List (Frame ν)) {tokens : List (Token ν)}
    (hdepth : nesting stack ≤ maxDepth) (hsettled : Settled true stack) :
    (operand stack).run tokens = runAfter stack (Tree.read .sum (nesting stack) tokens) := by
  rw [Tree.read_sum, run_operand_product stack hdepth hsettled.product]
  cases hleft : Tree.read .product (nesting stack) tokens with
  | error e => rfl
  | ok answer =>
    obtain ⟨left, rest⟩ := answer
    have hlength := Tree.read_eq_ok_length hleft
    exact run_operation_sum hdepth hsettled (Tree.read_product_sound hdepth hleft).stops
termination_by 6 * tokens.length + 5

/-- The loop of the reader of sums, once its first operand is read. -/
theorem run_operation_sum {stack : List (Frame ν)} {left : Tree ν} {tokens : List (Token ν)}
    (hdepth : nesting stack ≤ maxDepth) (hsettled : Settled true stack)
    (hstops : Stops .product tokens) :
    (operation left stack).run tokens =
      runAfter stack (Tree.readOn .sum (nesting stack) left tokens) := by
  cases tokens with
  | nil => rw [Tree.readOn_sum_nil]; rfl
  | cons token more =>
    rw [Tree.readOn_sum_cons]
    cases hop : token.lexeme.additive? with
    | none => rfl
    | some op =>
      obtain ⟨hadditive, htoken⟩ := Lexeme.additive?_eq_some_iff.1 hop
      -- nothing on the stack ends here, so the sum waits on top for its next product
      rw [run_cons, step_additive hadditive htoken]
      show (operand (link true op left stack)).run more = _
      rw [link, unwind_of_settled hsettled]
      show (operand (.term left op :: stack)).run more = _
      rw [run_operand_product (.term left op :: stack) hdepth rfl]
      show runAfter (.term left op :: stack) (Tree.read .product (nesting stack) more) = _
      rw [runAfter_frame (.term left op) rfl fun h => (Tree.read_product_sound hdepth h).stops]
      cases hright : Tree.read .product (nesting stack) more with
      | error e => rfl
      | ok answer =>
        obtain ⟨right, rest⟩ := answer
        have hlength := Tree.read_eq_ok_length hright
        exact run_operation_sum hdepth hsettled (Tree.read_product_sound hdepth hright).stops
termination_by 6 * tokens.length + 4
decreasing_by
  all_goals
    subst_vars
    simp only [List.length_cons]
    omega

theorem run_operand_product (stack : List (Frame ν)) {tokens : List (Token ν)}
    (hdepth : nesting stack ≤ maxDepth) (hsettled : Settled false stack) :
    (operand stack).run tokens = runAfter stack (Tree.read .product (nesting stack) tokens) := by
  rw [Tree.read_product, run_operand_signed stack]
  cases hleft : Tree.read .signed (nesting stack) tokens with
  | error e => rfl
  | ok answer =>
    obtain ⟨left, rest⟩ := answer
    have hlength := Tree.read_eq_ok_length hleft
    exact run_operation_product hdepth hsettled (Tree.read_signed_sound hdepth hleft).stops
termination_by 6 * tokens.length + 3

theorem run_operation_product {stack : List (Frame ν)} {left : Tree ν} {tokens : List (Token ν)}
    (hdepth : nesting stack ≤ maxDepth) (hsettled : Settled false stack)
    (hstops : Stops .signed tokens) :
    (operation left stack).run tokens =
      runAfter stack (Tree.readOn .product (nesting stack) left tokens) := by
  cases tokens with
  | nil => rw [Tree.readOn_product_nil]; rfl
  | cons token more =>
    rw [Tree.readOn_product_cons]
    cases hop : token.lexeme.multiplicative? with
    | some op =>
      obtain ⟨hmultiplicative, htoken⟩ := Lexeme.multiplicative?_eq_some_iff.1 hop
      -- the same with the product and its next factor
      rw [run_cons, step_multiplicative hmultiplicative htoken]
      show (operand (link false op left stack)).run more = _
      rw [link, unwind_of_settled hsettled]
      show (operand (.factor left op :: stack)).run more = _
      rw [run_operand_signed (.factor left op :: stack)]
      show runAfter (.factor left op :: stack) (Tree.read .signed (nesting stack) more) = _
      rw [runAfter_frame (.factor left op) rfl fun h => (Tree.read_signed_sound hdepth h).stops]
      cases hright : Tree.read .signed (nesting stack) more with
      | error e => rfl
      | ok answer =>
        obtain ⟨right, rest⟩ := answer
        have hlength := Tree.read_eq_ok_length hright
        exact run_operation_product hdepth hsettled (Tree.read_signed_sound hdepth hright).stops
    | none =>
      by_cases hopen : token.lexeme.isOpen = true
      · have htoken := Lexeme.isOpen_iff.1 hopen
        simp only [hopen, if_true]
        -- the parenthesis is taken as after a multiplication sign
        have hjuxtaposed : (operation left stack).run (token :: more) =
            (operand (.factor left .multiply :: stack)).run (token :: more) := by
          rw [run_cons, run_cons, step, step, htoken]
          simp only [link, unwind_of_settled hsettled]
          rfl
        rw [hjuxtaposed, run_operand_signed (.factor left .multiply :: stack)]
        show runAfter _ (Tree.read .signed (nesting stack) (token :: more)) = _
        rw [runAfter_frame (.factor left .multiply) rfl fun h =>
          (Tree.read_signed_sound hdepth h).stops]
        cases hright : Tree.read .signed (nesting stack) (token :: more) with
        | error e => rfl
        | ok answer =>
          obtain ⟨right, rest⟩ := answer
          have hlength : rest.length < more.length + 1 := Tree.read_eq_ok_length hright
          exact run_operation_product hdepth hsettled (Tree.read_signed_sound hdepth hright).stops
      · simp only [hopen, if_false, Bool.false_eq_true]
        rfl
termination_by 6 * tokens.length + 3
decreasing_by
  all_goals
    subst_vars
    simp only [List.length_cons]
    omega

/-- The reader of signs needs nothing settled: a sign is put on the stack as a frame. -/
theorem run_operand_signed (stack : List (Frame ν)) {tokens : List (Token ν)} :
    (operand stack).run tokens = runAfter stack (Tree.read .signed (nesting stack) tokens) := by
  cases tokens with
  | nil =>
    rw [Tree.read_signed_nil]
    exact run_operand_power stack nofun
  | cons token more =>
    rw [Tree.read_signed_cons]
    cases hsign : token.lexeme.sign? with
    | none =>
      refine run_operand_power stack ?_
      rintro _ ⟨⟩
      exact hsign
    | some negative =>
      -- the reader and the cursor look at the same bound: the depth is the nesting of the stack
      have hstep : (operand stack).step token = enter token (.sign negative) stack := by
        rw [step, Lexeme.sign?_eq_some_iff.1 hsign]
        cases negative <;> rfl
      rw [run_cons, hstep, enter]
      by_cases hdeep : maxDepth ≤ nesting stack
      · simp only [hdeep, if_true]
        rfl
      · simp only [hdeep, if_false]
        show (operand (.sign negative :: stack)).run more = _
        have hdepth : nesting stack + 1 ≤ maxDepth := Nat.not_le.1 hdeep
        rw [run_operand_signed (.sign negative :: stack)]
        show runAfter (.sign negative :: stack) (Tree.read .signed (nesting stack + 1) more) = _
        rw [runAfter_frame (.sign negative) rfl fun h => (Tree.read_signed_sound hdepth h).stops]
        cases Tree.read .signed (nesting stack + 1) more <;> rfl
termination_by 6 * tokens.length + 2

theorem run_operand_power (stack : List (Frame ν)) {tokens : List (Token ν)}
    (hunsigned : Unsigned tokens) :
    (operand stack).run tokens =
      runAfter stack (Tree.read (.power .any) (nesting stack) tokens) := by
  rw [Tree.read_power, run_operand_primary stack hunsigned]
  cases hbase : Tree.read (.primary .any) (nesting stack) tokens with
  | error e => rfl
  | ok answer =>
    obtain ⟨base, rest⟩ := answer
    have hlength := Tree.read_eq_ok_length hbase
    cases rest with
    | nil => rfl
    | cons token more =>
      have hmore : more.length + 1 < tokens.length := hlength
      show (operation base stack).run (token :: more) =
        runAfter stack (Tree.readExponent (nesting stack) base (token :: more))
      rw [Tree.readExponent]
      by_cases hpower : token.lexeme.isPower = true
      · have hstep : (operation base stack).step token = enter token (.exponent base) stack := by
          rw [step, Lexeme.isPower_iff.1 hpower]
        rw [run_cons, hstep, enter]
        by_cases hdeep : maxDepth ≤ nesting stack
        · simp only [hpower, hdeep, if_true]
          rfl
        · simp only [hpower, hdeep, if_true, if_false]
          show (operand (.exponent base :: stack)).run more = _
          have hdepth : nesting stack + 1 ≤ maxDepth := Nat.not_le.1 hdeep
          rw [run_operand_signed (.exponent base :: stack)]
          show runAfter (.exponent base :: stack) (Tree.read .signed (nesting stack + 1) more) = _
          rw [runAfter_frame (.exponent base) rfl fun h => (Tree.read_signed_sound hdepth h).stops]
          cases Tree.read .signed (nesting stack + 1) more <;> rfl
      · simp only [hpower, if_false, Bool.false_eq_true]
        rfl
termination_by 6 * tokens.length + 1

/-- Numbers and groups. A group is where the induction goes back to sums. -/
theorem run_operand_primary (stack : List (Frame ν)) {tokens : List (Token ν)}
    (hunsigned : Unsigned tokens) :
    (operand stack).run tokens =
      runAfter stack (Tree.read (.primary .any) (nesting stack) tokens) := by
  cases tokens with
  | nil => rw [Tree.read_primary_nil]; rfl
  | cons token more =>
    have hsign : token.lexeme.sign? = none := hunsigned token rfl
    rw [Tree.read_primary_cons, run_cons, step]
    cases htoken : token.lexeme with
    | number value => rfl
    | operand op =>
      rw [htoken] at hsign
      cases op with
      | add | subtract => cases hsign
      | multiply | divide | power | closeParen => rfl
      | openParen =>
        simp only [enter]
        by_cases hdeep : maxDepth ≤ nesting stack
        · simp only [hdeep, if_true]
          rfl
        · simp only [hdeep, if_false]
          show (operand (.group token :: stack)).run more = _
          have hdepth : nesting stack + 1 ≤ maxDepth := Nat.not_le.1 hdeep
          rw [run_operand_sum (.group token :: stack) hdepth rfl]
          show runAfter _ (Tree.read .sum (nesting stack + 1) more) = _
          cases hinner : Tree.read .sum (nesting stack + 1) more with
          | error e => rfl
          | ok answer =>
            -- a sum ends the frames above the group and none below it
            exact run_group (Tree.read_sum_sound hdepth hinner).stops answer.1 stack
termination_by 6 * tokens.length

end

/-! ## Whole formulas -/

/-- The tree of a formula is what the cursor ends with when it starts with nothing waiting. -/
theorem ofTokens_eq_run {tokens : List (Token ν)} (h : tokens ≠ []) :
    Tree.ofTokens tokens = (operand []).run tokens := by
  rw [run_operand_sum [] (Nat.zero_le _) trivial]
  cases tokens with
  | nil => exact absurd rfl h
  | cons token more =>
    rw [Tree.ofTokens_cons]
    show _ = runAfter [] (Tree.read .sum 0 (token :: more))
    cases hread : Tree.read .sum 0 (token :: more) with
    | error e => rfl
    | ok answer =>
      have hstops := (Tree.read_sum_sound (Nat.zero_le _) hread).stops
      exact (run_whole hstops answer.1).symm

end Cursor

end TagFormula
