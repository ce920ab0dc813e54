import TagFormula.Proofs.Grammar

/-!
# The readers, phrase by phrase

The readers of `Tree` return the tokens that are left together with a proof that they are fewer,
which their recursion needs and nobody else. Here that proof is dropped, the five readers become one
function of the phrase, and each gets the equation by which it is used from now on.

* **`Tree.read phrase depth tokens`**: read a phrase.
* **`Tree.readOn phrase depth left tokens`**: read what follows the left side `left` of a phrase;
  the loops of a sum and of a product, the exponent of a power, and nothing otherwise.
* **`read_eq_ok_length`**: the tokens that are left are fewer.
-/

namespace TagFormula

variable {ν : Type}

/-- What goes well in two steps goes well in each. -/
theorem bind_eq_ok {ε α β : Type} {x : Except ε α} {f : α → Except ε β} {b : β}
    (h : x.bind f = .ok b) : ∃ a, x = .ok a ∧ f a = .ok b := by
  cases x with
  | error e => cases h
  | ok a => exact ⟨a, rfl, h⟩

/-- What fails in two steps fails in the first one, or in the second after the first went well. -/
theorem bind_eq_error {ε α β : Type} {x : Except ε α} {f : α → Except ε β} {e : ε}
    (h : x.bind f = .error e) : x = .error e ∨ ∃ a, x = .ok a ∧ f a = .error e := by
  cases x with
  | error e' =>
    cases h
    exact Or.inl rfl
  | ok a => exact Or.inr ⟨a, rfl, h⟩

theorem map_eq_ok {ε α β : Type} {x : Except ε α} {f : α → β} {b : β}
    (h : x.map f = .ok b) : ∃ a, x = .ok a ∧ f a = b := by
  cases x with
  | error e => cases h
  | ok a => exact ⟨a, rfl, Except.ok.inj h⟩

/-- A tree and the tokens after it, or why there is no tree. -/
abbrev Answer (ν : Type) :=
  Except (FormulaError ν) (Tree ν × List (Token ν))

/-- What a reader returns, without the proof about the tokens that are left. -/
def Answer.ofReading {n : Nat} (r : Reading ν n) : Answer ν :=
  r.map fun (tree, rest) => (tree, rest.val)

namespace Tree

/-- Read a phrase. -/
def read : Phrase → Nat → List (Token ν) → Answer ν
  | .sum, depth, tokens => .ofReading (readSum depth tokens)
  | .product, depth, tokens => .ofReading (readProduct depth tokens)
  | .signed, depth, tokens => .ofReading (readSigned depth tokens)
  | .power _, depth, tokens => .ofReading (readPower depth tokens)
  | .primary _, depth, tokens => .ofReading (readPrimary depth tokens)

/-- Read the exponent of a power, if it has one. -/
def readExponent (depth : Nat) (base : Tree ν) : List (Token ν) → Answer ν
  | [] => .ok (base, [])
  | token :: more =>
    if token.lexeme.isPower then
      if maxDepth ≤ depth then .error (.tooDeep token.position)
      else (read .signed (depth + 1) more).map fun (exponent, rest) =>
        (.binary .power base exponent, rest)
    else .ok (base, token :: more)

/-- Read what follows the left side of a phrase. -/
def readOn : Phrase → Nat → Tree ν → List (Token ν) → Answer ν
  | .sum, depth, left, tokens =>
    .ofReading (readTerms depth left tokens (Nat.lt_succ_self tokens.length))
  | .product, depth, left, tokens =>
    .ofReading (readFactors depth left tokens (Nat.lt_succ_self tokens.length))
  | .power _, depth, left, tokens => readExponent depth left tokens
  | _, _, left, tokens => .ok (left, tokens)

/-! ## The loops do not look at the bound

The bound on the number of tokens that a loop carries along only serves its recursion: two runs of
a loop with different bounds agree. Induction on the number of tokens. -/

/-- The loop of a sum only loses its proof. -/
theorem ofReading_readTerms {n : Nat} (depth : Nat) (left : Tree ν) (tokens : List (Token ν))
    (h : tokens.length < n) :
    .ofReading (readTerms depth left tokens h) = readOn .sum depth left tokens := by
  show _ = Answer.ofReading (readTerms depth left tokens _)
  cases tokens with
  | nil => rw [readTerms, readTerms]; rfl
  | cons token more =>
    rw [readTerms, readTerms]
    cases token.lexeme.additive? with
    | none => rfl
    | some op =>
      rcases readProduct depth more with e | ⟨right, rest, hr⟩
      · rfl
      · -- both bounds leave enough for what comes after the product
        have hrest : rest.length < more.length := hr
        exact (ofReading_readTerms depth _ rest _).trans
          (ofReading_readTerms depth _ rest _).symm
termination_by tokens.length
decreasing_by all_goals grind

theorem ofReading_readFactors {n : Nat} (depth : Nat) (left : Tree ν) (tokens : List (Token ν))
    (h : tokens.length < n) :
    .ofReading (readFactors depth left tokens h) = readOn .product depth left tokens := by
  show _ = Answer.ofReading (readFactors depth left tokens _)
  cases tokens with
  | nil => rw [readFactors, readFactors]; rfl
  | cons token more =>
    rw [readFactors, readFactors]
    cases token.lexeme.multiplicative? with
    | some op =>
      rcases readSigned depth more with e | ⟨right, rest, hr⟩
      · rfl
      · have hrest : rest.length < more.length := hr
        exact (ofReading_readFactors depth _ rest _).trans
          (ofReading_readFactors depth _ rest _).symm
    | none =>
      by_cases hopen : token.lexeme.isOpen = true
      · simp only [hopen, if_true]
        rcases readSigned depth (token :: more) with e | ⟨right, rest, hr⟩
        · rfl
        · -- the parenthesis is not consumed before the factor, so there is one token more
          have hrest : rest.length < more.length + 1 := hr
          exact (ofReading_readFactors depth _ rest _).trans
            (ofReading_readFactors depth _ rest _).symm
      · simp only [hopen, if_false, Bool.false_eq_true]
        rfl
termination_by tokens.length
decreasing_by all_goals grind

/-! ## The equations -/

/-- A sum is a product, and the loop behind it. -/
theorem read_sum (depth : Nat) (tokens : List (Token ν)) :
    read .sum depth tokens =
      (read .product depth tokens).bind fun (left, rest) => readOn .sum depth left rest := by
  show Answer.ofReading (readSum depth tokens) = _
  rw [readSum]
  show _ = (Answer.ofReading (readProduct depth tokens)).bind _
  rcases readProduct depth tokens with e | ⟨left, rest, h⟩
  · rfl
  · exact ofReading_readTerms depth left rest h

/-- A round of the loop takes a sign and a product. Without a sign the sum is over. -/
theorem readOn_sum_cons (depth : Nat) (left : Tree ν) (token : Token ν) (more : List (Token ν)) :
    readOn .sum depth left (token :: more) =
      match token.lexeme.additive? with
      | none => .ok (left, token :: more)
      | some op => (read .product depth more).bind fun (right, rest) =>
          readOn .sum depth (.binary op left right) rest := by
  show Answer.ofReading (readTerms depth left (token :: more) _) = _
  rw [readTerms]
  cases token.lexeme.additive? with
  | none => rfl
  | some op =>
    show _ = (Answer.ofReading (readProduct depth more)).bind _
    rcases readProduct depth more with e | ⟨right, rest, h⟩
    · rfl
    · exact ofReading_readTerms depth _ rest _

theorem read_product (depth : Nat) (tokens : List (Token ν)) :
    read .product depth tokens =
      (read .signed depth tokens).bind fun (left, rest) => readOn .product depth left rest := by
  show Answer.ofReading (readProduct depth tokens) = _
  rw [readProduct]
  show _ = (Answer.ofReading (readSigned depth tokens)).bind _
  rcases readSigned depth tokens with e | ⟨left, rest, h⟩
  · rfl
  · exact ofReading_readFactors depth left rest h

/-- A round of the loop takes an operator and a factor, or a group that follows directly. -/
theorem readOn_product_cons (depth : Nat) (left : Tree ν) (token : Token ν)
    (more : List (Token ν)) :
    readOn .product depth left (token :: more) =
      match token.lexeme.multiplicative? with
      | some op => (read .signed depth more).bind fun (right, rest) =>
          readOn .product depth (.binary op left right) rest
      | none =>
        if token.lexeme.isOpen then
          (read .signed depth (token :: more)).bind fun (right, rest) =>
            readOn .product depth (.binary .multiply left right) rest
        else .ok (left, token :: more) := by
  show Answer.ofReading (readFactors depth left (token :: more) _) = _
  rw [readFactors]
  cases token.lexeme.multiplicative? with
  | some op =>
    show _ = (Answer.ofReading (readSigned depth more)).bind _
    rcases readSigned depth more with e | ⟨right, rest, h⟩
    · rfl
    · exact ofReading_readFactors depth _ rest _
  | none =>
    show _ = if token.lexeme.isOpen then
      (Answer.ofReading (readSigned depth (token :: more))).bind _ else _
    by_cases hopen : token.lexeme.isOpen = true
    · -- a group behind a factor is taken as behind a multiplication sign
      simp only [hopen, if_true]
      rcases readSigned depth (token :: more) with e | ⟨right, rest, h⟩
      · rfl
      · exact ofReading_readFactors depth _ rest _
    · simp only [hopen, if_false, Bool.false_eq_true]
      rfl

@[simp] theorem readOn_sum_nil (depth : Nat) (left : Tree ν) :
    readOn .sum depth left [] = .ok (left, []) := by
  show Answer.ofReading (readTerms depth left [] _) = _
  rw [readTerms]
  rfl

@[simp] theorem readOn_product_nil (depth : Nat) (left : Tree ν) :
    readOn .product depth left [] = .ok (left, []) := by
  show Answer.ofReading (readFactors depth left [] _) = _
  rw [readFactors]
  rfl

/-- At the end of the tokens there is no sign, and the reader of powers reports the end. -/
theorem read_signed_nil (depth : Nat) :
    read .signed depth ([] : List (Token ν)) = read (.power .any) depth [] := by
  show Answer.ofReading (readSigned depth []) = _
  rw [readSigned]
  rfl

theorem read_signed_cons (depth : Nat) (token : Token ν) (more : List (Token ν)) :
    read .signed depth (token :: more) =
      match token.lexeme.sign? with
      | none => read (.power .any) depth (token :: more)
      | some negative =>
        if maxDepth ≤ depth then .error (.tooDeep token.position)
        else (read .signed (depth + 1) more).map fun (operand, rest) =>
          (if negative then .negate operand else operand, rest) := by
  show Answer.ofReading (readSigned depth (token :: more)) = _
  rw [readSigned]
  cases token.lexeme.sign? with
  | none => rfl
  | some negative =>
    by_cases hdepth : maxDepth ≤ depth
    · simp only [hdepth, if_true]
      rfl
    · simp only [hdepth, if_false]
      show _ = (Answer.ofReading (readSigned (depth + 1) more)).map _
      rcases readSigned (depth + 1) more with e | ⟨operand, rest, h⟩ <;> rfl

theorem read_power (b : Base) (depth : Nat) (tokens : List (Token ν)) :
    read (.power b) depth tokens =
      (read (.primary b) depth tokens).bind fun (base, rest) => readExponent depth base rest := by
  show Answer.ofReading (readPower depth tokens) = _
  rw [readPower]
  show _ = (Answer.ofReading (readPrimary depth tokens)).bind _
  rcases readPrimary depth tokens with e | ⟨base, rest, h⟩
  · rfl
  · -- what follows the base decides
    cases rest with
    | nil => rfl
    | cons token more =>
      show _ = readExponent depth base (token :: more)
      rw [readExponent]
      by_cases hpower : token.lexeme.isPower = true
      · -- an exponent is read one deeper
        by_cases hdepth : maxDepth ≤ depth
        · simp only [hpower, hdepth, if_true]
          rfl
        · simp only [hpower, hdepth, if_true, if_false]
          show _ = (Answer.ofReading (readSigned (depth + 1) more)).map _
          rcases readSigned (depth + 1) more with e | ⟨exponent, rest, hr⟩ <;> rfl
      · simp only [hpower, if_false, Bool.false_eq_true]
        rfl

@[simp] theorem read_primary_nil (b : Base) (depth : Nat) :
    read (.primary b) depth ([] : List (Token ν)) = .error .unexpectedEnd := by
  show Answer.ofReading (readPrimary depth []) = _
  rw [readPrimary]
  rfl

/-- What comes after the sum of a group has to be its closing parenthesis. -/
def closeGroup (opening : Token ν) (inner : Tree ν) : List (Token ν) → Answer ν
  | [] => .error (.unbalanced opening.position)
  | token :: rest =>
    match token.lexeme with
    | .operand .closeParen => .ok (inner, rest)
    | _ => .error token.refused

theorem closeGroup_close {opening token : Token ν} {inner : Tree ν} {rest : List (Token ν)}
    (h : token.lexeme = .operand .closeParen) :
    closeGroup opening inner (token :: rest) = .ok (inner, rest) := by
  rw [closeGroup, h]

theorem closeGroup_eq_ok {opening : Token ν} {inner tree : Tree ν} {tokens rest : List (Token ν)}
    (h : closeGroup opening inner tokens = .ok (tree, rest)) :
    tree = inner ∧ ∃ closing, tokens = closing :: rest ∧ closing.lexeme = .operand .closeParen := by
  cases tokens with
  | nil => cases h
  | cons token more =>
    rw [closeGroup] at h
    split at h
    · next hclose =>
      cases h
      exact ⟨rfl, token, rfl, hclose⟩
    · cases h

/-- The operands: a number, or a group, which is nested one deeper. -/
theorem read_primary_cons (b : Base) (depth : Nat) (token : Token ν) (more : List (Token ν)) :
    read (.primary b) depth (token :: more) =
      match token.lexeme with
      | .number value => .ok (.number value, more)
      | .operand .openParen =>
        if maxDepth ≤ depth then .error (.tooDeep token.position)
        else (read .sum (depth + 1) more).bind fun (inner, rest) => closeGroup token inner rest
      | .operand .closeParen => .error (.unbalanced token.position)
      | .operand _ => .error token.refused := by
  show Answer.ofReading (readPrimary depth (token :: more)) = _
  rw [readPrimary]
  cases token.lexeme with
  | number value => rfl
  | operand op =>
    cases op with
    | openParen =>
      by_cases hdepth : maxDepth ≤ depth
      · simp only [hdepth, if_true]
        rfl
      · simp only [hdepth, if_false]
        show _ = (Answer.ofReading (readSum (depth + 1) more)).bind _
        rcases readSum (depth + 1) more with e | ⟨inner, rest, h⟩
        · rfl
        · cases rest with
          | nil => rfl
          | cons close rest =>
            -- any symbol but the closing parenthesis is refused
            show _ = closeGroup token inner (close :: rest)
            rw [closeGroup]
            rcases close with ⟨lexeme, position⟩
            cases lexeme with
            | number value => rfl
            | operand op => cases op <;> rfl
    | _ => rfl

/-! ## The recursion ends -/

/-- A reader leaves fewer tokens than it was given. -/
theorem read_eq_ok_length {p : Phrase} {depth : Nat} {tokens rest : List (Token ν)} {tree : Tree ν}
    (h : read p depth tokens = .ok (tree, rest)) : rest.length < tokens.length := by
  -- every reader returns the bound together with the tokens
  have ofReading_length {r : Reading ν tokens.length}
      (hr : Answer.ofReading r = .ok (tree, rest)) : rest.length < tokens.length := by
    rcases r with e | ⟨tree', rest', hlength⟩
    · cases hr
    · cases hr
      exact hlength
  cases p <;> exact ofReading_length h

/-- After the sum of a whole formula nothing may come. -/
def closeFormula (tree : Tree ν) : List (Token ν) → Except (FormulaError ν) (Tree ν)
  | [] => .ok tree
  | token :: _ =>
    match token.lexeme with
    | .operand .closeParen => .error (.unbalanced token.position)
    | _ => .error token.refused

theorem closeFormula_eq_ok {inner tree : Tree ν} {tokens : List (Token ν)}
    (h : closeFormula inner tokens = .ok tree) : tree = inner ∧ tokens = [] := by
  cases tokens with
  | nil => cases h; exact ⟨rfl, rfl⟩
  | cons token more =>
    rw [closeFormula] at h
    split at h <;> cases h

/-- A whole formula is a sum, and nothing behind it. -/
theorem ofTokens_cons (token : Token ν) (more : List (Token ν)) :
    ofTokens (token :: more) =
      (read .sum 0 (token :: more)).bind fun (tree, rest) => closeFormula tree rest := by
  rw [ofTokens]
  simp only [List.isEmpty_cons, Bool.false_eq_true, if_false]
  show _ = (Answer.ofReading (readSum 0 (token :: more))).bind _
  rcases readSum 0 (token :: more) with e | ⟨tree, rest, h⟩
  · rfl
  · cases rest <;> rfl

end Tree

end TagFormula
