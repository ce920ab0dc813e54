import TagFormula.Expression.Reading

/-!
# Reading with a head

The readers of `Tree` get the depth as an argument, so it cannot be left wrong behind them. Here the
formula is read by a head instead, which is moved over the tokens and carries the depth along: a group,
a sign or an exponent is entered and has to be left again, also where its reading fails.

Nor does the recursion of these readers end by itself: a loop goes on wherever its last round left the
head. They count the calls that may stand inside one another, and give nothing when the calls run out,
or when they leave what they never entered.
-/

namespace TagFormula

/-- Where the reading of a formula stands. -/
structure ReadHead where
  /-- The index of the next token. -/
  index : Nat
  /-- How many groups, signs and exponents are begun and not over. -/
  depth : Nat
  /-- Every depth that the head has come to, the last one first. -/
  trail : List Nat
  deriving DecidableEq, Repr

namespace ReadHead

variable {ν : Type}

/-! ## The head -/

/-- What a reader gives, and where the head stands then. -/
abbrev Stop (ν : Type) :=
  Except (FormulaError ν) (Tree ν) × ReadHead

/-- The token at the head, which stays there. -/
def next? (head : ReadHead) (tokens : List (Token ν)) : Option (Token ν) :=
  tokens[head.index]?

/-- Go past the next token. At the end of the tokens the head stays. -/
def advance (head : ReadHead) (tokens : List (Token ν)) : ReadHead :=
  match head.next? tokens with
  | none => head
  | some _ => { head with index := head.index + 1 }

/-- Every change of the depth is noted in the trail. -/
def moveTo (head : ReadHead) (depth : Nat) : ReadHead :=
  { head with depth := depth, trail := depth :: head.trail }

/-- Begin what counts as nested. -/
def enter (head : ReadHead) (token : Token ν) : Except (FormulaError ν) ReadHead :=
  if maxDepth ≤ head.depth then .error (.tooDeep token.position)
  else .ok (head.moveTo (head.depth + 1))

/-- End what counts as nested. There is no depth below zero. -/
def leave? (head : ReadHead) : Option ReadHead :=
  if head.depth = 0 then none else some (head.moveTo (head.depth - 1))

/-! ## What comes next -/

/-- The operation before the next product of a sum, and where that product begins. -/
def termLink? (head : ReadHead) (tokens : List (Token ν)) : Option (BinaryOp × ReadHead) :=
  (head.next? tokens).bind fun token =>
    token.lexeme.additive?.map fun op => (op, head.advance tokens)

/-- The operation before the next factor of a product, and where that factor begins. A group follows
directly: its parenthesis is left for the factor. -/
def factorLink? (head : ReadHead) (tokens : List (Token ν)) : Option (BinaryOp × ReadHead) :=
  (head.next? tokens).bind fun token =>
    match token.lexeme.multiplicative? with
    | some op => some (op, head.advance tokens)
    | none => if token.lexeme.isOpen then some (.multiply, head) else none

/-- The sign at the head, and whether it negates. -/
def sign? (head : ReadHead) (tokens : List (Token ν)) : Option (Token ν × Bool) :=
  (head.next? tokens).bind fun token =>
    token.lexeme.sign?.map fun negative => (token, negative)

/-- The power sign at the head. -/
def power? (head : ReadHead) (tokens : List (Token ν)) : Option (Token ν) :=
  (head.next? tokens).filter (·.lexeme.isPower)

/-- After the sum of a group its closing parenthesis has to come. -/
def close (head : ReadHead) (tokens : List (Token ν)) (opening : Token ν) (inner : Tree ν) :
    Stop ν :=
  match head.next? tokens with
  | none => (.error (.unbalanced opening.position), head)
  | some token =>
    match token.lexeme with
    | .operand .closeParen => (.ok inner, head.advance tokens)
    | _ => (.error token.refused, head.advance tokens)

/-- After the sum of a whole formula nothing may come. -/
def finish (head : ReadHead) (tokens : List (Token ν)) (tree : Tree ν) :
    Except (FormulaError ν) (Tree ν) :=
  match head.next? tokens with
  | none => .ok tree
  | some token =>
    match token.lexeme with
    | .operand .closeParen => .error (.unbalanced token.position)
    | _ => .error token.refused

/-! ## The readers

One for each phrase, and one for each of the loops. A failure is handed on with the head where it
happened. -/

mutual

/-- A sum is its first product, and the loop over the others. -/
def sum (tokens : List (Token ν)) : Nat → ReadHead → Option (Stop ν)
  | 0, _ => none
  | calls + 1, head => do
    match ← product tokens calls head with
    | (.error e, head) => some (.error e, head)
    | (.ok left, head) => terms tokens calls left head

/-- The loop of a sum. -/
def terms (tokens : List (Token ν)) : Nat → Tree ν → ReadHead → Option (Stop ν)
  | 0, _, _ => none
  | calls + 1, left, head =>
    match head.termLink? tokens with
    | none => some (.ok left, head)
    | some (op, head) => do
      match ← product tokens calls head with
      | (.error e, head) => some (.error e, head)
      | (.ok right, head) => terms tokens calls (.binary op left right) head

/-- A product is its first factor, and the loop over the others. -/
def product (tokens : List (Token ν)) : Nat → ReadHead → Option (Stop ν)
  | 0, _ => none
  | calls + 1, head => do
    match ← signed tokens calls head with
    | (.error e, head) => some (.error e, head)
    | (.ok left, head) => factors tokens calls left head

/-- The loop of a product. -/
def factors (tokens : List (Token ν)) : Nat → Tree ν → ReadHead → Option (Stop ν)
  | 0, _, _ => none
  | calls + 1, left, head =>
    match head.factorLink? tokens with
    | none => some (.ok left, head)
    | some (op, head) => do
      match ← signed tokens calls head with
      | (.error e, head) => some (.error e, head)
      | (.ok right, head) => factors tokens calls (.binary op left right) head

/-- A factor with its signs. -/
def signed (tokens : List (Token ν)) : Nat → ReadHead → Option (Stop ν)
  | 0, _ => none
  | calls + 1, head =>
    match head.sign? tokens with
    | none => power tokens calls head
    | some (token, negative) =>
      match (head.advance tokens).enter token with
      | .error e => some (.error e, head.advance tokens)
      | .ok inner => do
        -- left before the outcome is looked at, so that a failure is no deeper either
        let (outcome, after) ← signed tokens calls inner
        let after ← after.leave?
        match outcome with
        | .error e => some (.error e, after)
        | .ok operand => some (.ok (if negative then .negate operand else operand), after)

/-- A base, and its exponent if there is one. -/
def power (tokens : List (Token ν)) : Nat → ReadHead → Option (Stop ν)
  | 0, _ => none
  | calls + 1, head => do
    match ← primary tokens calls head with
    | (.error e, head) => some (.error e, head)
    | (.ok base, head) => exponent tokens calls base head

/-- What stands behind a base. -/
def exponent (tokens : List (Token ν)) : Nat → Tree ν → ReadHead → Option (Stop ν)
  | 0, _, _ => none
  | calls + 1, base, head =>
    match head.power? tokens with
    | none => some (.ok base, head)
    | some token =>
      match (head.advance tokens).enter token with
      | .error e => some (.error e, head.advance tokens)
      | .ok inner => do
        let (outcome, after) ← signed tokens calls inner
        let after ← after.leave?
        match outcome with
        | .error e => some (.error e, after)
        | .ok exponent => some (.ok (.binary .power base exponent), after)

/-- A number or a group. -/
def primary (tokens : List (Token ν)) : Nat → ReadHead → Option (Stop ν)
  | 0, _ => none
  | calls + 1, head =>
    match head.next? tokens with
    | none => some (.error .unexpectedEnd, head)
    | some token =>
      match token.lexeme with
      | .number value => some (.ok (.number value), head.advance tokens)
      | .operand .openParen =>
        match (head.advance tokens).enter token with
        | .error e => some (.error e, head.advance tokens)
        | .ok inner => do
          let (outcome, after) ← sum tokens calls inner
          let after ← after.leave?
          match outcome with
          | .error e => some (.error e, after)
          | .ok inside => some (after.close tokens token inside)
      | .operand .closeParen => some (.error (.unbalanced token.position), head.advance tokens)
      | .operand _ => some (.error token.refused, head.advance tokens)

end

/-- Read a phrase. -/
def read (head : ReadHead) (tokens : List (Token ν)) (calls : Nat) : Phrase → Option (Stop ν)
  | .sum => sum tokens calls head
  | .product => product tokens calls head
  | .signed => signed tokens calls head
  | .power _ => power tokens calls head
  | .primary _ => primary tokens calls head

/-- Read a whole formula. -/
def formula (tokens : List (Token ν)) (calls : Nat) :
    Option (Except (FormulaError ν) (Tree ν)) :=
  if tokens.isEmpty then some (.error .empty)
  else do
    match ← sum tokens calls ⟨0, 0, []⟩ with
    | (.error e, _) => some (.error e)
    | (.ok tree, head) => some (head.finish tokens tree)

end ReadHead

end TagFormula
