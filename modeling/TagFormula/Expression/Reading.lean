import TagFormula.Expression.Token
import TagFormula.Expression.Tree

/-!
# From tokens to a tree

The readers of a formula's phrases, from the loosest binding to the tightest:

- a sum: products with `+` and `-` between them, grouped from the left;
- a product: signed factors with `*` and `/` between them, grouped from the left; nothing stands
  before a parenthesis that follows a factor directly, and `*` is meant;
- a signed factor: any number of signs before a power;
- a power: a primary, perhaps with `^` and a signed factor as its exponent;
- a primary: a number, or a sum in parentheses.

Each reader takes the tokens that are left and returns its tree with the tokens after it, which are
fewer; that ends every recursion. `depth` counts the groups, signs and exponents around a phrase.
-/

namespace TagFormula

/-- What may stand at the base of a power. -/
inductive Base where
  /-- A number or a group. -/
  | any
  /-- A group only. -/
  | group
  deriving DecidableEq

/-- The kinds of phrases, from the loosest binding to the tightest. -/
inductive Phrase where
  | sum
  | product
  | signed
  | power (base : Base)
  | primary (base : Base)
  deriving DecidableEq

/-- The deepest nesting of groups, signs and exponents that is read. -/
def maxDepth : Nat := 256

/-- Fewer than `n` tokens, which are still to be read. -/
abbrev Remaining (ν : Type) (n : Nat) :=
  { tokens : List (Token ν) // tokens.length < n }

/-- What a reader that was given `n` tokens returns. -/
abbrev Reading (ν : Type) (n : Nat) :=
  Except (FormulaError ν) (Tree ν × Remaining ν n)

/-- A token that may not stand where it does. -/
def Token.refused (token : Token ν) : FormulaError ν :=
  .unexpected token.lexeme token.position

namespace Lexeme

/-- The operation of a sign between the products of a sum. -/
def additive? : Lexeme ν → Option BinaryOp
  | .operand .add => some .add
  | .operand .subtract => some .subtract
  | _ => none

/-- The operation of a sign between the factors of a product. -/
def multiplicative? : Lexeme ν → Option BinaryOp
  | .operand .multiply => some .multiply
  | .operand .divide => some .divide
  | _ => none

/-- A sign in front of a factor, and whether it negates. -/
def sign? : Lexeme ν → Option Bool
  | .operand .subtract => some true
  | .operand .add => some false
  | _ => none

def isOpen : Lexeme ν → Bool
  | .operand .openParen => true
  | _ => false

def isPower : Lexeme ν → Bool
  | .operand .power => true
  | _ => false

end Lexeme

namespace Tree

variable {ν : Type}

mutual

/-- Read a sum. -/
def readSum (depth : Nat) (tokens : List (Token ν)) : Reading ν tokens.length :=
  match readProduct depth tokens with
  | .error e => .error e
  | .ok (left, ⟨rest, h⟩) => readTerms depth left rest h
termination_by 6 * tokens.length + 5
decreasing_by
  all_goals omega

/-- Read the further terms of a sum that starts with `left`. -/
def readTerms {n : Nat} (depth : Nat) (left : Tree ν) (tokens : List (Token ν))
    (h : tokens.length < n) : Reading ν n :=
  match tokens, h with
  | [], h => .ok (left, ⟨[], h⟩)
  | token :: more, h =>
    match token.lexeme.additive? with
    | none => .ok (left, ⟨token :: more, h⟩)
    | some op =>
      match readProduct depth more with
      | .error e => .error e
      | .ok (right, ⟨rest, hr⟩) =>
        readTerms depth (.binary op left right) rest
          (by simp only [List.length_cons] at h; omega)
termination_by 6 * tokens.length + 4
decreasing_by
  all_goals try simp only [List.length_cons] at *
  all_goals omega

/-- Read a product. -/
def readProduct (depth : Nat) (tokens : List (Token ν)) : Reading ν tokens.length :=
  match readSigned depth tokens with
  | .error e => .error e
  | .ok (left, ⟨rest, h⟩) => readFactors depth left rest h
termination_by 6 * tokens.length + 3
decreasing_by
  all_goals omega

/-- Read the further factors of a product that starts with `left`. -/
def readFactors {n : Nat} (depth : Nat) (left : Tree ν) (tokens : List (Token ν))
    (h : tokens.length < n) : Reading ν n :=
  match tokens, h with
  | [], h => .ok (left, ⟨[], h⟩)
  | token :: more, h =>
    match token.lexeme.multiplicative? with
    | some op =>
      match readSigned depth more with
      | .error e => .error e
      | .ok (right, ⟨rest, hr⟩) =>
        readFactors depth (.binary op left right) rest
          (by simp only [List.length_cons] at h; omega)
    | none =>
      if token.lexeme.isOpen then
        match readSigned depth (token :: more) with
        | .error e => .error e
        | .ok (right, ⟨rest, hr⟩) =>
          readFactors depth (.binary .multiply left right) rest (by omega)
      else .ok (left, ⟨token :: more, h⟩)
termination_by 6 * tokens.length + 3
decreasing_by
  all_goals try simp only [List.length_cons] at *
  all_goals omega

/-- Read a factor with the signs before it. -/
def readSigned (depth : Nat) (tokens : List (Token ν)) : Reading ν tokens.length :=
  match tokens with
  | [] => readPower depth []
  | token :: more =>
    match token.lexeme.sign? with
    | none => readPower depth (token :: more)
    | some negative =>
      if maxDepth ≤ depth then .error (.tooDeep token.position)
      else
        match readSigned (depth + 1) more with
        | .error e => .error e
        | .ok (operand, ⟨rest, hr⟩) =>
          .ok (if negative then .negate operand else operand,
            ⟨rest, by simp only [List.length_cons]; omega⟩)
termination_by 6 * tokens.length + 2
decreasing_by
  all_goals try simp only [List.length_cons] at *
  all_goals omega

/-- Read a primary and its exponent. -/
def readPower (depth : Nat) (tokens : List (Token ν)) : Reading ν tokens.length :=
  match readPrimary depth tokens with
  | .error e => .error e
  | .ok (base, ⟨[], h⟩) => .ok (base, ⟨[], h⟩)
  | .ok (base, ⟨token :: more, h⟩) =>
    if token.lexeme.isPower then
      if maxDepth ≤ depth then .error (.tooDeep token.position)
      else
        match readSigned (depth + 1) more with
        | .error e => .error e
        | .ok (exponent, ⟨rest, hr⟩) =>
          .ok (.binary .power base exponent,
            ⟨rest, by simp only [List.length_cons] at h; omega⟩)
    else .ok (base, ⟨token :: more, h⟩)
termination_by 6 * tokens.length + 1
decreasing_by
  all_goals try simp only [List.length_cons] at *
  all_goals omega

/-- Read a number or a group. -/
def readPrimary (depth : Nat) (tokens : List (Token ν)) : Reading ν tokens.length :=
  match tokens with
  | [] => .error .unexpectedEnd
  | token :: more =>
    match token.lexeme with
    | .number value => .ok (.number value, ⟨more, by simp⟩)
    | .operand .openParen =>
      if maxDepth ≤ depth then .error (.tooDeep token.position)
      else
        match readSum (depth + 1) more with
        | .error e => .error e
        | .ok (_, ⟨[], _⟩) => .error (.unbalanced token.position)
        | .ok (inner, ⟨close :: rest, h⟩) =>
          match close.lexeme with
          | .operand .closeParen =>
            .ok (inner, ⟨rest, by simp only [List.length_cons] at *; omega⟩)
          | _ => .error close.refused
    | .operand .closeParen => .error (.unbalanced token.position)
    | .operand _ => .error token.refused
termination_by 6 * tokens.length + 0
decreasing_by
  all_goals try simp only [List.length_cons] at *
  all_goals omega

end

def ofTokens (tokens : List (Token ν)) : Except (FormulaError ν) (Tree ν) :=
  if tokens.isEmpty then .error .empty
  else
    match readSum 0 tokens with
    | .error e => .error e
    | .ok (tree, ⟨[], _⟩) => .ok tree
    | .ok (_, ⟨token :: _, _⟩) =>
      match token.lexeme with
      | .operand .closeParen => .error (.unbalanced token.position)
      | _ => .error token.refused

end Tree

end TagFormula
