import TagFormula.Expression.Reading

/-!
# The grammar of formulas

The phrases that `Tree.ofTokens` is meant to read, given by rules and without any reader:

```
Sum     ::= Product | Sum (+|-) Product
Product ::= Signed | Product (*|/) Signed | Product G
Signed  ::= (+|-) Signed | Power
Power   ::= Primary | Primary ^ Signed
Primary ::= Number | ( Sum )
```

`G` is a power whose base is a group, a sum in parentheses; the multiplication before it is not
written.

* **`Derives phrase nesting tokens tree`**: `tokens` form the phrase and `tree` is its structure;
  `nesting` is the largest number of groups, signs and exponents on a path of the derivation.
* **`Stops phrase tokens`**: what follows a phrase does not continue it.
* **`Derives.exists_base_head`**: how a power or a primary begins, which is what tells a factor
  without an operation from the end of a product.
-/

namespace TagFormula

variable {ν : Type}

/-! ## Phrases -/

/-- The character an operator is written with. A multiplication may also have none. -/
def BinaryOp.operand : BinaryOp → Operand
  | add => .add
  | subtract => .subtract
  | multiply => .multiply
  | divide => .divide
  | power => .power

/-- The operators of sums. -/
def BinaryOp.IsAdditive (op : BinaryOp) : Prop :=
  op = .add ∨ op = .subtract

/-- The operations that are written between the factors of a product. -/
def BinaryOp.IsMultiplicative (op : BinaryOp) : Prop :=
  op = .multiply ∨ op = .divide

/-- `tokens` form a phrase with the structure `tree`. Of the groups, signs and exponents, the
fullest path from the root of the derivation crosses `nesting`. -/
inductive Derives : Phrase → (nesting : Nat) → (tokens : List (Token ν)) → (tree : Tree ν) → Prop
  | product {n ts t} (h : Derives .product n ts t) : Derives .sum n ts t
  | addition {m n ls rs l r op token} (hl : Derives .sum m ls l)
      (hop : op.IsAdditive) (htoken : token.lexeme = .operand op.operand)
      (hr : Derives .product n rs r) :
      Derives .sum (max m n) (ls ++ token :: rs) (.binary op l r)
  | signed {n ts t} (h : Derives .signed n ts t) : Derives .product n ts t
  | multiplication {m n ls rs l r op token} (hl : Derives .product m ls l)
      (hop : op.IsMultiplicative) (htoken : token.lexeme = .operand op.operand)
      (hr : Derives .signed n rs r) :
      Derives .product (max m n) (ls ++ token :: rs) (.binary op l r)
  | juxtaposition {m n ls rs l r} (hl : Derives .product m ls l)
      (hr : Derives (.power .group) n rs r) :
      Derives .product (max m n) (ls ++ rs) (.binary .multiply l r)
  | plus {n ts t token} (htoken : token.lexeme = .operand .add)
      (h : Derives .signed n ts t) : Derives .signed (n + 1) (token :: ts) t
  | minus {n ts t token} (htoken : token.lexeme = .operand .subtract)
      (h : Derives .signed n ts t) : Derives .signed (n + 1) (token :: ts) (.negate t)
  | power {n ts t} (h : Derives (.power .any) n ts t) : Derives .signed n ts t
  | primary {b n ts t} (h : Derives (.primary b) n ts t) : Derives (.power b) n ts t
  | raising {b m n ls rs l r token} (hl : Derives (.primary b) m ls l)
      (htoken : token.lexeme = .operand .power) (hr : Derives .signed n rs r) :
      Derives (.power b) (max m (n + 1)) (ls ++ token :: rs) (.binary .power l r)
  | number {token value} (htoken : token.lexeme = .number value) :
      Derives (.primary .any) 0 [token] (.number value)
  | group {b n ts t opening closing} (hopening : opening.lexeme = .operand .openParen)
      (h : Derives .sum n ts t) (hclosing : closing.lexeme = .operand .closeParen) :
      Derives (.primary b) (n + 1) (opening :: (ts ++ [closing])) t

/-! ## The first token

A power and a primary begin with a number or an opening parenthesis, and with a parenthesis if
their base has to be a group. So a factor without an operation cannot be taken for anything else. -/

/-- The lexemes with which a base begins. -/
def Base.Admits : Base → Lexeme ν → Prop
  | .any, lexeme => (∃ value, lexeme = .number value) ∨ lexeme = .operand .openParen
  | .group, lexeme => lexeme = .operand .openParen

/-- What the first operand of a phrase has to be. -/
def Phrase.base? : Phrase → Option Base
  | .power b | .primary b => some b
  | _ => none

/-- A power or a primary begins with what its base admits. -/
theorem Derives.exists_base_head {p : Phrase} {n : Nat} {ts : List (Token ν)} {t : Tree ν}
    (h : Derives p n ts t) {b : Base} (hb : p.base? = some b) :
    ∃ token more, ts = token :: more ∧ b.Admits token.lexeme := by
  induction h with
  | product | addition | signed | multiplication | juxtaposition | plus | minus | power =>
    -- these phrases have no base
    cases hb
  | primary _ ih => exact ih hb
  | raising _ _ _ ih _ =>
    obtain ⟨token, more, rfl, hadmits⟩ := ih hb
    exact ⟨token, _, rfl, hadmits⟩
  | number htoken =>
    cases hb
    exact ⟨_, [], rfl, Or.inl ⟨_, htoken⟩⟩
  | group hopening _ _ _ =>
    refine ⟨_, _, rfl, ?_⟩
    cases hb
    cases b with
    | any => exact Or.inr hopening
    | group => exact hopening

/-- An operand that starts with a parenthesis is a group, as no number does. -/
theorem Derives.primary_group {n : Nat} {token : Token ν} {more : List (Token ν)} {t : Tree ν}
    (h : Derives (.primary .any) n (token :: more) t)
    (hopen : token.lexeme = .operand .openParen) : Derives (.primary .group) n (token :: more) t := by
  cases h with
  | number htoken =>
    rw [htoken] at hopen
    cases hopen
  | group hopening hsum hclosing => exact .group hopening hsum hclosing

/-- A power that begins with a parenthesis has a group at its base. -/
theorem Derives.power_group {n : Nat} {token : Token ν} {more : List (Token ν)} {t : Tree ν}
    (h : Derives (.power .any) n (token :: more) t)
    (hopen : token.lexeme = .operand .openParen) : Derives (.power .group) n (token :: more) t := by
  -- the tokens are generalised because a power puts them together from its parts
  generalize hts : token :: more = ts at h
  cases h with
  | primary hprimary =>
    subst hts
    exact .primary (hprimary.primary_group hopen)
  | raising hl htoken hr =>
    obtain ⟨first, others, rfl, _⟩ := hl.exists_base_head rfl
    cases hts
    exact .raising (hl.primary_group hopen) htoken hr

/-! ## What follows a phrase

A phrase ends where the next token does not continue it. A number or a closing parenthesis continues
none, and the tighter a phrase binds the fewer symbols continue it: what stops a phrase stops its
links, and a sign stops the phrases on both its sides that bind tighter than it does. -/

/-- A phrase can go on with the lexeme. -/
def Phrase.continues : Phrase → Lexeme ν → Bool
  | _, .number _ => false
  | .sum, .operand op => op ≠ .closeParen
  | .product, .operand op => op = .multiply ∨ op = .divide ∨ op = .openParen ∨ op = .power
  | .signed, .operand op | .power _, .operand op => op = .power
  | .primary _, .operand _ => false

/-- The first of the tokens, if there is one, does not continue the phrase. -/
def Stops (p : Phrase) : List (Token ν) → Prop
  | [] => True
  | token :: _ => p.continues token.lexeme = false

/-- The phrase whose end decides where the left side of a chain ends: a product in a sum, a signed
factor in a product. -/
def Phrase.link : Phrase → Phrase
  | .sum => .product
  | .product => .signed
  | p => p

/-- What a phrase cannot go on with, its links cannot either. -/
theorem Stops.link {p : Phrase} {rest : List (Token ν)} (h : Stops p rest) :
    Stops p.link rest := by
  cases rest with
  | nil => trivial
  | cons token more =>
    obtain ⟨lexeme, position⟩ := token
    cases lexeme with
    | number value => cases p <;> rfl
    -- symbol by symbol: what continues the link continues the phrase
    | operand op => cases p <;> cases op <;> first | rfl | exact h

/-- An operand is complete in itself. -/
theorem Stops.primary (b : Base) (rest : List (Token ν)) : Stops (.primary b) rest := by
  cases rest with
  | nil => trivial
  | cons token more =>
    obtain ⟨lexeme, position⟩ := token
    cases lexeme <;> rfl

/-- A signed factor ends where its power ends. -/
theorem stops_power_iff {b : Base} {rest : List (Token ν)} :
    Stops (.power b) rest ↔ Stops .signed rest := by
  cases rest with
  | nil => exact Iff.rfl
  | cons token more =>
    obtain ⟨lexeme, position⟩ := token
    cases lexeme <;> exact Iff.rfl

/-- No phrase goes on with a closing parenthesis, so a group ends there. -/
theorem Stops.of_close (p : Phrase) {token : Token ν}
    (htoken : token.lexeme = .operand .closeParen) (rest : List (Token ν)) :
    Stops p (token :: rest) := by
  show p.continues token.lexeme = false
  rw [htoken]
  cases p <;> rfl

/-- A factor does not go on with a parenthesis; the product around it does. -/
theorem Stops.of_open {token : Token ν} (htoken : token.lexeme = .operand .openParen)
    (rest : List (Token ν)) : Stops .signed (token :: rest) := by
  show Phrase.continues .signed token.lexeme = false
  rw [htoken]
  rfl

/-- A sign between operands ends the product before it. -/
theorem Stops.of_additive {op : BinaryOp} (hop : op.IsAdditive) {token : Token ν}
    (htoken : token.lexeme = .operand op.operand) (rest : List (Token ν)) :
    Stops .product (token :: rest) := by
  show Phrase.continues .product token.lexeme = false
  rw [htoken]
  rcases hop with rfl | rfl <;> rfl

theorem Stops.of_multiplicative {op : BinaryOp} (hop : op.IsMultiplicative) {token : Token ν}
    (htoken : token.lexeme = .operand op.operand) (rest : List (Token ν)) :
    Stops .signed (token :: rest) := by
  show Phrase.continues .signed token.lexeme = false
  rw [htoken]
  rcases hop with rfl | rfl <;> rfl

end TagFormula
