import TagFormula.Expression.Reading

/-!
# Reading token by token

The readers of `Tree` call each other; what waits for a call to return is not visible in them. Here it
is written down: a stack of frames, one for each phrase that is begun and not complete, and a cursor
that takes one token after the other.
-/

namespace TagFormula

variable {ν : Type}

/-! ## Frames -/

/-- A phrase that is begun, and what it waits for. -/
inductive Frame (ν : Type) where
  /-- A sum and the sign after it: the next product. -/
  | term (left : Tree ν) (op : BinaryOp)
  /-- A product and the sign after it: the next factor. -/
  | factor (left : Tree ν) (op : BinaryOp)
  /-- A sign: the factor it belongs to. -/
  | sign (negative : Bool)
  /-- The base of a power: the exponent. -/
  | exponent (base : Tree ν)
  /-- An opening parenthesis: the sum and the closing one. -/
  | group (opening : Token ν)

namespace Frame

/-- The tree of the phrase once what it waits for has come. -/
def complete : Frame ν → Tree ν → Tree ν
  | term left op, tree | factor left op, tree => .binary op left tree
  | sign negative, tree => if negative then .negate tree else tree
  | exponent base, tree => .binary .power base tree
  | group _, tree => tree

/-- The phrase is complete at the end of a link of a sum, or of a product. -/
def endsIn : Frame ν → (sum : Bool) → Bool
  | group _, _ => false
  | term _ _, sum => sum
  | _, _ => true

/-- The phrase that a frame waits for. -/
def awaits : Frame ν → Phrase
  | term _ _ => .product
  | group _ => .sum
  | _ => .signed

/-- The parenthesis that a frame leaves open. -/
def opening? : Frame ν → Option (Token ν)
  | group opening => some opening
  | _ => none

end Frame

/-- The depth at which a stack reads on. Signs, exponents and groups count; links of sums and products
do not. -/
def nesting : List (Frame ν) → Nat
  | [] => 0
  | .sign _ :: stack | .exponent _ :: stack | .group _ :: stack => nesting stack + 1
  | .term _ _ :: stack | .factor _ _ :: stack => nesting stack

/-- Complete the phrases on top of a stack that end where a link of a sum, or of a product, ends. -/
def unwind (sum : Bool) (tree : Tree ν) : List (Frame ν) → Tree ν × List (Frame ν)
  | [] => (tree, [])
  | frame :: stack =>
    if frame.endsIn sum then unwind sum (frame.complete tree) stack else (tree, frame :: stack)

/-! ## The cursor -/

/-- Where the reading of a formula stands. -/
inductive Cursor (ν : Type) where
  /-- An operand has to come. -/
  | operand (stack : List (Frame ν))
  /-- After an operand. -/
  | operation (tree : Tree ν) (stack : List (Frame ν))

namespace Cursor

/-- Begin a phrase that counts as nested. -/
def enter (token : Token ν) (frame : Frame ν) (stack : List (Frame ν)) :
    Except (FormulaError ν) (Cursor ν) :=
  if maxDepth ≤ nesting stack then .error (.tooDeep token.position)
  else .ok (.operand (frame :: stack))

/-- A link of a product or a sum is over and another one has to come. -/
def link (sum : Bool) (op : BinaryOp) (tree : Tree ν) (stack : List (Frame ν)) : List (Frame ν) :=
  let (left, stack) := unwind sum tree stack
  (if sum then .term left op else .factor left op) :: stack

/-- What one token does. -/
def step : Cursor ν → Token ν → Except (FormulaError ν) (Cursor ν)
  | operand stack, token =>
    match token.lexeme with
    | .number value => .ok (.operation (.number value) stack)
    | .operand .openParen => enter token (.group token) stack
    | .operand .add => enter token (.sign false) stack
    | .operand .subtract => enter token (.sign true) stack
    | .operand .closeParen => .error (.unbalanced token.position)
    | .operand _ => .error token.refused
  | operation tree stack, token =>
    match token.lexeme with
    | .number _ => .error token.refused
    | .operand .power => enter token (.exponent tree) stack
    | .operand .multiply => .ok (.operand (link false .multiply tree stack))
    | .operand .divide => .ok (.operand (link false .divide tree stack))
    | .operand .openParen => enter token (.group token) (link false .multiply tree stack)
    | .operand .add => .ok (.operand (link true .add tree stack))
    | .operand .subtract => .ok (.operand (link true .subtract tree stack))
    | .operand .closeParen =>
      match unwind true tree stack with
      | (inner, .group _ :: stack) => .ok (.operation inner stack)
      | _ => .error (.unbalanced token.position)

/-- What the tokens so far amount to. -/
def finish : Cursor ν → Except (FormulaError ν) (Tree ν)
  | operand _ => .error .unexpectedEnd
  | operation tree stack =>
    match unwind true tree stack with
    | (_, .group opening :: _) => .error (.unbalanced opening.position)
    | (tree, _) => .ok tree

/-- Token after token, as long as there is no error. -/
def advance : Cursor ν → List (Token ν) → Except (FormulaError ν) (Cursor ν)
  | cursor, [] => .ok cursor
  | cursor, token :: more => (cursor.step token).bind fun next => next.advance more

/-- Take all tokens, and nothing may be missing then. -/
def run (cursor : Cursor ν) (tokens : List (Token ν)) : Except (FormulaError ν) (Tree ν) :=
  (cursor.advance tokens).bind finish

end Cursor

end TagFormula
