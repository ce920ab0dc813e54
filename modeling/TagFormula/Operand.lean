/-!
# Operands

The seven symbols that a formula is built with, beside its numbers.
-/

namespace TagFormula

inductive Operand where
  | add
  | subtract
  | multiply
  | divide
  | openParen
  | closeParen
  | power
  deriving DecidableEq, Repr

namespace Operand

/-- Every operand, in the order in which they are listed to users. -/
def all : List Operand :=
  [add, subtract, multiply, divide, openParen, closeParen, power]

def toChar : Operand → Char
  | add => '+'
  | subtract => '-'
  | multiply => '*'
  | divide => '/'
  | openParen => '('
  | closeParen => ')'
  | power => '^'

def ofChar? (c : Char) : Option Operand :=
  match c with
  | '+' => some add
  | '-' => some subtract
  | '*' => some multiply
  | '/' => some divide
  | '(' => some openParen
  | ')' => some closeParen
  | '^' => some power
  | _ => none

/-- The operand whose symbol is the whole text. -/
def ofChars? : List Char → Option Operand
  | [c] => ofChar? c
  | _ => none

def symbol (op : Operand) : String :=
  op.toChar.toString

@[simp] theorem ofChar?_toChar (op : Operand) : ofChar? op.toChar = some op := by
  cases op <;> rfl

theorem toChar_of_ofChar? {c : Char} {op : Operand} (h : ofChar? c = some op) :
    op.toChar = c := by
  unfold ofChar? at h
  split at h <;> first | cases h; rfl | cases h

/-- Reading and writing the character of an operand are inverse. -/
theorem ofChar?_eq_some_iff {c : Char} {op : Operand} : ofChar? c = some op ↔ c = op.toChar :=
  ⟨fun h => (toChar_of_ofChar? h).symm, fun h => h ▸ ofChar?_toChar op⟩

/-- Only a text of one character is an operand, so a sign before a number is none. -/
theorem ofChars?_eq_some_iff {cs : List Char} {op : Operand} :
    ofChars? cs = some op ↔ cs = [op.toChar] := by
  constructor
  · intro h
    rw [ofChars?.eq_def] at h
    split at h
    · rw [ofChar?_eq_some_iff.1 h]
    · cases h
  · rintro rfl
    exact ofChar?_toChar op

theorem mem_all (op : Operand) : op ∈ all := by
  cases op <;> decide

end Operand

end TagFormula
