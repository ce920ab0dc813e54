import TagFormula.Operand

/-!
# Tokens and formula errors

The tokens of a formula and the reasons why it has no value. The numbers are a parameter `ν`:
doubles when a formula is run, anything where only its structure matters.
-/

namespace TagFormula

inductive Lexeme (ν : Type) where
  | number (value : ν)
  | operand (op : Operand)
  deriving DecidableEq, Repr

/-- A lexeme with the position of its first byte in the text. -/
structure Token (ν : Type) where
  lexeme : Lexeme ν
  position : Nat
  deriving DecidableEq, Repr

/-- Why a formula has no value. Positions count bytes from the start of the text. -/
inductive FormulaError (ν : Type) where
  /-- There is nothing to evaluate. -/
  | empty
  /-- A character that no formula contains. -/
  | unknownCharacter (c : Char) (position : Nat)
  /-- A run of number characters that is no number. -/
  | invalidNumber (text : String) (position : Nat)
  /-- A token that may not stand where it does. -/
  | unexpected (lexeme : Lexeme ν) (position : Nat)
  /-- The formula ends where a number or a group has to come. -/
  | unexpectedEnd
  /-- Groups, signs and exponents are nested too deeply. -/
  | tooDeep (position : Nat)
  /-- A parenthesis without its partner. -/
  | unbalanced (position : Nat)
  /-- The right-hand side of a division is zero. -/
  | divisionByZero
  /-- A number or a result that is infinite or not a number. -/
  | nonFinite (value : ν)
  deriving DecidableEq, Repr

end TagFormula
