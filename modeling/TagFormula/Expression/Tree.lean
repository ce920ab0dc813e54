/-!
# Formula trees

The structure of a formula, once its parentheses and the order of its operations are resolved, and
the value of it. What it means to add or to divide is a parameter, `Arithmetic`.
-/

namespace TagFormula

inductive BinaryOp where
  | add
  | subtract
  | multiply
  | divide
  | power
  deriving DecidableEq, Repr

/-- A formula tree over the numbers `ν`. A sign `+` leaves no trace in it. -/
inductive Tree (ν : Type) where
  | number (value : ν)
  | negate (operand : Tree ν)
  | binary (op : BinaryOp) (left right : Tree ν)
  deriving DecidableEq, Repr

inductive Step (ν : Type) where
  | push (value : ν)
  | negate
  | apply (op : BinaryOp)
  deriving DecidableEq, Repr

namespace Tree

/-- The postfix form of a tree in front of further steps. -/
def postfixOnto : Tree ν → List (Step ν) → List (Step ν)
  | number value, steps => .push value :: steps
  | negate operand, steps => operand.postfixOnto (.negate :: steps)
  | binary op left right, steps => left.postfixOnto (right.postfixOnto (.apply op :: steps))

/-- The postfix form: operands before their operation, the left one first. -/
def toPostfix (tree : Tree ν) : List (Step ν) :=
  tree.postfixOnto []

/-- The number of nodes. -/
def size : Tree ν → Nat
  | number _ => 1
  | negate operand => operand.size + 1
  | binary _ left right => left.size + right.size + 1

end Tree

end TagFormula
