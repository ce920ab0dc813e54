import TagFormula.Expression.Token
import TagFormula.Expression.Tree

/-!
# The value of a formula tree

Every number that enters or leaves an operation has to be finite, and a divisor must not be zero.
A chain of operations leans to the left and can be as long as the formula, so `Tree.value` walks
down its left side in a loop and comes back up operation by operation; it nests only for right
operands and negated ones.
-/

namespace TagFormula

/-- What evaluation needs to know of the numbers. -/
structure Arithmetic (ν : Type) where
  negate : ν → ν
  add : ν → ν → ν
  subtract : ν → ν → ν
  multiply : ν → ν → ν
  divide : ν → ν → ν
  power : ν → ν → ν
  isZero : ν → Bool
  isFinite : ν → Bool

namespace Arithmetic

/-- The arithmetic of doubles. Both zeros are zero. -/
def double : Arithmetic Float where
  negate x := -x
  add x y := x + y
  subtract x y := x - y
  multiply x y := x * y
  divide x y := x / y
  power x y := x.pow y
  isZero x := x == 0.0
  isFinite x := x.isFinite

variable {ν : Type} (a : Arithmetic ν)

/-- A number that may be used: a finite one. -/
def checked (value : ν) : Except (FormulaError ν) ν :=
  if a.isFinite value then .ok value else .error (.nonFinite value)

/-- The result of an operation, which has to be finite. -/
def apply (op : BinaryOp) (left right : ν) : Except (FormulaError ν) ν :=
  match op with
  | .add => a.checked (a.add left right)
  | .subtract => a.checked (a.subtract left right)
  | .multiply => a.checked (a.multiply left right)
  | .divide => if a.isZero right then .error .divisionByZero else a.checked (a.divide left right)
  | .power => a.checked (a.power left right)

end Arithmetic

namespace Tree

/-- The work left in the right operands that wait for their left side. -/
def pendingSize (pending : List (BinaryOp × Tree ν)) : Nat :=
  pending.foldr (fun (_, right) size => 2 * right.size + 1 + size) 0

mutual

/-- Walk down the left side of `tree` and collect the operations on the way, then apply them. -/
def descend (a : Arithmetic ν) (tree : Tree ν) (pending : List (BinaryOp × Tree ν)) :
    Except (FormulaError ν) ν :=
  match tree with
  | .binary op left right => descend a left ((op, right) :: pending)
  | .number value =>
    match a.checked value with
    | .error e => .error e
    | .ok value => ascend a value pending
  | .negate operand =>
    match descend a operand [] with
    | .error e => .error e
    | .ok value =>
      match a.checked (a.negate value) with
      | .error e => .error e
      | .ok value => ascend a value pending
termination_by 2 * tree.size + pendingSize pending
decreasing_by
  all_goals simp [size, pendingSize]
  all_goals omega

/-- Apply the waiting operations to the value of their left side, innermost first. -/
def ascend (a : Arithmetic ν) (value : ν) (pending : List (BinaryOp × Tree ν)) :
    Except (FormulaError ν) ν :=
  match pending with
  | [] => .ok value
  | (op, right) :: rest =>
    match descend a right [] with
    | .error e => .error e
    | .ok r =>
      match a.apply op value r with
      | .error e => .error e
      | .ok value => ascend a value rest
termination_by pendingSize pending
decreasing_by
  all_goals simp [pendingSize]
  all_goals omega

end

def value (a : Arithmetic ν) (tree : Tree ν) : Except (FormulaError ν) ν :=
  descend a tree []

end Tree

end TagFormula
