import TagFormula.Expression.Value

/-!
# Evaluation by recursion on the tree

`Tree.descend` walks down the left side of a tree with the operations it passes in a list, so its
result depends on what already waits there. `Tree.eval` has no such list.

* **`Tree.eval`**: a tree's value by plain recursion, operands before their operation and the left
  one first.
* **`Tree.descend_eq_bind`**: what waits is applied to the value of the tree. Induction on the tree,
  for every list of waiting operations.
-/

namespace TagFormula

namespace Tree

variable {ν : Type} (a : Arithmetic ν)

/-- The value of a tree by recursion on it: operands before their operation, the left one first. -/
def eval : Tree ν → Except (FormulaError ν) ν
  | .number value => a.checked value
  | .negate operand => (eval operand).bind fun value => a.checked (a.negate value)
  | .binary op left right =>
    (eval left).bind fun l => (eval right).bind fun r => a.apply op l r

@[simp] theorem ascend_nil (value : ν) : ascend a value [] = .ok value := by
  rw [ascend]

/-- The operator that waits first gets its right side. -/
theorem ascend_cons (value : ν) (op : BinaryOp) (right : Tree ν)
    (pending : List (BinaryOp × Tree ν)) :
    ascend a value ((op, right) :: pending) =
      (descend a right []).bind fun r =>
        (a.apply op value r).bind fun value => ascend a value pending := by
  rw [ascend]
  cases descend a right [] with
  | error e => rfl
  | ok r =>
    simp only [Except.bind]
    cases a.apply op value r <;> rfl

theorem descend_number (value : ν) (pending : List (BinaryOp × Tree ν)) :
    descend a (.number value) pending =
      (a.checked value).bind fun value => ascend a value pending := by
  rw [descend]
  cases a.checked value <;> rfl

/-- A sign takes a call of its own for its operand. -/
theorem descend_negate (operand : Tree ν) (pending : List (BinaryOp × Tree ν)) :
    descend a (.negate operand) pending =
      (descend a operand []).bind fun value =>
        (a.checked (a.negate value)).bind fun value => ascend a value pending := by
  rw [descend]
  cases descend a operand [] with
  | error e => rfl
  | ok value =>
    simp only [Except.bind]
    cases a.checked (a.negate value) <;> rfl

theorem bind_ascend_nil (x : Except (FormulaError ν) ν) :
    (x.bind fun value => ascend a value []) = x := by
  cases x with
  | error e => rfl
  | ok value => exact ascend_nil a value

/-- The operations that wait are applied to the value of the tree. -/
theorem descend_eq_bind (tree : Tree ν) (pending : List (BinaryOp × Tree ν)) :
    descend a tree pending = (tree.eval a).bind fun value => ascend a value pending := by
  induction tree generalizing pending with
  | number value => exact descend_number a value pending
  | negate operand ih =>
    -- the operand is evaluated with nothing waiting
    rw [descend_negate, ih, bind_ascend_nil, eval]
    cases operand.eval a <;> rfl
  | binary op left right ihl ihr =>
    rw [descend, ihl, eval]
    cases left.eval a with
    | error e => rfl
    | ok l =>
      -- the operation that waited for the left side comes first
      show ascend a l ((op, right) :: pending) = _
      rw [ascend_cons, ihr, bind_ascend_nil]
      show _ = ((right.eval a).bind fun r => a.apply op l r).bind _
      cases right.eval a <;> rfl

/-- With nothing waiting the value is that of the tree. -/
theorem descend_nil (tree : Tree ν) : descend a tree [] = tree.eval a := by
  rw [descend_eq_bind, bind_ascend_nil]

end Tree

end TagFormula
