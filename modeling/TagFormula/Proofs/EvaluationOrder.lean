import TagFormula.Proofs.TreeValue

/-!
# The order of evaluation

`Tree.value` keeps the operations it passes on its way down and applies them on its way back up. None
of that can be told from its result, for whatever arithmetic it is run with: the value, and which of
several faults is reported, are those of the plain recursion, and those of the postfix form taken
step by step.

* **`Arithmetic.combine`**, **`apply_eq`**: an operation without its checks, and which checks there are.
* **`isZero_double_iff`**: the divisors that are refused among doubles are the two zeros.
* **`Step.execute`**, **`foldlM_execute_postfixOnto`**: the postfix form on a stack of values. Induction
  on the tree, for every stack below its value and all steps behind its own.
* **`Tree.value_agrees_with_recursion`**: all of it together.
-/

namespace TagFormula

/-! ## Operations and their checks -/

namespace Arithmetic

variable {ν : Type} (a : Arithmetic ν)

/-- The operation alone, without any check. -/
def combine : BinaryOp → ν → ν → ν
  | .add => a.add
  | .subtract => a.subtract
  | .multiply => a.multiply
  | .divide => a.divide
  | .power => a.power

/-- The divisor is looked at before the division, every result after the operation. -/
theorem apply_eq (op : BinaryOp) (left right : ν) :
    a.apply op left right =
      if op = .divide ∧ a.isZero right = true then .error .divisionByZero
      else a.checked (a.combine op left right) := by
  cases op with
  | divide =>
    unfold apply combine
    by_cases hzero : a.isZero right = true
    · rw [if_pos hzero, if_pos ⟨rfl, hzero⟩]
    · rw [if_neg hzero, if_neg fun h => hzero h.2]
  | _ =>
    rw [if_neg fun h => nomatch h.1]
    rfl

end Arithmetic

/-! ## Zeros among doubles

A double is a sign, eleven bits of exponent and fifty-two of the significand, and it compares equal to
zero if the last two are zero. The sign is all that is left to choose. -/

section

open Float.Model (UnpackedFloat Format)
open Float.Model.UnpackedFloat (Sign unpackMantissa unpackExponent)

/-- The test for a divisor of zero does not see the sign of the zero. -/
theorem compare_zero_iff {x : UnpackedFloat} {s : Sign} :
    x.compare (.zero s) = some .eq ↔ ∃ sign, x = .zero sign := by
  cases x with
  | zero sign => exact ⟨fun _ => ⟨sign, rfl⟩, fun _ => rfl⟩
  | notANumber => exact ⟨nofun, nofun⟩
  | infinity sign | finite sign _ _ _ => cases sign <;> exact ⟨nofun, nofun⟩

/-- The bits of a zero are its sign. -/
theorem toNat_of_unpack_zero {bits : BitVec Format.binary64.numBits} {s : Sign}
    (h : UnpackedFloat.unpack Format.binary64 bits = .zero s) :
    bits.toNat = 0 ∨ bits.toNat = 0x8000000000000000 := by
  unfold UnpackedFloat.unpack at h
  dsimp only at h
  by_cases hones : unpackExponent bits = -BitVec.ofNat _ 1
  · -- all ones: infinite or not a number
    rw [if_pos hones] at h
    by_cases hsignificand : unpackMantissa bits = BitVec.ofNat _ 0
    · rw [if_pos hsignificand] at h
      cases h
    · rw [if_neg hsignificand] at h
      cases h
  · rw [if_neg hones] at h
    by_cases hexponent : unpackExponent bits = BitVec.ofNat _ 0
    · rw [if_pos hexponent] at h
      by_cases hsignificand : unpackMantissa bits = BitVec.ofNat _ 0
      · -- no exponent and no significand: only the sign is left
        have hlow : bits.toNat % 0x10000000000000 = 0 := by
          have hnat := congrArg BitVec.toNat hsignificand
          simpa [unpackMantissa] using hnat
        have hmiddle : bits.toNat / 0x10000000000000 % 0x800 = 0 := by
          have hnat := congrArg BitVec.toNat hexponent
          simpa [unpackExponent, Nat.shiftRight_eq_div_pow] using hnat
        have hbound : bits.toNat < 0x10000000000000000 := bits.isLt
        omega
      · -- a significand without its leading one
        rw [dif_neg hsignificand] at h
        cases h
    · rw [if_neg hexponent] at h
      cases h

/-- Division refuses zero with either sign, and nothing else. -/
theorem Arithmetic.isZero_double_iff (x : Float) :
    Arithmetic.double.isZero x = true ↔ x = 0.0 ∨ x = -0.0 := by
  constructor
  · intro h
    have hright : (0.0 : Float).toModel.unpack = .zero .positive := rfl
    have hequal : (x.toModel.unpack.compare (0.0 : Float).toModel.unpack == some .eq) = true := h
    rw [hright, beq_iff_eq, compare_zero_iff] at hequal
    obtain ⟨sign, hsign⟩ := hequal
    obtain ⟨⟨bits, hvalid⟩⟩ := x
    rcases toNat_of_unpack_zero hsign with hbits | hbits
    · obtain rfl : bits = 0 := UInt64.toNat_inj.1 hbits
      exact Or.inl rfl
    · obtain rfl : bits = 0x8000000000000000 := UInt64.toNat_inj.1 hbits
      exact Or.inr rfl
  · rintro (rfl | rfl) <;> decide

end

/-! ## The postfix form on a stack

The steps of a tree leave its value on top of what was on the stack, and the first step that fails is
the end of it. -/

section

variable {ν : Type} (a : Arithmetic ν)

namespace Step

/-- Put a value on a stack, which it has to be finite for. -/
def pushFinite (value : ν) (stack : List ν) : Except (FormulaError ν) (List ν) :=
  if a.isFinite value = true then .ok (value :: stack) else .error (.nonFinite value)

/-- What a step does to the values on a stack, the top one first. With too few values on it, which the
steps of a tree never meet, nothing happens. -/
def execute (stack : List ν) (step : Step ν) : Except (FormulaError ν) (List ν) :=
  match step, stack with
  | .push value, stack => pushFinite a value stack
  | .negate, operand :: stack => pushFinite a (a.negate operand) stack
  | .apply op, right :: left :: stack =>
    if op = .divide ∧ a.isZero right = true then .error .divisionByZero
    else pushFinite a (a.combine op left right) stack
  | _, stack => .ok stack

/-- The check before a push is the check of the evaluation. -/
theorem pushFinite_eq (value : ν) (stack : List ν) :
    pushFinite a value stack = (a.checked value).map (· :: stack) := by
  unfold pushFinite Arithmetic.checked
  split <;> rfl

end Step

namespace Tree

/-- The steps of a tree leave its value on the stack, in front of what the later steps find. Induction
on the tree, for all steps behind it. -/
theorem foldlM_execute_postfixOnto (tree : Tree ν) (steps : List (Step ν)) (stack : List ν) :
    (tree.postfixOnto steps).foldlM (Step.execute a) stack =
      (tree.eval a).bind fun value => steps.foldlM (Step.execute a) (value :: stack) := by
  induction tree generalizing steps stack with
  | number value =>
    show Step.pushFinite a value stack >>= _ = (a.checked value).bind _
    rw [Step.pushFinite_eq]
    cases a.checked value <;> rfl
  | negate operand ih =>
    unfold postfixOnto eval
    rw [ih]
    cases operand.eval a with
    | error e => rfl
    | ok value =>
      show Step.pushFinite a (a.negate value) stack >>= _ = (a.checked (a.negate value)).bind _
      rw [Step.pushFinite_eq]
      cases a.checked (a.negate value) <;> rfl
  | binary op left right ihl ihr =>
    -- the right operand runs on top of the value of the left one
    unfold postfixOnto eval
    rw [ihl]
    cases left.eval a with
    | error e => rfl
    | ok l =>
      show List.foldlM _ _ (right.postfixOnto _) = _
      rw [ihr]
      cases right.eval a with
      | error e => rfl
      | ok r =>
        show Step.execute a (r :: l :: stack) (.apply op) >>= _ = (a.apply op l r).bind _
        rw [a.apply_eq, Step.execute]
        split
        · rfl
        · rw [Step.pushFinite_eq]
          cases a.checked (a.combine op l r) <;> rfl

theorem foldlM_execute_toPostfix (tree : Tree ν) :
    tree.toPostfix.foldlM (Step.execute a) [] = (tree.eval a).map ([·]) := by
  unfold toPostfix
  rw [foldlM_execute_postfixOnto]
  cases tree.eval a <;> rfl

/-- **Evaluation is recursion on the tree.** Walking down the left side and coming back up gives what
plain recursion gives, the same value or the same error: the operands are evaluated before their
operation and the left one first, a division by zero is refused before it is done, and every number
and every result is checked to be finite. The postfix form, step by step on a stack, gives it too, so
the error is that of the first step that fails. Among doubles zero is zero with either sign. -/
theorem value_agrees_with_recursion (tree : Tree ν) :
    tree.value a = tree.eval a ∧
      (∀ op left right, a.apply op left right =
        if op = .divide ∧ a.isZero right = true then .error .divisionByZero
        else a.checked (a.combine op left right)) ∧
      tree.toPostfix.foldlM (Step.execute a) [] = (tree.value a).map ([·]) ∧
      ∀ x, Arithmetic.double.isZero x = true ↔ x = 0.0 ∨ x = -0.0 := by
  have hvalue : tree.value a = tree.eval a := descend_nil a tree
  refine ⟨hvalue, a.apply_eq, ?_, Arithmetic.isZero_double_iff⟩
  rw [hvalue]
  exact foldlM_execute_toPostfix a tree

end Tree

end

end TagFormula
