/-!
# Ranges of characters

A class of characters is given as a list of closed ranges of code points.
-/

namespace TagFormula.Text

/-- `c` lies in one of the closed ranges. -/
def inRanges (ranges : List (Nat × Nat)) (c : Char) : Bool :=
  ranges.any fun (first, last) => first ≤ c.toNat && c.toNat ≤ last

@[simp] theorem inRanges_nil (c : Char) : inRanges [] c = false := rfl

@[simp] theorem inRanges_cons (first last : Nat) (ranges : List (Nat × Nat)) (c : Char) :
    inRanges ((first, last) :: ranges) c =
      (decide (first ≤ c.toNat) && decide (c.toNat ≤ last) || inRanges ranges c) := rfl

end TagFormula.Text
