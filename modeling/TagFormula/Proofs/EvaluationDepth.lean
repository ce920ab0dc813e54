import TagFormula.Proofs.FrameStack
import TagFormula.Proofs.TreeValue

/-!
# How deeply evaluation nests

`Tree.value` calls itself for the right operands on the left side of a tree, and for the operand of the
sign at the end of it. The readers count groups, signs and exponents only, and a right operand is none
of them; but between two groups a sum has room for one product on its right side, and a product for
one factor.

* **`Tree.callDepth`**: how many of these calls are inside each other.
* **`Tree.valueIn frames`**: evaluation with a frame for each call that is under way, and no more than
  `frames` of them. `valueIn_of_lt` and `valueIn_of_le` say that `callDepth` is what decides whether
  the frames last; induction on the frames, and on the tree and on what waits for one call.
* **`Derives.callDepth_le`**: two calls for each level of nesting, and two more. Induction on the
  derivation, with a bound of its own for each phrase; `exists_ofTokens_callDepth_eq` reaches it.
* **`Tree.ofTokens_callDepth_le`**: the bound for every formula that is read.
-/

namespace TagFormula

variable {ν : Type}

namespace Tree

/-- How deeply the calls of `value` for operands of the tree are nested. The left side of a chain is
walked down in the same call. -/
def callDepth : Tree ν → Nat
  | .number _ => 0
  | .negate operand => 1 + operand.callDepth
  | .binary _ left right => max left.callDepth (1 + right.callDepth)

/-! ## Evaluation on a stack of frames -/

/-- The outcome of an evaluation, if it comes to its end. -/
abbrev Outcome (ν : Type) := Option (Except (FormulaError ν) ν)

/-- Go on with the value, if there is one. -/
def Outcome.andThen (outcome : Outcome ν) (next : ν → Outcome ν) : Outcome ν :=
  match outcome with
  | none => none
  | some (.error e) => some (.error e)
  | some (.ok value) => next value

/-- `ascend`, with the calls for operands made by `call`. -/
def ascendBy (a : Arithmetic ν) (call : Tree ν → Outcome ν) :
    List (BinaryOp × Tree ν) → ν → Outcome ν
  | [], value => some (.ok value)
  | (op, right) :: rest, value =>
    (call right).andThen fun r => Outcome.andThen (some (a.apply op value r)) (ascendBy a call rest)

/-- `descend`, with the calls for operands made by `call`. -/
def descendBy (a : Arithmetic ν) (call : Tree ν → Outcome ν) :
    Tree ν → List (BinaryOp × Tree ν) → Outcome ν
  | .number value, pending => Outcome.andThen (some (a.checked value)) (ascendBy a call pending)
  | .negate operand, pending =>
    (call operand).andThen fun value =>
      Outcome.andThen (some (a.checked (a.negate value))) (ascendBy a call pending)
  | .binary op left right, pending => descendBy a call left ((op, right) :: pending)

/-- `value`, each call of which takes one of the frames for as long as it lasts. -/
def valueIn (a : Arithmetic ν) : (frames : Nat) → Tree ν → Outcome ν
  | 0, _ => none
  | frames + 1, tree => descendBy a (valueIn a frames) tree []

/-! ## Enough frames

A call answers if what it is made for is nested less deeply than there are frames left. -/

section

variable {a : Arithmetic ν} {call : Tree ν → Outcome ν} {frames : Nat}

/-- The loop over the operators that wait needs frames for their right sides only. -/
theorem ascendBy_of_lt (hcall : ∀ tree, tree.callDepth < frames → call tree = some (tree.eval a))
    {pending : List (BinaryOp × Tree ν)} (hpending : ∀ p ∈ pending, p.2.callDepth < frames)
    (value : ν) : ascendBy a call pending value = some (ascend a value pending) := by
  induction pending generalizing value with
  | nil =>
    rw [ascend_nil]
    rfl
  | cons first rest ih =>
    obtain ⟨op, right⟩ := first
    have hright : call right = some (right.eval a) := hcall right (hpending _ List.mem_cons_self)
    unfold ascendBy
    rw [hright, ascend_cons, descend_nil]
    cases right.eval a with
    | error e => rfl
    | ok r =>
      show Outcome.andThen (some (a.apply op value r)) _ = some ((a.apply op value r).bind _)
      cases a.apply op value r with
      | error e => rfl
      | ok next => exact ih (fun p hp => hpending p (List.mem_cons_of_mem _ hp)) next

/-- The loop down the left sides needs no frame of its own. Induction on the tree. -/
theorem descendBy_of_le (hcall : ∀ tree, tree.callDepth < frames → call tree = some (tree.eval a))
    {tree : Tree ν} (htree : tree.callDepth ≤ frames) {pending : List (BinaryOp × Tree ν)}
    (hpending : ∀ p ∈ pending, p.2.callDepth < frames) :
    descendBy a call tree pending = some (descend a tree pending) := by
  induction tree generalizing pending with
  | number value =>
    unfold descendBy
    rw [descend_number]
    cases a.checked value with
    | error e => rfl
    | ok value => exact ascendBy_of_lt hcall hpending value
  | negate operand _ =>
    have hoperand : operand.callDepth < frames := by
      unfold callDepth at htree
      omega
    unfold descendBy
    rw [hcall operand hoperand, descend_negate, descend_nil]
    cases operand.eval a with
    | error e => rfl
    | ok value =>
      show Outcome.andThen (some (a.checked (a.negate value))) _ =
        some ((a.checked (a.negate value)).bind _)
      cases a.checked (a.negate value) with
      | error e => rfl
      | ok negated => exact ascendBy_of_lt hcall hpending negated
  | binary op left right ihl _ =>
    -- the right operand joins those that wait
    unfold callDepth at htree
    have hright : ∀ p ∈ (op, right) :: pending, p.2.callDepth < frames := by
      intro p hp
      rcases List.mem_cons.1 hp with rfl | hp
      · show right.callDepth < frames
        omega
      · exact hpending p hp
    unfold descendBy
    rw [ihl (by omega) hright]
    conv => rhs; rw [descend]

theorem valueIn_of_lt {tree : Tree ν} (h : tree.callDepth < frames) :
    tree.valueIn a frames = some (tree.value a) := by
  induction frames generalizing tree with
  | zero => exact absurd h (Nat.not_lt_zero _)
  | succ frames ih =>
    have hcall : ∀ t : Tree ν, t.callDepth < frames → t.valueIn a frames = some (t.eval a) := by
      intro t ht
      rw [ih ht, value, descend_nil]
    exact descendBy_of_le hcall (Nat.le_of_lt_succ h) nofun

/-! ## Too few frames

An evaluation that has a value makes all its calls, so it comes to the one that is nested too deeply. -/

/-- A right side that is too deep stops the loop, however far down the list it waits. -/
theorem ascendBy_eq_none (hcall : ∀ tree, tree.callDepth < frames → call tree = some (tree.eval a))
    (hdeep : ∀ tree value, tree.eval a = .ok value → frames ≤ tree.callDepth → call tree = none)
    {pending : List (BinaryOp × Tree ν)} (hpending : ∃ p ∈ pending, frames ≤ p.2.callDepth)
    {value result : ν} (h : ascend a value pending = .ok result) :
    ascendBy a call pending value = none := by
  induction pending generalizing value with
  | nil =>
    obtain ⟨p, hp, _⟩ := hpending
    cases hp
  | cons first rest ih =>
    obtain ⟨op, right⟩ := first
    rw [ascend_cons, descend_nil] at h
    obtain ⟨r, hright, h⟩ := bind_eq_ok h
    obtain ⟨next, happly, hrest⟩ := bind_eq_ok h
    unfold ascendBy
    by_cases hframes : frames ≤ right.callDepth
    · -- this operand is too deep itself
      rw [hdeep right r hright hframes]
      rfl
    · -- this operand has a value, so a later one is too deep
      have hlater : ∃ p ∈ rest, frames ≤ p.2.callDepth := by
        obtain ⟨p, hp, hle⟩ := hpending
        rcases List.mem_cons.1 hp with rfl | hp
        · exact absurd hle hframes
        · exact ⟨p, hp, hle⟩
      rw [hcall right (Nat.lt_of_not_le hframes), hright]
      show Outcome.andThen (some (a.apply op value r)) _ = none
      rw [happly]
      exact ih hlater hrest

/-- The tree is too deep at its own operand, or one of the right sides that wait is. -/
theorem descendBy_eq_none (hcall : ∀ tree, tree.callDepth < frames → call tree = some (tree.eval a))
    (hdeep : ∀ tree value, tree.eval a = .ok value → frames ≤ tree.callDepth → call tree = none)
    {tree : Tree ν} {pending : List (BinaryOp × Tree ν)}
    (htoo : frames < tree.callDepth ∨ ∃ p ∈ pending, frames ≤ p.2.callDepth)
    {result : ν} (h : descend a tree pending = .ok result) :
    descendBy a call tree pending = none := by
  induction tree generalizing pending with
  | number value =>
    have hpending := htoo.resolve_left (Nat.not_lt_zero frames)
    rw [descend_number] at h
    obtain ⟨checked, hchecked, hrest⟩ := bind_eq_ok h
    unfold descendBy
    rw [hchecked]
    exact ascendBy_eq_none hcall hdeep hpending hrest
  | negate operand _ =>
    rw [descend_negate, descend_nil] at h
    obtain ⟨value, hoperand, h⟩ := bind_eq_ok h
    obtain ⟨negated, hnegated, hrest⟩ := bind_eq_ok h
    unfold descendBy
    by_cases hframes : frames ≤ operand.callDepth
    · rw [hdeep operand value hoperand hframes]
      rfl
    · -- the operand is not too deep, so something that waits is
      have hpending : ∃ p ∈ pending, frames ≤ p.2.callDepth := by
        refine htoo.resolve_left fun hlt => hframes ?_
        unfold callDepth at hlt
        omega
      rw [hcall operand (Nat.lt_of_not_le hframes), hoperand]
      show Outcome.andThen (some (a.checked (a.negate value))) _ = none
      rw [hnegated]
      exact ascendBy_eq_none hcall hdeep hpending hrest
  | binary op left right ihl _ =>
    rw [descend] at h
    refine ihl ?_ h
    -- what is too deep is on the left side, or the right operand, or waits already
    rcases htoo with hlt | ⟨p, hp, hle⟩
    · unfold callDepth at hlt
      by_cases hleft : frames < left.callDepth
      · exact Or.inl hleft
      · refine Or.inr ⟨(op, right), List.mem_cons_self, ?_⟩
        show frames ≤ right.callDepth
        omega
    · exact Or.inr ⟨p, List.mem_cons_of_mem _ hp, hle⟩

/-- One frame less is not enough, so the depth is exact. The tree has a value, so nothing stops the
evaluation before its deepest call. -/
theorem valueIn_of_le {tree : Tree ν} {result : ν} (h : tree.value a = .ok result)
    (hframes : frames ≤ tree.callDepth) : tree.valueIn a frames = none := by
  induction frames generalizing tree result with
  | zero => rfl
  | succ frames ih =>
    have hcall : ∀ t : Tree ν, t.callDepth < frames → t.valueIn a frames = some (t.eval a) := by
      intro t ht
      rw [valueIn_of_lt ht, value, descend_nil]
    have hdeep : ∀ (t : Tree ν) v, t.eval a = .ok v → frames ≤ t.callDepth →
        t.valueIn a frames = none := by
      intro t v ht hle
      rw [← descend_nil] at ht
      exact ih ht hle
    exact descendBy_eq_none hcall hdeep (Or.inl hframes) h

/-- An evaluation that has a value needs a frame more than its calls are nested. -/
theorem valueIn_eq_ok_iff {tree : Tree ν} {result : ν} (h : tree.value a = .ok result) :
    tree.valueIn a frames = some (.ok result) ↔ tree.callDepth < frames := by
  constructor
  · intro hin
    by_cases hframes : tree.callDepth < frames
    · exact hframes
    · rw [valueIn_of_le h (Nat.le_of_not_lt hframes)] at hin
      cases hin
  · intro hlt
    rw [valueIn_of_lt hlt, h]

end

end Tree

/-! ## The depth of what is read

Each group, sign and exponent on a path allows for two calls: a group for the product on the right
side of its sum and for the factor on the right side of that, a sign and an exponent for the call
that they make themselves. Around all of them there is one more sum. -/

/-- The calls that a phrase makes possible beyond those of the phrases that count as nested. -/
def Phrase.ownCalls : Phrase → Nat
  | .sum => 2
  | .product => 1
  | _ => 0

/-- The bound is kept by every rule. Only the right side of an operator, and what a sign negates, take a
call more. -/
theorem Derives.callDepth_le {p : Phrase} {n : Nat} {ts : List (Token ν)} {t : Tree ν}
    (h : Derives p n ts t) : t.callDepth ≤ 2 * n + p.ownCalls := by
  induction h with
  | number => exact Nat.zero_le _
  | product _ ih | signed _ ih | power _ ih | primary _ ih | plus _ _ ih | group _ _ _ ih =>
    simp only [Phrase.ownCalls] at ih ⊢
    omega
  | minus _ _ ih =>
    simp only [Tree.callDepth, Phrase.ownCalls] at ih ⊢
    omega
  | addition _ _ _ _ ihl ihr | multiplication _ _ _ _ ihl ihr | juxtaposition _ _ ihl ihr
  | raising _ _ _ ihl ihr =>
    -- the right operand is called for, the left one is not
    simp only [Tree.callDepth, Phrase.ownCalls] at ihl ihr ⊢
    omega

/-- `v + v * ( v + v * ( … ) )` makes all the calls there is room for. -/
theorem exists_callDepth_eq (v : ν) (n : Nat) :
    ∃ (tokens : List (Token ν)) (tree : Tree ν),
      Derives .sum n tokens tree ∧ tree.callDepth = 2 * n + 2 := by
  have hnumber : Derives .signed 0 [⟨.number v, 0⟩] (.number v) :=
    .power (.primary (.number rfl))
  -- the formula around a last factor that may be a group
  have haround {n : Nat} {factor : List (Token ν)} {tree : Tree ν} (h : Derives .signed n factor tree) :
      ∃ tokens, Derives .sum n tokens
        (.binary .add (.number v) (.binary .multiply (.number v) tree)) := by
    have hproduct : Derives .product (max 0 n) ([⟨.number v, 0⟩] ++ ⟨.operand .multiply, 0⟩ :: factor)
        (.binary .multiply (.number v) tree) :=
      .multiplication (.signed hnumber) (Or.inl rfl) rfl h
    have hsum : Derives .sum (max 0 (max 0 n))
        ([⟨.number v, 0⟩] ++ ⟨.operand .add, 0⟩ ::
          ([⟨.number v, 0⟩] ++ ⟨.operand .multiply, 0⟩ :: factor))
        (.binary .add (.number v) (.binary .multiply (.number v) tree)) :=
      .addition (.product (.signed hnumber)) (Or.inl rfl) rfl hproduct
    rw [Nat.zero_max, Nat.zero_max] at hsum
    exact ⟨_, hsum⟩
  induction n with
  | zero =>
    obtain ⟨tokens, htokens⟩ := haround hnumber
    exact ⟨tokens, _, htokens, rfl⟩
  | succ n ih =>
    obtain ⟨inner, tree, hinner, hdepth⟩ := ih
    have hgroup : Derives (.primary .any) (n + 1)
        (⟨.operand .openParen, 0⟩ :: (inner ++ [⟨.operand .closeParen, 0⟩])) tree :=
      .group rfl hinner rfl
    obtain ⟨tokens, htokens⟩ := haround (.power (.primary hgroup))
    refine ⟨tokens, _, htokens, ?_⟩
    simp only [Tree.callDepth, hdepth]
    omega

namespace Tree

/-- No smaller bound holds for all formulas. -/
theorem exists_ofTokens_callDepth_eq (v : ν) :
    ∃ (tokens : List (Token ν)) (tree : Tree ν),
      ofTokens tokens = .ok tree ∧ tree.callDepth = 2 * maxDepth + 2 := by
  obtain ⟨tokens, tree, hsum, hdepth⟩ := exists_callDepth_eq v maxDepth
  exact ⟨tokens, tree, ofTokens_of_derives hsum (Nat.le_refl _), hdepth⟩

/-- **Evaluation nests within bounds.** However long the formula, the tree that is read has its calls
nested at most `2 * maxDepth + 2` deep, so that many frames and one for the formula itself let every
evaluation come to its end. An evaluation that has a value does need a frame for each of them. -/
theorem ofTokens_callDepth_le {tokens : List (Token ν)} {tree : Tree ν}
    (h : ofTokens tokens = .ok tree) :
    tree.callDepth ≤ 2 * maxDepth + 2 ∧
      ∀ a : Arithmetic ν,
        tree.valueIn a (2 * maxDepth + 3) = some (tree.value a) ∧
          ∀ result frames, tree.value a = .ok result →
            (tree.valueIn a frames = some (.ok result) ↔ tree.callDepth < frames) := by
  obtain ⟨n, hn, hsum⟩ := derives_of_ofTokens h
  have hdepth : tree.callDepth ≤ 2 * n + 2 := hsum.callDepth_le
  have hbound : tree.callDepth ≤ 2 * maxDepth + 2 := by omega
  exact ⟨hbound, fun a => ⟨valueIn_of_lt (Nat.lt_succ_of_le hbound),
    fun _ _ hvalue => valueIn_eq_ok_iff hvalue⟩⟩

/-- `1 - 2 / - 3` nests three calls: for the quotient, the divisor and what the sign negates. -/
theorem ofTokens_negated_divisor_callDepth :
    let tokens : List (Token Nat) := [⟨.number 1, 0⟩, ⟨.operand .subtract, 2⟩, ⟨.number 2, 4⟩,
      ⟨.operand .divide, 6⟩, ⟨.operand .subtract, 8⟩, ⟨.number 3, 10⟩]
    let tree : Tree Nat :=
      .binary .subtract (.number 1) (.binary .divide (.number 2) (.negate (.number 3)))
    ofTokens tokens = .ok tree ∧ tree.callDepth = 3 ∧ tree.callDepth ≤ 2 * maxDepth + 2 := by
  intro tokens tree
  have hread : ofTokens tokens = .ok tree := by
    rw [Cursor.ofTokens_eq_run (List.cons_ne_nil _ _)]
    rfl
  exact ⟨hread, rfl, (ofTokens_callDepth_le hread).1⟩

end Tree

end TagFormula
