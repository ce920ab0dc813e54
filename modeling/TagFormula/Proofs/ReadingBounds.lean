import TagFormula.Expression.ReadHead
import TagFormula.Proofs.ReaderEquations

/-!
# Readings end within their bounds

A head that reads a formula keeps to the tokens and to the depths allowed, leaves what it enters, and
comes to its end.

* **`Ends reading a`**: with enough calls the reading comes to `a`, and more calls change nothing.
* **`Walks tokens head after`**: the way from `head` to `after` keeps to its bounds.
* **`Lands tokens head answer reading`**: the reading ends behind such a way, with the answer of `Tree`.
  One lemma per reader, `lands_sum` to `lands_primary`; each loop takes a token in every round.
* **`formula_ends`**: whole formulas are read as `Tree.ofTokens` reads them.
* **`read_within_bounds`**: what the readers promise, from wherever they start.
-/

namespace TagFormula

namespace ReadHead

variable {ν : Type}

/-! ## Enough calls -/

/-- With enough calls the reading comes to `a`, and more calls change nothing. -/
def Ends {α : Type} (reading : Nat → Option α) (a : α) : Prop :=
  ∃ enough, ∀ calls, enough ≤ calls → reading calls = some a

section Ends

variable {α β : Type} {reading called : Nat → Option α} {a a' : α}

/-- A reading that takes no calls. -/
theorem Ends.of_forall (h : ∀ calls, reading calls = some a) : Ends reading a :=
  ⟨0, fun calls _ => h calls⟩

/-- One call more around the reading. -/
theorem Ends.call (h : Ends called a) (hcall : ∀ calls, reading (calls + 1) = called calls) :
    Ends reading a := by
  obtain ⟨enough, hcalled⟩ := h
  refine ⟨enough + 1, fun calls hcalls => ?_⟩
  obtain ⟨fewer, rfl⟩ : ∃ fewer, calls = fewer + 1 := ⟨calls - 1, by omega⟩
  rw [hcall]
  exact hcalled fewer (Nat.le_of_succ_le_succ hcalls)

/-- Two readings, one behind the other. With enough calls for each, both end. -/
theorem Ends.bind {next : α → Nat → Option β} {b : β} (h : Ends reading a)
    (hnext : Ends (next a) b) : Ends (fun calls => (reading calls).bind fun a => next a calls) b := by
  obtain ⟨enough, hreading⟩ := h
  obtain ⟨further, hfurther⟩ := hnext
  refine ⟨max enough further, fun calls hcalls => ?_⟩
  show (reading calls).bind _ = some b
  rw [hreading calls (Nat.le_trans (Nat.le_max_left _ _) hcalls)]
  exact hfurther calls (Nat.le_trans (Nat.le_max_right _ _) hcalls)

/-- A reading comes to one end. -/
theorem Ends.unique (h : Ends reading a) (h' : Ends reading a') : a = a' := by
  obtain ⟨enough, hreading⟩ := h
  obtain ⟨enough', hreading'⟩ := h'
  have heq := hreading (max enough enough') (Nat.le_max_left _ _)
  rw [hreading' _ (Nat.le_max_right _ _)] at heq
  exact (Option.some.inj heq).symm

end Ends

/-! ## Ways that keep to their bounds -/

variable {tokens : List (Token ν)} {head middle after : ReadHead}

/-- The head stands at a token or at the end, and not too deep. -/
structure Inside (tokens : List (Token ν)) (head : ReadHead) : Prop where
  index_le : head.index ≤ tokens.length
  depth_le : head.depth ≤ maxDepth

/-- The way from `head` to `after` keeps to its bounds. -/
structure Walks (tokens : List (Token ν)) (head after : ReadHead) : Prop where
  /-- It does not go back. -/
  index_le : head.index ≤ after.index
  /-- It does not leave the tokens. -/
  index_le_length : after.index ≤ tokens.length
  /-- It comes back to the depth where it began. -/
  depth_eq : after.depth = head.depth
  /-- On the way it was never less deep than there, nor too deep. -/
  trail : ∃ passed, after.trail = passed ++ head.trail ∧
    ∀ depth ∈ passed, head.depth ≤ depth ∧ depth ≤ maxDepth

theorem Walks.refl (hhead : Inside tokens head) : Walks tokens head head where
  index_le := Nat.le_refl _
  index_le_length := hhead.index_le
  depth_eq := rfl
  trail := ⟨[], rfl, nofun⟩

/-- Two ways, one behind the other. -/
theorem Walks.trans (hfirst : Walks tokens head middle) (hsecond : Walks tokens middle after) :
    Walks tokens head after := by
  obtain ⟨passed, hpassed, hbounds⟩ := hfirst.trail
  obtain ⟨further, hfurther, hfurtherBounds⟩ := hsecond.trail
  rw [hfirst.depth_eq] at hfurtherBounds
  refine ⟨Nat.le_trans hfirst.index_le hsecond.index_le, hsecond.index_le_length,
    hsecond.depth_eq.trans hfirst.depth_eq, further ++ passed, ?_, ?_⟩
  · rw [hfurther, hpassed, List.append_assoc]
  · exact List.forall_mem_append.2 ⟨hfurtherBounds, hbounds⟩

/-- A way that keeps to its bounds ends where another can begin. -/
theorem Walks.inside (hwalks : Walks tokens head after) (hhead : Inside tokens head) :
    Inside tokens after where
  index_le := hwalks.index_le_length
  depth_le := by
    rw [hwalks.depth_eq]
    exact hhead.depth_le

theorem index_advance {token : Token ν} (hnext : head.next? tokens = some token) :
    (head.advance tokens).index = head.index + 1 := by
  rw [advance, hnext]

@[simp] theorem depth_advance : (head.advance tokens).depth = head.depth := by
  rw [advance]
  split <;> rfl

@[simp] theorem trail_advance : (head.advance tokens).trail = head.trail := by
  rw [advance]
  split <;> rfl

theorem lt_of_next? {token : Token ν} (hnext : head.next? tokens = some token) :
    head.index < tokens.length :=
  (List.getElem?_eq_some_iff.1 hnext).1

/-- The tokens that are left, as the readers of `Tree` see them. -/
theorem drop_of_next?_none (hnext : head.next? tokens = none) : tokens.drop head.index = [] :=
  List.drop_eq_nil_of_le (List.getElem?_eq_none_iff.1 hnext)

theorem drop_of_next? {token : Token ν} (hnext : head.next? tokens = some token) :
    tokens.drop head.index = token :: tokens.drop (head.advance tokens).index := by
  obtain ⟨hlt, hget⟩ := List.getElem?_eq_some_iff.1 hnext
  rw [index_advance hnext, List.drop_eq_getElem_cons hlt, hget]

/-- A step past a token keeps to the bounds. -/
theorem walks_advance {token : Token ν} (hnext : head.next? tokens = some token) :
    Walks tokens head (head.advance tokens) where
  index_le := by
    rw [index_advance hnext]
    exact Nat.le_succ _
  index_le_length := by
    rw [index_advance hnext]
    exact lt_of_next? hnext
  depth_eq := depth_advance
  trail := ⟨[], trail_advance, nofun⟩

/-- From `head` a phrase is begun that counts as nested: `token` is taken, `inner` is one deeper, and
every way from there that keeps to its bounds can be ended by a step back. -/
structure Descends (tokens : List (Token ν)) (token : Token ν) (head inner : ReadHead) : Prop where
  enter_eq : (head.advance tokens).enter token = .ok inner
  inside : Inside tokens inner
  depth_eq : inner.depth = head.depth + 1
  index_eq : inner.index = (head.advance tokens).index
  index_lt : head.index < inner.index
  exists_leave? : ∀ after, Walks tokens inner after →
    ∃ back, after.leave? = some back ∧ back.index = after.index ∧ Walks tokens head back

/-- At the greatest depth nothing can be entered. -/
theorem enter_of_deep {token : Token ν} (hdeep : maxDepth ≤ head.depth) :
    (head.advance tokens).enter token = .error (.tooDeep token.position) := by
  rw [enter, depth_advance, if_pos hdeep]

/-- Anywhere else a token can be entered, and left again behind any way that keeps to its bounds. -/
theorem exists_descends {token : Token ν} (hnext : head.next? tokens = some token)
    (hdepth : ¬ maxDepth ≤ head.depth) : ∃ inner, Descends tokens token head inner := by
  have hindex := index_advance hnext
  have hlt := lt_of_next? hnext
  have henter : (head.advance tokens).enter token =
      .ok ((head.advance tokens).moveTo (head.depth + 1)) := by
    rw [enter, depth_advance, if_neg hdepth]
  refine ⟨_, henter, ⟨?_, Nat.lt_of_not_le hdepth⟩, rfl, rfl, ?_, ?_⟩
  · show (head.advance tokens).index ≤ tokens.length
    omega
  · show head.index < (head.advance tokens).index
    omega
  · intro after hwalks
    obtain ⟨passed, hpassed, hbounds⟩ := hwalks.trail
    have hafter : after.depth = head.depth + 1 := hwalks.depth_eq
    have hforward : (head.advance tokens).index ≤ after.index := hwalks.index_le
    -- the way around ends at the depth that was entered, so it can be left
    have hleave : after.leave? = some (after.moveTo head.depth) := by
      rw [leave?, hafter, if_neg (Nat.succ_ne_zero _), Nat.add_sub_cancel]
    refine ⟨_, hleave, rfl, ?_, hwalks.index_le_length, rfl,
      head.depth :: (passed ++ [head.depth + 1]), ?_, ?_⟩
    · show head.index ≤ after.index
      omega
    · -- down, around and up again
      show head.depth :: after.trail = _
      rw [hpassed]
      simp [moveTo, trail_advance]
    · intro depth hmem
      have hcases : depth = head.depth ∨ depth ∈ passed ∨ depth = head.depth + 1 := by
        simpa using hmem
      rcases hcases with rfl | hpass | rfl
      · omega
      · have hbound : head.depth + 1 ≤ depth ∧ depth ≤ maxDepth := hbounds depth hpass
        omega
      · omega

/-! ## Where a reader stops -/

/-- The reading from `head` comes to its end, by a way that keeps to its bounds, and with the answer
`answer`: the same tree and the tokens from where the head stands, or the same refusal. -/
inductive Lands (tokens : List (Token ν)) (head : ReadHead) (answer : Answer ν)
    (reading : Nat → Option (Stop ν)) : Prop where
  | refused (e : FormulaError ν) (after : ReadHead) (hwalks : Walks tokens head after)
      (hanswer : answer = .error e) (hreading : Ends reading (.error e, after))
  | read (tree : Tree ν) (after : ReadHead) (hwalks : Walks tokens head after)
      (hanswer : answer = .ok (tree, tokens.drop after.index))
      (hreading : Ends reading (.ok tree, after))

/-- One call around a reading. -/
theorem Lands.call {answer : Answer ν} {reading called : Nat → Option (Stop ν)}
    (hcall : ∀ calls, reading (calls + 1) = called calls) (h : Lands tokens head answer called) :
    Lands tokens head answer reading := by
  cases h with
  | refused e after hwalks hanswer hcalled =>
    exact .refused e after hwalks hanswer (hcalled.call hcall)
  | read tree after hwalks hanswer hcalled =>
    exact .read tree after hwalks hanswer (hcalled.call hcall)

/-- A way in front of a reading. -/
theorem Lands.behind {answer : Answer ν} {reading : Nat → Option (Stop ν)}
    (hfirst : Walks tokens head middle) (h : Lands tokens middle answer reading) :
    Lands tokens head answer reading := by
  cases h with
  | refused e after hwalks hanswer hreading =>
    exact .refused e after (hfirst.trans hwalks) hanswer hreading
  | read tree after hwalks hanswer hreading =>
    exact .read tree after (hfirst.trans hwalks) hanswer hreading

/-- A reader that succeeds has taken a token, so the loops get on. -/
theorem index_lt_of_read {p : Phrase} {depth : Nat} {tree : Tree ν}
    (h : Tree.read p depth (tokens.drop head.index) = .ok (tree, tokens.drop after.index)) :
    head.index < after.index := by
  have hlength := Tree.read_eq_ok_length h
  rw [List.length_drop, List.length_drop] at hlength
  omega

/-- A reading behind another one that has ended. -/
theorem Lands.bind {α : Type} {first : Nat → Option α} {a : α} {next : α → Nat → Option (Stop ν)}
    {answer : Answer ν} (hfirst : Ends first a) (h : Lands tokens head answer (next a)) :
    Lands tokens head answer fun calls => (first calls).bind fun a => next a calls := by
  cases h with
  | refused e after hwalks hanswer hnext =>
    exact .refused e after hwalks hanswer (hfirst.bind hnext)
  | read tree after hwalks hanswer hnext =>
    exact .read tree after hwalks hanswer (hfirst.bind hnext)

/-- What is read behind a tree goes on from where its reading stopped. -/
theorem Lands.andThen {answer : Answer ν} {reading : Nat → Option (Stop ν)}
    (h : Lands tokens head answer reading) (answerOn : Tree ν → List (Token ν) → Answer ν)
    (readOn : Tree ν → ReadHead → Nat → Option (Stop ν))
    (hon : ∀ tree after, Walks tokens head after → answer = .ok (tree, tokens.drop after.index) →
      Lands tokens after (answerOn tree (tokens.drop after.index)) (readOn tree after)) :
    Lands tokens head (answer.bind fun (tree, rest) => answerOn tree rest) fun calls =>
      (reading calls).bind fun stop =>
        match stop with
        | (.error e, after) => some (.error e, after)
        | (.ok tree, after) => readOn tree after calls := by
  cases h with
  | refused e after hwalks hanswer hreading =>
    rw [hanswer]
    apply Lands.bind hreading
    exact .refused e after hwalks rfl (.of_forall fun _ => rfl)
  | read tree after hwalks hanswer hreading =>
    have hrest := hon tree after hwalks hanswer
    rw [hanswer]
    apply Lands.bind hreading
    exact hrest.behind hwalks

/-- What is read one deeper is left, and what is read behind it goes on from there. -/
theorem Descends.lands_leave {token : Token ν} {inner : ReadHead}
    (hdescends : Descends tokens token head inner) {answer : Answer ν}
    {reading : Nat → Option (Stop ν)} (h : Lands tokens inner answer reading)
    (answerOn : Tree ν → List (Token ν) → Answer ν) (readOn : Tree ν → ReadHead → Stop ν)
    (hon : ∀ tree back, Walks tokens head back →
      Lands tokens back (answerOn tree (tokens.drop back.index)) fun _ => some (readOn tree back)) :
    Lands tokens head (answer.bind fun (tree, rest) => answerOn tree rest) fun calls =>
      (reading calls).bind fun (outcome, after) => after.leave?.bind fun back =>
        match outcome with
        | .error e => some (.error e, back)
        | .ok tree => some (readOn tree back) := by
  cases h with
  | refused e after hwalks hanswer hreading =>
    obtain ⟨back, hleave, _, hback⟩ := hdescends.exists_leave? after hwalks
    rw [hanswer]
    apply Lands.bind hreading
    simp only [hleave, Option.bind_some]
    exact .refused e back hback rfl (.of_forall fun _ => rfl)
  | read tree after hwalks hanswer hreading =>
    obtain ⟨back, hleave, hindex, hback⟩ := hdescends.exists_leave? after hwalks
    have hrest := hon tree back hback
    rw [hanswer, ← hindex]
    apply Lands.bind hreading
    simp only [hleave, Option.bind_some]
    exact hrest.behind hback

/-- The same for an operand: what is read is one tree with the operand in it. -/
theorem Descends.lands_operand {token : Token ν} {inner : ReadHead} (hhead : Inside tokens head)
    (hdescends : Descends tokens token head inner) {answer : Answer ν}
    {reading : Nat → Option (Stop ν)} (h : Lands tokens inner answer reading)
    (build : Tree ν → Tree ν) :
    Lands tokens head (answer.map fun (tree, rest) => (build tree, rest)) fun calls =>
      (reading calls).bind fun (outcome, after) => after.leave?.bind fun back =>
        match outcome with
        | .error e => some (.error e, back)
        | .ok tree => some (.ok (build tree), back) := by
  have hbind : (answer.map fun (tree, rest) => (build tree, rest)) =
      answer.bind fun (tree, rest) => .ok (build tree, rest) := by
    cases answer <;> rfl
  rw [hbind]
  refine hdescends.lands_leave h (fun tree rest => .ok (build tree, rest))
    (fun tree back => (.ok (build tree), back)) fun tree back hback => ?_
  exact .read (build tree) back (.refl (hback.inside hhead)) rfl (.of_forall fun _ => rfl)

theorem lands_close (hhead : Inside tokens head) (opening : Token ν) (inner : Tree ν) :
    Lands tokens head (Tree.closeGroup opening inner (tokens.drop head.index)) fun _ =>
      some (head.close tokens opening inner) := by
  cases hnext : head.next? tokens with
  | none =>
    rw [drop_of_next?_none hnext, close, hnext]
    exact .refused _ head (.refl hhead) rfl (.of_forall fun _ => rfl)
  | some token =>
    have hadvance := walks_advance hnext
    rw [drop_of_next? hnext, close, hnext, Tree.closeGroup]
    dsimp only
    cases token.lexeme with
    | number value => exact .refused _ _ hadvance rfl (.of_forall fun _ => rfl)
    | operand op =>
      cases op with
      | closeParen => exact .read inner _ hadvance rfl (.of_forall fun _ => rfl)
      | _ => exact .refused _ _ hadvance rfl (.of_forall fun _ => rfl)

/-- Going on with a product, told by the link that follows. The link may take no token: before a group
nothing is taken, and the factor that is read next begins where the head stands already. -/
theorem readOn_product_eq (head : ReadHead) (depth : Nat) (left : Tree ν) :
    Tree.readOn .product depth left (tokens.drop head.index) =
      match head.factorLink? tokens with
      | none => .ok (left, tokens.drop head.index)
      | some (op, first) =>
        (Tree.read .signed depth (tokens.drop first.index)).bind fun (right, rest) =>
          Tree.readOn .product depth (.binary op left right) rest := by
  rw [factorLink?]
  cases hnext : head.next? tokens with
  | none =>
    rw [drop_of_next?_none hnext, Tree.readOn_product_nil]
    rfl
  | some token =>
    rw [drop_of_next? hnext, Tree.readOn_product_cons, Option.bind_some]
    cases token.lexeme.multiplicative? with
    | some op => rfl
    | none =>
      by_cases hopen : token.lexeme.isOpen = true
      · -- the head does not move before a group, so the tokens are the same
        simp only [hopen, if_true]
        rw [drop_of_next? hnext]
      · simp only [hopen, if_false, Bool.false_eq_true]

/-- The link of a product takes its operator, or nothing before a group. -/
theorem walks_of_factorLink? {op : BinaryOp} {first : ReadHead} (hhead : Inside tokens head)
    (hlink : head.factorLink? tokens = some (op, first)) : Walks tokens head first := by
  rw [factorLink?] at hlink
  obtain ⟨token, hnext, hlink⟩ := Option.bind_eq_some_iff.1 hlink
  split at hlink
  · cases hlink
    exact walks_advance hnext
  · split at hlink
    · cases hlink
      exact .refl hhead
    · cases hlink

/-! ### Reader by reader

The induction is on the tokens in front of the head. Where a reader calls another one at the same
token, the number added to the measure falls instead: from a sum over its loop, the product and its loop
down to the sign, the power and the primary. -/

mutual

/-- The main lemma, for sums. The lemmas below are for the other readers and loops. All are proved
together, by the number of tokens that are left and the order in which the readers call each other. -/
theorem lands_sum {head : ReadHead} (hhead : Inside tokens head) :
    Lands tokens head (Tree.read .sum head.depth (tokens.drop head.index))
      fun calls => sum tokens calls head := by
  refine .call (fun calls => by rw [sum]) ?_
  rw [Tree.read_sum]
  refine (lands_product hhead).andThen (Tree.readOn .sum head.depth)
    (fun left after calls => terms tokens calls left after) fun left after hwalks _ => ?_
  have hindex := hwalks.index_le
  rw [← hwalks.depth_eq]
  exact lands_terms left (hwalks.inside hhead)
termination_by 7 * (tokens.length - head.index) + 6

theorem lands_terms (left : Tree ν) {head : ReadHead} (hhead : Inside tokens head) :
    Lands tokens head (Tree.readOn .sum head.depth left (tokens.drop head.index))
      fun calls => terms tokens calls left head := by
  refine .call (fun calls => by rw [terms]) ?_
  cases hnext : head.next? tokens with
  | none =>
    rw [termLink?, hnext, drop_of_next?_none hnext, Tree.readOn_sum_nil]
    exact .read left head (.refl hhead) (by rw [drop_of_next?_none hnext]) (.of_forall fun _ => rfl)
  | some token =>
    rw [termLink?, hnext, drop_of_next? hnext, Tree.readOn_sum_cons, Option.bind_some]
    cases token.lexeme.additive? with
    | none =>
      exact .read left head (.refl hhead) (by rw [drop_of_next? hnext]) (.of_forall fun _ => rfl)
    | some op =>
      -- a sign: a product behind it, and the next round of the loop
      have hlt := lt_of_next? hnext
      have hindex := index_advance hnext
      have hadvance := walks_advance hnext
      have hproduct := lands_product (hadvance.inside hhead)
      rw [depth_advance] at hproduct
      refine Lands.behind hadvance (hproduct.andThen
        (fun right rest => Tree.readOn .sum head.depth (.binary op left right) rest)
        (fun right after calls => terms tokens calls (.binary op left right) after)
        fun right after hwalks hanswer => ?_)
      have hforward := index_lt_of_read hanswer
      have hway := hadvance.trans hwalks
      rw [← hway.depth_eq]
      exact lands_terms (.binary op left right) (hway.inside hhead)
termination_by 7 * (tokens.length - head.index) + 5

theorem lands_product {head : ReadHead} (hhead : Inside tokens head) :
    Lands tokens head (Tree.read .product head.depth (tokens.drop head.index))
      fun calls => product tokens calls head := by
  refine .call (fun calls => by rw [product]) ?_
  rw [Tree.read_product]
  refine (lands_signed hhead).andThen (Tree.readOn .product head.depth)
    (fun left after calls => factors tokens calls left after) fun left after hwalks _ => ?_
  have hindex := hwalks.index_le
  rw [← hwalks.depth_eq]
  exact lands_factors left (hwalks.inside hhead)
termination_by 7 * (tokens.length - head.index) + 4

theorem lands_factors (left : Tree ν) {head : ReadHead} (hhead : Inside tokens head) :
    Lands tokens head (Tree.readOn .product head.depth left (tokens.drop head.index))
      fun calls => factors tokens calls left head := by
  refine .call (fun calls => by rw [factors]) ?_
  rw [readOn_product_eq]
  cases hlink : head.factorLink? tokens with
  | none => exact .read left head (.refl hhead) rfl (.of_forall fun _ => rfl)
  | some link =>
    obtain ⟨op, first⟩ := link
    have hfirst := walks_of_factorLink? hhead hlink
    have hindex := hfirst.index_le
    have hsigned := lands_signed (hfirst.inside hhead)
    rw [hfirst.depth_eq] at hsigned
    refine Lands.behind hfirst (hsigned.andThen
      (fun right rest => Tree.readOn .product head.depth (.binary op left right) rest)
      (fun right after calls => factors tokens calls (.binary op left right) after)
      fun right after hwalks hanswer => ?_)
    -- the factor takes a token, also where its parenthesis was left for it
    have hforward := index_lt_of_read hanswer
    have hway := hfirst.trans hwalks
    have hlength := hway.index_le_length
    rw [← hway.depth_eq]
    exact lands_factors (.binary op left right) (hway.inside hhead)
termination_by 7 * (tokens.length - head.index) + 3

/-- A sign is entered before its factor and left behind it, also where the factor fails. -/
theorem lands_signed {head : ReadHead} (hhead : Inside tokens head) :
    Lands tokens head (Tree.read .signed head.depth (tokens.drop head.index))
      fun calls => signed tokens calls head := by
  refine .call (fun calls => by rw [signed]) ?_
  cases hnext : head.next? tokens with
  | none =>
    rw [sign?, hnext, drop_of_next?_none hnext, Tree.read_signed_nil, ← drop_of_next?_none hnext]
    exact lands_power .any hhead
  | some token =>
    rw [sign?, hnext, drop_of_next? hnext, Tree.read_signed_cons, Option.bind_some]
    cases token.lexeme.sign? with
    | none =>
      rw [← drop_of_next? hnext]
      exact lands_power .any hhead
    | some negative =>
      by_cases hdeep : maxDepth ≤ head.depth
      · simp only [Option.map_some, enter_of_deep hdeep, hdeep, if_true]
        exact .refused _ _ (walks_advance hnext) rfl (.of_forall fun _ => rfl)
      · obtain ⟨inner, hdescends⟩ := exists_descends hnext hdeep
        have hlt := lt_of_next? hnext
        have hforward := hdescends.index_lt
        have hinner := lands_signed hdescends.inside
        rw [hdescends.depth_eq, hdescends.index_eq] at hinner
        simp only [Option.map_some, hdescends.enter_eq, hdeep, if_false]
        exact hdescends.lands_operand hhead hinner fun operand =>
          if negative then .negate operand else operand
termination_by 7 * (tokens.length - head.index) + 2

theorem lands_power (b : Base) {head : ReadHead} (hhead : Inside tokens head) :
    Lands tokens head (Tree.read (.power b) head.depth (tokens.drop head.index))
      fun calls => power tokens calls head := by
  refine .call (fun calls => by rw [power]) ?_
  rw [Tree.read_power]
  refine (lands_primary b hhead).andThen (Tree.readExponent head.depth)
    (fun base after calls => exponent tokens calls base after) fun base after hwalks hanswer => ?_
  have hforward := index_lt_of_read hanswer
  have hlength := hwalks.index_le_length
  rw [← hwalks.depth_eq]
  exact lands_exponent base (hwalks.inside hhead)
termination_by 7 * (tokens.length - head.index) + 1

/-- An exponent is entered and left in the same way. -/
theorem lands_exponent (base : Tree ν) {head : ReadHead} (hhead : Inside tokens head) :
    Lands tokens head (Tree.readExponent head.depth base (tokens.drop head.index))
      fun calls => exponent tokens calls base head := by
  refine .call (fun calls => by rw [exponent]) ?_
  cases hnext : head.next? tokens with
  | none =>
    rw [power?, hnext, drop_of_next?_none hnext]
    exact .read base head (.refl hhead) (by rw [drop_of_next?_none hnext]; rfl)
      (.of_forall fun _ => rfl)
  | some token =>
    rw [power?, hnext, drop_of_next? hnext, Tree.readExponent, Option.filter_some]
    by_cases hpower : token.lexeme.isPower = true
    · by_cases hdeep : maxDepth ≤ head.depth
      · simp only [hpower, enter_of_deep hdeep, hdeep, if_true]
        exact .refused _ _ (walks_advance hnext) rfl (.of_forall fun _ => rfl)
      · -- the exponent is entered, read as a factor and left
        obtain ⟨inner, hdescends⟩ := exists_descends hnext hdeep
        have hlt := lt_of_next? hnext
        have hforward := hdescends.index_lt
        have hinner := lands_signed hdescends.inside
        rw [hdescends.depth_eq, hdescends.index_eq] at hinner
        simp only [hpower, hdescends.enter_eq, hdeep, if_true, if_false]
        exact hdescends.lands_operand hhead hinner (.binary .power base)
    · simp only [hpower, if_false, Bool.false_eq_true]
      exact .read base head (.refl hhead) (by rw [drop_of_next? hnext]) (.of_forall fun _ => rfl)
termination_by 7 * (tokens.length - head.index)

/-- A group is entered and left in the same way, before its closing parenthesis is looked at. -/
theorem lands_primary (b : Base) {head : ReadHead} (hhead : Inside tokens head) :
    Lands tokens head (Tree.read (.primary b) head.depth (tokens.drop head.index))
      fun calls => primary tokens calls head := by
  refine .call (fun calls => by rw [primary]) ?_
  cases hnext : head.next? tokens with
  | none =>
    rw [drop_of_next?_none hnext, Tree.read_primary_nil]
    exact .refused _ head (.refl hhead) rfl (.of_forall fun _ => rfl)
  | some token =>
    have hadvance := walks_advance hnext
    rw [drop_of_next? hnext, Tree.read_primary_cons]
    dsimp only
    cases token.lexeme with
    | number value => exact .read _ _ hadvance rfl (.of_forall fun _ => rfl)
    | operand op =>
      cases op with
      | openParen =>
        by_cases hdeep : maxDepth ≤ head.depth
        · simp only [enter_of_deep hdeep, hdeep, if_true]
          exact .refused _ _ hadvance rfl (.of_forall fun _ => rfl)
        · obtain ⟨inner, hdescends⟩ := exists_descends hnext hdeep
          have hlt := lt_of_next? hnext
          have hforward := hdescends.index_lt
          -- the sum inside is read one deeper and closed after it is left
          have hinner := lands_sum hdescends.inside
          rw [hdescends.depth_eq, hdescends.index_eq] at hinner
          simp only [hdescends.enter_eq, hdeep, if_false]
          exact hdescends.lands_leave hinner (Tree.closeGroup token)
            (fun tree back => back.close tokens token tree)
            fun tree back hback => lands_close (hback.inside hhead) token tree
      | closeParen => exact .refused _ _ hadvance rfl (.of_forall fun _ => rfl)
      | _ => exact .refused _ _ hadvance rfl (.of_forall fun _ => rfl)
termination_by 7 * (tokens.length - head.index)

end

/-! ## Every reading -/

theorem lands_read (p : Phrase) (hhead : Inside tokens head) :
    Lands tokens head (Tree.read p head.depth (tokens.drop head.index))
      fun calls => head.read tokens calls p := by
  cases p with
  | sum => exact lands_sum hhead
  | product => exact lands_product hhead
  | signed => exact lands_signed hhead
  | power b => exact lands_power b hhead
  | primary b => exact lands_primary b hhead

/-- A reading that lands has one end, with the answer of the reader of `Tree`. -/
theorem Lands.exists_stop {answer : Answer ν} {reading : Nat → Option (Stop ν)}
    (h : Lands tokens head answer reading) :
    ∃ outcome after, Ends reading (outcome, after) ∧ Walks tokens head after ∧
      answer = outcome.map fun tree => (tree, tokens.drop after.index) := by
  cases h with
  | refused e after hwalks hanswer hreading => exact ⟨.error e, after, hreading, hwalks, hanswer⟩
  | read tree after hwalks hanswer hreading => exact ⟨.ok tree, after, hreading, hwalks, hanswer⟩

/-- The end of a formula, by the tokens that are left. -/
theorem finish_eq (head : ReadHead) (tree : Tree ν) :
    head.finish tokens tree = Tree.closeFormula tree (tokens.drop head.index) := by
  rw [finish]
  cases hnext : head.next? tokens with
  | none => rw [drop_of_next?_none hnext, Tree.closeFormula]
  | some token =>
    rw [drop_of_next? hnext]
    rfl

/-- A formula that is read with a head is read as it is without one. -/
theorem formula_ends (tokens : List (Token ν)) : Ends (formula tokens) (Tree.ofTokens tokens) := by
  cases tokens with
  | nil => exact .of_forall fun _ => rfl
  | cons token more =>
    have hstart : Inside (token :: more) ⟨0, 0, []⟩ := ⟨Nat.zero_le _, Nat.zero_le _⟩
    rw [Tree.ofTokens_cons]
    cases lands_sum hstart with
    | refused e after hwalks hanswer hreading =>
      have hread : Tree.read .sum 0 (token :: more) = .error e := hanswer
      rw [hread]
      exact hreading.bind (.of_forall fun _ => rfl)
    | read tree after hwalks hanswer hreading =>
      have hread : Tree.read .sum 0 (token :: more) =
        .ok (tree, (token :: more).drop after.index) := hanswer
      rw [hread]
      exact hreading.bind (.of_forall fun _ => congrArg some (finish_eq after tree))

/-- **Every reading ends within its bounds.** From a head that stands inside, each reader comes to its
end, whether it succeeds or fails, and so does each loop; the head is then among the tokens, at the
depth where it began, and on the way it was at no smaller one and at none too deep. What is read takes
a token at least, and it is the tree that `Tree` reads there. -/
theorem read_within_bounds (hhead : Inside tokens head) :
    (∀ p, ∃ outcome after, Ends (fun calls => head.read tokens calls p) (outcome, after) ∧
        Walks tokens head after ∧ (∀ tree, outcome = .ok tree → head.index < after.index) ∧
        Tree.read p head.depth (tokens.drop head.index) =
          outcome.map fun tree => (tree, tokens.drop after.index)) ∧
      ∀ left,
        (∃ outcome after, Ends (fun calls => terms tokens calls left head) (outcome, after) ∧
          Walks tokens head after) ∧
        ∃ outcome after, Ends (fun calls => factors tokens calls left head) (outcome, after) ∧
          Walks tokens head after := by
  refine ⟨fun p => ?_, fun left => ⟨?_, ?_⟩⟩
  · obtain ⟨outcome, after, hends, hwalks, hanswer⟩ := (lands_read p hhead).exists_stop
    refine ⟨outcome, after, hends, hwalks, fun tree htree => ?_, hanswer⟩
    rw [htree] at hanswer
    exact index_lt_of_read hanswer
  · obtain ⟨outcome, after, hends, hwalks, _⟩ := (lands_terms left hhead).exists_stop
    exact ⟨outcome, after, hends, hwalks⟩
  · obtain ⟨outcome, after, hends, hwalks, _⟩ := (lands_factors left hhead).exists_stop
    exact ⟨outcome, after, hends, hwalks⟩

/-- `2 ( 3` where one depth more is allowed: the group is entered and left, though it is never closed. -/
theorem read_open_factor_within_bounds :
    let tokens : List (Token Nat) := [⟨.number 2, 0⟩, ⟨.operand .openParen, 2⟩, ⟨.number 3, 4⟩]
    let head : ReadHead := ⟨0, 255, []⟩
    let after : ReadHead := ⟨3, 255, [255, 256]⟩
    Inside tokens head ∧ head.read tokens 10 .product = some (.error (.unbalanced 2), after) ∧
      Walks tokens head after := by
  intro tokens head after
  have hhead : Inside tokens head := ⟨by decide, by decide⟩
  have hread : ∀ calls, head.read tokens (calls + 10) .product =
      some (.error (.unbalanced 2), after) := fun _ => rfl
  have hends : Ends (fun calls => head.read tokens calls .product)
      (.error (.unbalanced 2), after) := by
    refine ⟨10, fun calls hcalls => ?_⟩
    obtain ⟨more, rfl⟩ := Nat.exists_eq_add_of_le' hcalls
    exact hread more
  obtain ⟨outcome, stop, hstop, hwalks, _⟩ := (read_within_bounds hhead).1 .product
  cases hends.unique hstop
  exact ⟨hhead, hread 0, hwalks⟩

end ReadHead

end TagFormula
