import TagFormula.Proofs.ReaderEquations

/-!
# Reading is deriving

The readers accept exactly the phrases of the grammar and return exactly their trees.

* **`read_append`** (completeness): after a derived phrase a reader goes on with what follows it, its
  tree as the left side. Induction on the derivation; that the left side of a chain is handed over
  to the loop, and not returned, is what makes the rules that recurse on the left go through.
* **`Parses`**, **`read_sum_sound`** and its companions (soundness): what a reader accepts begins with
  a derived phrase that ends where the reader stopped. Induction along the recursion of the readers.
* **`ofTokens_eq_ok_iff`**: the two together for whole formulas.
-/

namespace TagFormula

variable {ν : Type}

/-! ## Lexemes as the readers ask for them -/

namespace Lexeme

/-- The test of the reader of sums, told with the operators of the grammar. -/
theorem additive?_eq_some_iff {l : Lexeme ν} {op : BinaryOp} :
    l.additive? = some op ↔ op.IsAdditive ∧ l = .operand op.operand := by
  cases l with
  | number value => exact ⟨nofun, fun h => nomatch h.2⟩
  | operand o =>
    cases o <;> cases op <;> simp [additive?, BinaryOp.IsAdditive, BinaryOp.operand]

theorem multiplicative?_eq_some_iff {l : Lexeme ν} {op : BinaryOp} :
    l.multiplicative? = some op ↔ op.IsMultiplicative ∧ l = .operand op.operand := by
  cases l with
  | number value => exact ⟨nofun, fun h => nomatch h.2⟩
  | operand o =>
    cases o <;> cases op <;> simp [multiplicative?, BinaryOp.IsMultiplicative, BinaryOp.operand]

theorem isOpen_iff {l : Lexeme ν} : l.isOpen = true ↔ l = .operand .openParen := by
  cases l with
  | number value => exact ⟨nofun, nofun⟩
  | operand o => cases o <;> simp [isOpen]

theorem isPower_iff {l : Lexeme ν} : l.isPower = true ↔ l = .operand .power := by
  cases l with
  | number value => exact ⟨nofun, nofun⟩
  | operand o => cases o <;> simp [isPower]

theorem sign?_eq_some_iff {l : Lexeme ν} {negative : Bool} :
    l.sign? = some negative ↔ l = .operand (if negative then .subtract else .add) := by
  cases l with
  | number value => exact ⟨nofun, nofun⟩
  | operand o => cases o <;> cases negative <;> simp [sign?]

/-- A base begins without a sign. -/
theorem sign?_of_admits {l : Lexeme ν} {b : Base} (h : b.Admits l) : l.sign? = none := by
  cases b with
  | any => rcases h with ⟨value, rfl⟩ | rfl <;> rfl
  | group => rw [show l = _ from h]; rfl

end Lexeme

/-- A product that is followed by no sign of a sum ends the sum. -/
theorem Stops.sum_of_product {token : Token ν} {more : List (Token ν)}
    (h : Stops .product (token :: more)) (hop : token.lexeme.additive? = none) :
    Stops .sum (token :: more) := by
  obtain ⟨lexeme, position⟩ := token
  cases lexeme with
  | number value => rfl
  | operand op => cases op <;> first | rfl | exact h | cases hop

/-- A factor that is followed by no sign of a product and by no group ends the product. -/
theorem Stops.product_of_signed {token : Token ν} {more : List (Token ν)}
    (h : Stops .signed (token :: more)) (hop : token.lexeme.multiplicative? = none)
    (hopen : ¬ token.lexeme.isOpen = true) : Stops .product (token :: more) := by
  obtain ⟨lexeme, position⟩ := token
  cases lexeme with
  | number value => rfl
  | operand op => cases op <;> first | rfl | exact h | exact absurd rfl hopen | cases hop

/-- A base that is followed by no sign of a power is a whole power. -/
theorem stops_power_of_not_isPower (b : Base) {token : Token ν} {more : List (Token ν)}
    (h : ¬ token.lexeme.isPower = true) : Stops (.power b) (token :: more) := by
  obtain ⟨lexeme, position⟩ := token
  cases lexeme with
  | number value => rfl
  | operand op => cases op <;> first | rfl | exact absurd rfl h

namespace Tree

/-! ## Completeness -/

/-- A reader goes no further where the phrase cannot go on. -/
theorem readOn_of_stops {p : Phrase} {depth : Nat} {t : Tree ν} {rest : List (Token ν)}
    (h : Stops p rest) : readOn p depth t rest = .ok (t, rest) := by
  cases rest with
  | nil => cases p <;> first | exact readOn_sum_nil _ _ | exact readOn_product_nil _ _ | rfl
  | cons token more =>
    -- each loop would need a token that the phrase goes on with
    have hcontinues : p.continues token.lexeme = false := h
    cases p with
    | sum =>
      rw [readOn_sum_cons]
      cases hop : token.lexeme.additive? with
      | none => rfl
      | some op =>
        obtain ⟨rfl | rfl, htoken⟩ := Lexeme.additive?_eq_some_iff.1 hop <;>
          rw [htoken] at hcontinues <;> cases hcontinues
    | product =>
      rw [readOn_product_cons]
      cases hop : token.lexeme.multiplicative? with
      | none =>
        have hopen : ¬ token.lexeme.isOpen = true := by
          intro hopen
          rw [Lexeme.isOpen_iff.1 hopen] at hcontinues
          cases hcontinues
        simp only [hopen, if_false, Bool.false_eq_true]
      | some op =>
        obtain ⟨rfl | rfl, htoken⟩ := Lexeme.multiplicative?_eq_some_iff.1 hop <;>
          rw [htoken] at hcontinues <;> cases hcontinues
    | power b =>
      show readExponent depth t (token :: more) = _
      rw [readExponent, if_neg]
      intro hpower
      rw [Lexeme.isPower_iff.1 hpower] at hcontinues
      cases hcontinues
    | signed | primary b => rfl

/-- A derived phrase is read to its end, and what follows it is read on with its tree as the left
side. -/
theorem read_append {p : Phrase} {n : Nat} {ts : List (Token ν)} {t : Tree ν}
    (h : Derives p n ts t) {depth : Nat} {rest : List (Token ν)} (hdepth : n + depth ≤ maxDepth)
    (hstops : Stops p.link rest) : read p depth (ts ++ rest) = readOn p depth t rest := by
  induction h generalizing depth rest with
  | product _ ih =>
    -- the product ends here too, so it is handed to the loop of the sum as it is
    rw [read_sum, ih hdepth hstops.link, readOn_of_stops (p := .product) hstops]
    rfl
  | addition hl hop htoken hr ihl ihr =>
    -- the left sum is read up to the sign, and the loop goes on with the sign
    rw [List.append_assoc, List.cons_append, ihl (by omega) (.of_additive hop htoken _),
      readOn_sum_cons, Lexeme.additive?_eq_some_iff.2 ⟨hop, htoken⟩]
    simp only
    rw [ihr (by omega) hstops.link, readOn_of_stops (p := .product) hstops]
    rfl
  | signed _ ih =>
    rw [read_product, ih hdepth hstops]
    rfl
  | multiplication hl hop htoken hr ihl ihr =>
    rw [List.append_assoc, List.cons_append, ihl (by omega) (.of_multiplicative hop htoken _),
      readOn_product_cons, Lexeme.multiplicative?_eq_some_iff.2 ⟨hop, htoken⟩]
    simp only
    rw [ihr (by omega) hstops]
    rfl
  | juxtaposition hl hr ihl ihr =>
    -- the group that begins the right factor is what ends the left one
    obtain ⟨opening, more, rfl, hopen⟩ := hr.exists_base_head rfl
    replace hopen : opening.lexeme = .operand .openParen := hopen
    have hpower : Stops (.power .group) rest := stops_power_iff.2 hstops
    have hright := @ihr depth rest (by omega) hpower
    rw [readOn_of_stops hpower, List.cons_append] at hright
    rw [List.append_assoc, List.cons_append, ihl (by omega) (.of_open hopen _),
      readOn_product_cons, read_signed_cons, hopen]
    simp only [Lexeme.multiplicative?, Lexeme.isOpen, Lexeme.sign?, if_true]
    rw [show read (.power .any) depth _ = _ from hright]
    rfl
  | plus htoken _ ih =>
    rw [List.cons_append, read_signed_cons, htoken]
    simp only [Lexeme.sign?]
    rw [if_neg (by omega), ih (by omega) hstops]
    rfl
  | minus htoken _ ih =>
    rw [List.cons_append, read_signed_cons, htoken]
    simp only [Lexeme.sign?]
    rw [if_neg (by omega), ih (by omega) hstops]
    rfl
  | power h ih =>
    -- a base is no sign, so the reader of signs passes it on
    obtain ⟨token, more, rfl, hadmits⟩ := h.exists_base_head rfl
    have hpower : Stops (.power .any) rest := stops_power_iff.2 hstops
    have hread := ih hdepth hpower
    rw [readOn_of_stops hpower, List.cons_append] at hread
    rw [List.cons_append, read_signed_cons, Lexeme.sign?_of_admits hadmits]
    exact hread
  | primary _ ih =>
    rw [read_power, ih hdepth (.primary _ _)]
    rfl
  | raising hl htoken hr ihl ihr =>
    -- the exponent may be a power itself: the chain leans to the right
    rw [List.append_assoc, List.cons_append, read_power, ihl (by omega) (.primary _ _),
      readOn_of_stops (p := .power _) hstops]
    show readExponent _ _ (_ :: _) = _
    rw [readExponent, if_pos (Lexeme.isPower_iff.2 htoken), if_neg (by omega),
      ihr (by omega) (stops_power_iff.1 hstops)]
    rfl
  | number htoken =>
    rw [List.cons_append, read_primary_cons, htoken]
    rfl
  | @group b n ts t opening closing hopening _ hclosing ih =>
    rw [List.cons_append, List.append_assoc, read_primary_cons, hopening]
    simp only
    rw [if_neg (by omega), List.singleton_append, ih (by omega) (.of_close _ hclosing _),
      readOn_of_stops (.of_close .sum hclosing _)]
    show closeGroup opening t (closing :: rest) = _
    rw [closeGroup_close hclosing]
    rfl

/-! ## Soundness -/

/-- `tokens` begin with a phrase of the grammar, with the structure `tree` and not nested too deeply
for a phrase inside `depth` others, and `rest` is what stops it. -/
def Parses (p : Phrase) (depth : Nat) (tokens : List (Token ν)) (tree : Tree ν)
    (rest : List (Token ν)) : Prop :=
  ∃ phrase nesting, tokens = phrase ++ rest ∧ Derives p nesting phrase tree ∧
    nesting + depth ≤ maxDepth ∧ Stops p rest

theorem Parses.stops {p : Phrase} {depth : Nat} {tokens rest : List (Token ν)} {tree : Tree ν}
    (h : Parses p depth tokens tree rest) : Stops p rest := by
  obtain ⟨_, _, _, _, _, hstops⟩ := h
  exact hstops

mutual

/-- Soundness: what is read is derived, and the phrase is read as far as it goes. All readers are proved
together, by the number of tokens; the loops have what is read already as a derivation. -/
theorem read_sum_sound {depth : Nat} {tokens rest : List (Token ν)} {tree : Tree ν}
    (hd : depth ≤ maxDepth) (h : read .sum depth tokens = .ok (tree, rest)) :
    Parses .sum depth tokens tree rest := by
  rw [read_sum] at h
  obtain ⟨⟨left, more⟩, hleft, hloop⟩ := bind_eq_ok h
  have hlength := read_eq_ok_length hleft
  obtain ⟨ls, m, rfl, hl, hm, hstops⟩ := read_product_sound hd hleft
  exact readOn_sum_sound hd (.product hl) hm hstops hloop
termination_by 6 * tokens.length + 5

/-- The loop of sums. -/
theorem readOn_sum_sound {depth m : Nat} {ls tokens rest : List (Token ν)} {left tree : Tree ν}
    (hd : depth ≤ maxDepth) (hl : Derives .sum m ls left) (hm : m + depth ≤ maxDepth)
    (hstops : Stops .product tokens)
    (h : readOn .sum depth left tokens = .ok (tree, rest)) :
    Parses .sum depth (ls ++ tokens) tree rest := by
  cases tokens with
  | nil =>
    rw [readOn_sum_nil] at h
    cases h
    exact ⟨ls, m, rfl, hl, hm, trivial⟩
  | cons token more =>
    rw [readOn_sum_cons] at h
    cases hop : token.lexeme.additive? with
    | none =>
      -- the loop returns its left side
      rw [hop] at h
      cases h
      exact ⟨ls, m, rfl, hl, hm, hstops.sum_of_product hop⟩
    | some op =>
      rw [hop] at h
      obtain ⟨hadditive, htoken⟩ := Lexeme.additive?_eq_some_iff.1 hop
      obtain ⟨⟨right, others⟩, hright, hloop⟩ := bind_eq_ok h
      have hlength := read_eq_ok_length hright
      obtain ⟨rs, n, rfl, hr, hn, hstops'⟩ := read_product_sound hd hright
      have hsum := readOn_sum_sound hd (.addition hl hadditive htoken hr) (by omega) hstops' hloop
      rwa [List.append_assoc, List.cons_append] at hsum
termination_by 6 * tokens.length + 4

theorem read_product_sound {depth : Nat} {tokens rest : List (Token ν)} {tree : Tree ν}
    (hd : depth ≤ maxDepth) (h : read .product depth tokens = .ok (tree, rest)) :
    Parses .product depth tokens tree rest := by
  rw [read_product] at h
  obtain ⟨⟨left, more⟩, hleft, hloop⟩ := bind_eq_ok h
  have hlength := read_eq_ok_length hleft
  obtain ⟨ls, m, rfl, hl, hm, hstops⟩ := read_signed_sound hd hleft
  exact readOn_product_sound hd (.signed hl) hm hstops hloop
termination_by 6 * tokens.length + 3

/-- The loop of products, where a parenthesis can follow without an operator. -/
theorem readOn_product_sound {depth m : Nat} {ls tokens rest : List (Token ν)}
    {left tree : Tree ν} (hd : depth ≤ maxDepth) (hl : Derives .product m ls left)
    (hm : m + depth ≤ maxDepth) (hstops : Stops .signed tokens)
    (h : readOn .product depth left tokens = .ok (tree, rest)) :
    Parses .product depth (ls ++ tokens) tree rest := by
  cases tokens with
  | nil =>
    rw [readOn_product_nil] at h
    cases h
    exact ⟨ls, m, rfl, hl, hm, trivial⟩
  | cons token more =>
    rw [readOn_product_cons] at h
    cases hop : token.lexeme.multiplicative? with
    | some op =>
      rw [hop] at h
      obtain ⟨hmultiplicative, htoken⟩ := Lexeme.multiplicative?_eq_some_iff.1 hop
      obtain ⟨⟨right, others⟩, hright, hloop⟩ := bind_eq_ok h
      have hlength := read_eq_ok_length hright
      obtain ⟨rs, n, rfl, hr, hn, hstops'⟩ := read_signed_sound hd hright
      have hproduct := readOn_product_sound hd (.multiplication hl hmultiplicative htoken hr)
        (by omega) hstops' hloop
      rwa [List.append_assoc, List.cons_append] at hproduct
    | none =>
      rw [hop] at h
      by_cases hopen : token.lexeme.isOpen = true
      · simp only [hopen, if_true] at h
        obtain ⟨⟨right, others⟩, hright, hloop⟩ := bind_eq_ok h
        have hlength := read_eq_ok_length hright
        have htoken := Lexeme.isOpen_iff.1 hopen
        -- a parenthesis is no sign, so the factor is a power, and one with a group at its base
        rw [read_signed_cons, htoken] at hright
        obtain ⟨rs, n, hrs, hr, hn, hstops'⟩ := read_power_sound hd hright
        obtain ⟨first, inner, rfl, _⟩ := hr.exists_base_head rfl
        cases hrs
        have hproduct := readOn_product_sound hd (.juxtaposition hl (hr.power_group htoken))
          (by omega) (stops_power_iff.1 hstops') hloop
        rwa [List.append_assoc] at hproduct
      · simp only [hopen, if_false, Bool.false_eq_true] at h
        cases h
        exact ⟨ls, m, rfl, hl, hm, hstops.product_of_signed hop hopen⟩
termination_by 6 * tokens.length + 3

/-- The reader of signs. A sign counts as nested. -/
theorem read_signed_sound {depth : Nat} {tokens rest : List (Token ν)} {tree : Tree ν}
    (hd : depth ≤ maxDepth) (h : read .signed depth tokens = .ok (tree, rest)) :
    Parses .signed depth tokens tree rest := by
  cases tokens with
  | nil =>
    rw [read_signed_nil] at h
    obtain ⟨ts, n, hts, ht, hn, hstops⟩ := read_power_sound hd h
    exact ⟨ts, n, hts, .power ht, hn, stops_power_iff.1 hstops⟩
  | cons token more =>
    rw [read_signed_cons] at h
    cases hsign : token.lexeme.sign? with
    | none =>
      rw [hsign] at h
      obtain ⟨ts, n, hts, ht, hn, hstops⟩ := read_power_sound hd h
      exact ⟨ts, n, hts, .power ht, hn, stops_power_iff.1 hstops⟩
    | some negative =>
      rw [hsign] at h
      by_cases hdepth : maxDepth ≤ depth
      · simp only [hdepth, if_true] at h
        cases h
      · simp only [hdepth, if_false] at h
        obtain ⟨⟨operand, others⟩, hoperand, heq⟩ := map_eq_ok h
        cases heq
        -- the sign counts, so the operand may be nested one less deeply
        obtain ⟨ts, n, rfl, ht, hn, hstops⟩ := read_signed_sound (by omega) hoperand
        refine ⟨token :: ts, n + 1, rfl, ?_, by omega, hstops⟩
        cases negative with
        | true => exact .minus (Lexeme.sign?_eq_some_iff.1 hsign) ht
        | false => exact .plus (Lexeme.sign?_eq_some_iff.1 hsign) ht
termination_by 6 * tokens.length + 2

theorem read_power_sound {depth : Nat} {tokens rest : List (Token ν)} {tree : Tree ν}
    (hd : depth ≤ maxDepth) (h : read (.power .any) depth tokens = .ok (tree, rest)) :
    Parses (.power .any) depth tokens tree rest := by
  rw [read_power] at h
  obtain ⟨⟨base, more⟩, hbase, hexponent⟩ := bind_eq_ok h
  have hlength := read_eq_ok_length hbase
  obtain ⟨ls, m, rfl, hl, hm, _⟩ := read_primary_sound hd hbase
  cases more with
  | nil =>
    cases hexponent
    exact ⟨ls, m, rfl, .primary hl, hm, trivial⟩
  | cons token more =>
    simp only [readExponent] at hexponent
    by_cases hpower : token.lexeme.isPower = true
    · -- with an exponent, which is nested one deeper
      by_cases hdepth : maxDepth ≤ depth
      · simp only [hpower, hdepth, if_true] at hexponent
        cases hexponent
      · simp only [hpower, hdepth, if_true, if_false] at hexponent
        obtain ⟨⟨exponent, others⟩, hright, heq⟩ := map_eq_ok hexponent
        cases heq
        obtain ⟨rs, n, rfl, hr, hn, hstops⟩ := read_signed_sound (by omega) hright
        exact ⟨ls ++ token :: rs, max m (n + 1), by simp,
          .raising hl (Lexeme.isPower_iff.1 hpower) hr, by omega, stops_power_iff.2 hstops⟩
    · simp only [hpower, if_false, Bool.false_eq_true] at hexponent
      cases hexponent
      exact ⟨ls, m, rfl, .primary hl, hm, stops_power_of_not_isPower .any hpower⟩
termination_by 6 * tokens.length + 1

/-- Numbers and groups. A group counts as nested. -/
theorem read_primary_sound {depth : Nat} {tokens rest : List (Token ν)} {tree : Tree ν}
    (hd : depth ≤ maxDepth) (h : read (.primary .any) depth tokens = .ok (tree, rest)) :
    Parses (.primary .any) depth tokens tree rest := by
  cases tokens with
  | nil =>
    rw [read_primary_nil] at h
    cases h
  | cons token more =>
    rw [read_primary_cons] at h
    cases htoken : token.lexeme with
    | number value =>
      rw [htoken] at h
      cases h
      exact ⟨[token], 0, rfl, .number htoken, by omega, .primary _ _⟩
    | operand op =>
      rw [htoken] at h
      cases op with
      | openParen =>
        by_cases hdepth : maxDepth ≤ depth
        · simp only [hdepth, if_true] at h
          cases h
        · simp only [hdepth, if_false] at h
          -- the inside of the group, and the parenthesis behind it
          obtain ⟨⟨inner, others⟩, hinner, hclose⟩ := bind_eq_ok h
          obtain ⟨rfl, closing, rfl, hclosing⟩ := closeGroup_eq_ok hclose
          obtain ⟨ts, n, rfl, ht, hn, _⟩ := read_sum_sound (by omega) hinner
          exact ⟨token :: (ts ++ [closing]), n + 1, by simp, .group htoken ht hclosing, by omega,
            .primary _ _⟩
      | _ => cases h
termination_by 6 * tokens.length

end

/-! ## Whole formulas -/

/-- A whole formula that is derived is read. -/
theorem ofTokens_of_derives {tokens : List (Token ν)} {tree : Tree ν} {n : Nat}
    (h : Derives .sum n tokens tree) (hn : n ≤ maxDepth) : ofTokens tokens = .ok tree := by
  have hread : read .sum 0 (tokens ++ []) = readOn .sum 0 tree [] := read_append h hn trivial
  rw [List.append_nil, readOn_sum_nil] at hread
  cases tokens with
  -- no phrase is empty
  | nil => exact absurd (read_eq_ok_length hread) (Nat.lt_irrefl 0)
  | cons token more =>
    rw [ofTokens_cons, hread]
    rfl

theorem derives_of_ofTokens {tokens : List (Token ν)} {tree : Tree ν}
    (h : ofTokens tokens = .ok tree) : ∃ n, n ≤ maxDepth ∧ Derives .sum n tokens tree := by
  cases tokens with
  | nil => cases h
  | cons token more =>
    rw [ofTokens_cons] at h
    obtain ⟨⟨inner, rest⟩, hread, hclose⟩ := bind_eq_ok h
    obtain ⟨rfl, rfl⟩ := closeFormula_eq_ok hclose
    obtain ⟨phrase, n, hphrase, hsum, hn, _⟩ := read_sum_sound (Nat.zero_le _) hread
    rw [hphrase, List.append_nil]
    exact ⟨n, hn, hsum⟩

/-- **The formulas.** `tokens` are a formula with the structure `tree` if and only if the grammar
derives it from a sum with no more than `maxDepth` groups, signs and exponents around each other.
Nothing else is bounded: the chains of a sum or a product can have any length. -/
theorem ofTokens_eq_ok_iff (tokens : List (Token ν)) (tree : Tree ν) :
    ofTokens tokens = .ok tree ↔ ∃ nesting, nesting ≤ maxDepth ∧ Derives .sum nesting tokens tree :=
  ⟨derives_of_ofTokens, fun ⟨_, hn, hsum⟩ => ofTokens_of_derives hsum hn⟩

end Tree

end TagFormula
