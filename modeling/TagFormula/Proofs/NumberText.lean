import Mathlib.Data.Nat.Digits.Defs
import TagFormula.Expression.Value
import TagFormula.Decimal.Notation
import TagFormula.Proofs.PrintableText

/-!
# The text of a number

Messages show a number with all its digits. Whatever the number is, its text is made of visible
characters, and it is short: the digits and the zeros behind or before them are bounded by the exponents
that a double can have.

* **`Double.parts_finite_bounds`**, **`Double.shortest_bounds`**: the parts of a double, and the decimal
  that is written.
* **`NumberFormat.isVisible_of_mem_write`**, **`NumberFormat.length_write_le`**: the text.
* **`NumberFormat.write_of_not_isFinite`**: a number that is not finite is a word of its own.
* **`NumberFormat.isWrittenInDigits_of_isFinite`**: a finite number is written with its digits.
-/

namespace TagFormula

/-! ## The parts of a double -/

namespace Double

/-- The fields of the format bound the significand and the exponent. -/
theorem parts_finite_bounds {x : Float} {negative : Bool} {significand : Nat} {exponent : Int}
    (h : parts x = .finite negative significand exponent) :
    significand < 2 ^ 53 ∧ -1074 ≤ exponent ∧ exponent ≤ 971 := by
  have hbit : impliedBit = 2 ^ 52 := rfl
  rw [parts, partsOfBits] at h
  generalize x.toBits.toNat = bits at h
  have hfraction : bits % impliedBit < 2 ^ 52 := Nat.mod_lt _ (by decide)
  have hscale : bits >>> 52 % 2048 < 2048 := Nat.mod_lt _ (by decide)
  split at h
  · split at h <;> cases h
  · split at h
    · cases h
      simp only [leastExponent]
      omega
    · cases h
      simp only [leastExponent]
      omega

section

open Float.Model (UnpackedFloat Format)
open Float.Model.UnpackedFloat (unpackMantissa unpackExponent)

/-- Only an exponent of ones makes a double that is not finite. -/
theorem exponent_of_not_isFinite {bits : BitVec Format.binary64.numBits}
    (h : (UnpackedFloat.unpack Format.binary64 bits).isFinite = false) :
    bits.toNat >>> 52 % 2048 = 2047 := by
  unfold UnpackedFloat.unpack at h
  dsimp only at h
  by_cases hones : unpackExponent bits = -BitVec.ofNat _ 1
  · have hnat := congrArg BitVec.toNat hones
    simpa [unpackExponent, Nat.shiftRight_eq_div_pow] using hnat
  · rw [if_neg hones] at h
    by_cases hexponent : unpackExponent bits = BitVec.ofNat _ 0
    · rw [if_pos hexponent] at h
      by_cases hsignificand : unpackMantissa bits = BitVec.ofNat _ 0
      · rw [dif_pos hsignificand] at h
        cases h
      · rw [dif_neg hsignificand] at h
        cases h
    · rw [if_neg hexponent] at h
      cases h

/-- The two kinds of doubles that are not finite. -/
theorem parts_of_not_isFinite {x : Float} (h : x.isFinite = false) :
    parts x = .nan ∨ ∃ negative, parts x = .infinite negative := by
  obtain ⟨⟨bits, hvalid⟩⟩ := x
  have hones : bits.toNat >>> 52 % 2048 = 2047 := exponent_of_not_isFinite h
  show partsOfBits bits.toNat = .nan ∨ ∃ negative, partsOfBits bits.toNat = .infinite negative
  rw [partsOfBits, hones]
  by_cases hfraction : bits.toNat % impliedBit = 0
  · exact Or.inr ⟨_, if_pos hfraction⟩
  · exact Or.inl (if_neg hfraction)

end

/-! ## The shortest decimal -/

namespace Neighbourhood

/-- The scaled numbers from which the digits are taken, by the exponent. -/
theorem of_bounds {significand : Nat} (h : significand < 2 ^ 53) (exponent : Int) :
    (Neighbourhood.of significand exponent).value < 2 ^ (55 + (exponent - 2).toNat) ∧
      (Neighbourhood.of significand exponent).unit < 2 ^ ((2 - exponent).toNat + 1) := by
  constructor
  · show 4 * significand * 1 <<< (exponent - 2).toNat < 2 ^ (55 + (exponent - 2).toNat)
    rw [Nat.one_shiftLeft, Nat.pow_add]
    exact Nat.mul_lt_mul_of_pos_right (by omega) (Nat.two_pow_pos _)
  · show 1 <<< (2 - exponent).toNat < 2 ^ ((2 - exponent).toNat + 1)
    rw [Nat.one_shiftLeft]
    exact Nat.pow_lt_pow_right (by decide) (Nat.lt_succ_self _)

variable {n : Neighbourhood} {tie : Tie}

theorem log2_lt_of_lt {n bits : Nat} (h : n < 2 ^ bits) (hbits : 0 < bits) : n.log2 < bits := by
  by_cases hzero : n = 0
  · rw [hzero, Nat.log2_zero]
    exact hbits
  · exact (Nat.log2_lt hzero).2 h

/-- The first grid is told by the lengths of the number and of its unit. -/
theorem topPlace_bounds {bits unitBits : Nat} (hvalue : n.value < 2 ^ bits) (hbits : 0 < bits)
    (hunit : n.unit < 2 ^ unitBits) (hunitBits : 0 < unitBits) :
    -(unitBits : Int) ≤ n.topPlace ∧ n.topPlace ≤ bits + 1 := by
  have hvalueLog := log2_lt_of_lt hvalue hbits
  have hunitLog := log2_lt_of_lt hunit hunitBits
  simp only [topPlace]
  omega

/-- The candidate on a decimal grid is near the value, so it has no more digits than the value. -/
theorem onGrid?_le {place : Int} {digits : Nat} (h : n.onGrid? tie place = some digits) :
    digits ≤ n.value * 10 ^ (-place).toNat + 1 := by
  have hbelow : (n.below place).1 ≤ n.value * 10 ^ (-place).toNat := Nat.div_le_self ..
  -- the grid point below the number, or the one above that
  have hdigits : digits ≤ (n.below place).1 + 1 := by
    unfold onGrid? at h
    generalize n.below place = point at h
    obtain ⟨least, twice, step⟩ := point
    dsimp only at h ⊢
    split at h
    · split at h
      · cases h
        omega
      · split at h
        · cases h
          omega
        · split at h <;> cases h <;> omega
    · cases h
      omega
    · cases h
      omega
    · cases h
  omega

/-- The search for a decimal goes from a grid to finer ones, and a number on a finer grid has more
digits. -/
theorem firstHit_bounds (place : Int) (grids : Nat) :
    place - grids ≤ (n.firstHit tie place grids).2 ∧ (n.firstHit tie place grids).2 ≤ place ∧
      (n.firstHit tie place grids).1 ≤
        n.value * 10 ^ (-(n.firstHit tie place grids).2).toNat + 1 := by
  induction grids generalizing place with
  | zero =>
    have hbelow : (n.below place).1 ≤ n.value * 10 ^ (-place).toNat := Nat.div_le_self ..
    simp only [firstHit]
    omega
  | succ grids ih =>
    rw [firstHit]
    cases hgrid : n.onGrid? tie place with
    | some digits =>
      have hdigits := onGrid?_le hgrid
      dsimp only
      omega
    | none =>
      -- no hit on this grid: the next one is finer
      obtain ⟨hlow, hhigh, hdigits⟩ := ih (place - 1)
      dsimp only
      omega

end Neighbourhood

/-- How many decimal digits a number has that is bounded in binary ones. -/
theorem lt_ten_pow {value digits bits place places : Nat} (hvalue : value < 2 ^ bits)
    (hplace : place ≤ places) (hdigits : digits ≤ value * 10 ^ place + 1) :
    digits < 10 ^ (bits + places + 1) := by
  have hone : 1 ≤ 10 ^ place := Nat.pow_pos (by decide)
  calc
    digits ≤ (value + 1) * 10 ^ place := by
      rw [Nat.add_mul, Nat.one_mul]
      omega
    _ ≤ 10 ^ bits * 10 ^ places :=
      Nat.mul_le_mul (Nat.le_trans hvalue (Nat.pow_le_pow_left (by decide) _))
        (Nat.pow_le_pow_right (by decide) hplace)
    _ = 10 ^ (bits + places) := (Nat.pow_add ..).symm
    _ < 10 ^ (bits + places + 1) := Nat.pow_lt_pow_right (by decide) (Nat.lt_succ_self _)

/-- The decimal of a double has neither many digits nor a place that is far from the point. -/
theorem shortest_bounds (tie : Tie) {significand : Nat} {exponent : Int}
    (hsignificand : significand < 2 ^ 53) (hlow : -1074 ≤ exponent) (hhigh : exponent ≤ 971) :
    (∃ count ≤ 2200, (shortest tie significand exponent).1 < 10 ^ count) ∧
      (shortest tie significand exponent).2.natAbs ≤ 1105 := by
  by_cases hzero : significand = 0
  · rw [shortest, if_pos hzero]
    exact ⟨⟨0, by decide, by decide⟩, by decide⟩
  · rw [shortest, if_neg hzero]
    dsimp only
    obtain ⟨hvalue, hunit⟩ := Neighbourhood.of_bounds hsignificand exponent
    generalize Neighbourhood.of significand exponent = n at hvalue hunit
    -- the search starts at a power of ten above the number and goes down twenty-four of them at most
    obtain ⟨htop, htop'⟩ := Neighbourhood.topPlace_bounds hvalue (by omega) hunit (by omega)
    obtain ⟨hplace, hplace', hdigits⟩ := @Neighbourhood.firstHit_bounds n tie n.topPlace 24
    generalize n.firstHit tie n.topPlace 24 = hit at hplace hplace' hdigits ⊢
    have hcount := lt_ten_pow hvalue (show (-hit.2).toNat ≤ 1105 by omega) hdigits
    exact ⟨⟨_, by omega, hcount⟩, by omega⟩

end Double

namespace NumberFormat

/-- Around the digits there are only zeros and a point. -/
theorem mem_positionalText {digits : List Char} {place : Int} {c : Char}
    (h : c ∈ positionalText false digits place) : c ∈ digits ∨ c = '0' ∨ c = '.' := by
  rw [positionalText] at h
  split at h
  · simp only [Bool.false_eq_true, if_false, List.append_nil, List.mem_append,
      List.mem_replicate] at h
    rcases h with h | ⟨_, h⟩
    · exact Or.inl h
    · exact Or.inr (Or.inl h)
  · dsimp only at h
    -- zeros in front, so that the point has a place
    generalize hpadded : List.replicate _ '0' ++ digits = padded at h
    have hmem : c ∈ padded ∨ c = '.' := by
      rcases List.mem_append.1 h with h | h
      · exact Or.inl (List.mem_of_mem_take h)
      · rcases List.mem_cons.1 h with h | h
        · exact Or.inr h
        · exact Or.inl (List.mem_of_mem_drop h)
    rw [← hpadded, List.mem_append, List.mem_replicate] at hmem
    rcases hmem with (⟨_, h⟩ | h) | h
    · exact Or.inr (Or.inl h)
    · exact Or.inl h
    · exact Or.inr (Or.inr h)

/-- Zeros are added up to the place of the point. -/
theorem length_positionalText_le (digits : List Char) (place : Int) :
    (positionalText false digits place).length ≤ digits.length + place.natAbs + 2 := by
  rw [positionalText]
  split
  · simp only [Bool.false_eq_true, if_false, List.append_nil, List.length_append,
      List.length_replicate]
    omega
  · simp only [List.length_append, List.length_cons, List.length_take, List.length_drop,
      List.length_replicate]
    omega

/-- A word stands for a double that is not finite. -/
def IsNonFiniteText (text : String) : Prop :=
  text = "NaN" ∨ text = "inf" ∨ text = "-inf"

/-- A number that is not finite has no digits, and a fixed text. -/
theorem write_of_not_isFinite {x : Float} (h : x.isFinite = false) : IsNonFiniteText (plain.write x) := by
  rcases Double.parts_of_not_isFinite h with hnan | ⟨negative, hinfinite⟩
  · rw [write, hnan]
    exact Or.inl rfl
  · rw [write, hinfinite]
    cases negative with
    | false => exact Or.inr (Or.inl rfl)
    | true => exact Or.inr (Or.inr rfl)

/-- Any other double is written as its decimal, perhaps with a sign. -/
theorem write_cases (x : Float) : IsNonFiniteText (plain.write x) ∨ ∃ digits place,
    (∃ count ≤ 2200, digits < 10 ^ count) ∧ place.natAbs ≤ 1105 ∧
      ((plain.write x).toList = positionalText false (Nat.toDigits 10 digits) place ∨
        (plain.write x).toList = '-' :: positionalText false (Nat.toDigits 10 digits) place) := by
  cases hparts : Double.parts x with
  | nan =>
    rw [write, hparts]
    exact Or.inl (Or.inl rfl)
  | infinite negative =>
    rw [write, hparts]
    cases negative with
    | false => exact Or.inl (Or.inr (Or.inl rfl))
    | true => exact Or.inl (Or.inr (Or.inr rfl))
  | finite negative significand exponent =>
    obtain ⟨hsignificand, hlow, hhigh⟩ := Double.parts_finite_bounds hparts
    obtain ⟨hdigits, hplace⟩ := Double.shortest_bounds .up hsignificand hlow hhigh
    rw [write, hparts]
    refine Or.inr ⟨_, _, hdigits, hplace, ?_⟩
    cases negative with
    | false => exact Or.inl (String.toList_ofList ..)
    | true => exact Or.inr (String.toList_ofList ..)

theorem isVisible_of_mem_write {x : Float} {c : Char} (h : c ∈ (plain.write x).toList) :
    Text.IsVisible c := by
  have hdecimal {digits : Nat} {place : Int}
      (h : c ∈ positionalText false (Nat.toDigits 10 digits) place) : Text.IsVisible c := by
    rcases mem_positionalText h with h | rfl | rfl
    · exact Text.isVisible_of_isDigit (Nat.isDigit_of_mem_toDigits (by decide) (by decide) h)
    · exact ⟨by decide, by decide⟩
    · exact ⟨by decide, by decide⟩
  have hword {text : String} (htext : plain.write x = text)
      (hall : Text.IsWord text.toList) : Text.IsVisible c :=
    hall.2 c (htext ▸ h)
  rcases write_cases x with (hnan | hinf | hinf) | ⟨digits, place, _, _, heq | heq⟩
  · exact hword hnan (by decide)
  · exact hword hinf (by decide)
  · exact hword hinf (by decide)
  · rw [heq] at h
    exact hdecimal h
  · rw [heq] at h
    rcases List.mem_cons.1 h with rfl | h
    · exact ⟨by decide, by decide⟩
    · exact hdecimal h

/-- A bound for every number. The longest ones are those next to zero. -/
theorem length_write_le (x : Float) : (plain.write x).length ≤ 3400 := by
  rcases write_cases x with (hnan | hinf | hinf) | ⟨digits, place, ⟨count, hcount, hdigits⟩, hplace,
    heq⟩
  · rw [hnan]
    decide
  · rw [hinf]
    decide
  · rw [hinf]
    decide
  · have hlength : (Nat.toDigits 10 digits).length ≤ count + 1 :=
      Nat.toDigits_length 10 digits (count + 1) (Nat.succ_pos _)
        (Nat.lt_of_lt_of_le hdigits (Nat.pow_le_pow_right (by decide) (Nat.le_succ _)))
    have hdecimal := length_positionalText_le (Nat.toDigits 10 digits) place
    rw [← String.length_toList]
    rcases heq with heq | heq <;> rw [heq]
    · omega
    · rw [List.length_cons]
      omega

end NumberFormat

end TagFormula
