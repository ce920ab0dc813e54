import TagFormula.Proofs.Lexing

/-!
# Texts joined by a blank

Of two texts with a blank between them each is read as if it stood alone: neither the run that the first
one ends in nor an exponent in it reaches across the blank. What is told about the second text, tokens
or an error, is told further on by the bytes in front of it.

* **`Token.moved`**, **`FormulaError.moved`**: the same token, and the same error, further on.
* **`Token.scan_add`**: a text that starts further on is read alike. Along the recursion of `scan`.
* **`Token.ofText_append_blank`**: what is read of two joined texts.
-/

namespace TagFormula

/-! ## Positions -/

/-- The token with `k` more bytes in front of it. -/
def Token.moved {ν : Type} (k : Nat) (token : Token ν) : Token ν :=
  { token with position := token.position + k }

/-- The error for a text with `k` more bytes in front of it. -/
def FormulaError.moved {ν : Type} (k : Nat) : FormulaError ν → FormulaError ν
  | .empty => .empty
  | .unknownCharacter c position => .unknownCharacter c (position + k)
  | .invalidNumber text position => .invalidNumber text (position + k)
  | .unexpected lexeme position => .unexpected lexeme (position + k)
  | .unexpectedEnd => .unexpectedEnd
  | .tooDeep position => .tooDeep (position + k)
  | .unbalanced position => .unbalanced (position + k)
  | .divisionByZero => .divisionByZero
  | .nonFinite value => .nonFinite value

namespace Token

/-- What is read of a text with `k` more bytes in front of it. -/
def movedReading (k : Nat) (reading : Except (FormulaError Float) (List (Token Float))) :
    Except (FormulaError Float) (List (Token Float)) :=
  (reading.map (·.map (moved k))).mapError (FormulaError.moved k)

/-- A first token moves along with the others. -/
theorem movedReading_map_cons (k : Nat) (lexeme : Lexeme Float) (position : Nat)
    (reading : Except (FormulaError Float) (List (Token Float))) :
    movedReading k (reading.map (⟨lexeme, position⟩ :: ·)) =
      (movedReading k reading).map (⟨lexeme, position + k⟩ :: ·) := by
  cases reading <;> rfl

/-- Only the positions depend on where a text starts. -/
theorem scan_add (k position : Nat) (cs : List Char) :
    scan (position + k) cs = movedReading k (scan position cs) := by
  fun_induction scan position cs with
  | case1 position =>
    rw [scan_nil]
    rfl
  | case2 position c rest hblank ih =>
    rw [scan_blank hblank, Nat.add_right_comm, ih]
  | case3 position c rest hblank op hop ih =>
    obtain rfl := Operand.ofChar?_eq_some_iff.1 hop
    rw [Operand.utf8Size_toChar] at ih ⊢
    rw [scan_operand, Nat.add_right_comm, ih, movedReading_map_cons]
  | case4 position c rest hblank hop hstart run hread =>
    rw [scan_run hstart, hread]
    rfl
  | case5 position c rest hblank hop hstart run literal hread ih =>
    rw [scan_run hstart, hread, movedReading_map_cons, ← ih, Nat.add_right_comm position run.length]
  | case6 position c rest hblank hop hstart =>
    rw [scan_unknown (by simpa using hblank) hop (by simpa using hstart)]
    rfl

/-! ## Two texts -/

/-- A blank ends every token, so both texts are read by themselves, the second one from its place. -/
theorem ofText_push_append (a b : String) {blank : Char} (h : Text.isBlank blank = true) :
    ofText (a.push blank ++ b) =
      (ofText a).bind fun tokens =>
        (movedReading (a.push blank).utf8ByteSize (ofText b)).map (tokens ++ ·) := by
  have htext : (a.push blank ++ b).toList = a.toList ++ blank :: b.toList := by
    rw [String.toList_append, String.toList_push, List.append_assoc]
    rfl
  have hstart : 0 + String.utf8Len a.toList + blank.utf8Size = 0 + (a.push blank).utf8ByteSize := by
    rw [String.utf8Len_toList, String.utf8ByteSize_push, Nat.add_assoc]
  rw [ofText, htext, scan_append_blank h, hstart, scan_add]
  rfl

/-- **Of two texts with a blank between them each is read by itself.** An error in the first one is
the error of both; else an error in the second one is, moved by the bytes up to and with the blank; else
the tokens of the first are followed by those of the second, moved alike. -/
theorem ofText_append_blank (a b : String) (blank : Char) (h : Text.isBlank blank = true) :
    (∀ e, ofText a = .error e → ofText (a.push blank ++ b) = .error e) ∧
      (∀ tokens e, ofText a = .ok tokens → ofText b = .error e →
        ofText (a.push blank ++ b) = .error (e.moved (a.push blank).utf8ByteSize)) ∧
      ∀ tokens more, ofText a = .ok tokens → ofText b = .ok more →
        ofText (a.push blank ++ b) =
          .ok (tokens ++ more.map (moved (a.push blank).utf8ByteSize)) := by
  refine ⟨fun e ha => ?_, fun tokens e ha hb => ?_, fun tokens more ha hb => ?_⟩
  · rw [ofText_push_append a b h, ha]
    rfl
  · rw [ofText_push_append a b h, ha, hb]
    rfl
  · rw [ofText_push_append a b h, ha, hb]
    rfl

/-- An ideographic space has three bytes. The number that the first text breaks off is reported even
if the second text would complete it; else what is read behind the space is moved by the four bytes
before it. -/
theorem ofText_append_ideographic_space :
    let space := '\u3000'
    Text.isBlank space = true ∧ ("(".push space).utf8ByteSize = 4 ∧
      ofText ("1e".push space ++ "5") = .error (.invalidNumber "1e" 0) ∧
      ofText ("(".push space ++ "- ?") = .error (.unknownCharacter '?' 6) ∧
      ofText ("(".push space ++ "- +") =
        .ok [⟨.operand .openParen, 0⟩, ⟨.operand .subtract, 4⟩, ⟨.operand .add, 6⟩] := by
  intro space
  have hspace : Text.isBlank space = true := by decide
  have hbroken : ofText "1e" = .error (.invalidNumber "1e" 0) := by
    show scan 0 ['1', 'e'] = _
    rw [scan_run rfl]
    rfl
  have hopen : ofText "(" = .ok [⟨.operand .openParen, 0⟩] := by
    show scan 0 [Operand.openParen.toChar] = _
    rw [scan_operand, scan_nil]
    rfl
  have hunknown : ofText "- ?" = .error (.unknownCharacter '?' 2) := by
    show scan 0 [Operand.subtract.toChar, ' ', '?'] = _
    rw [scan_operand, scan_blank rfl, scan_unknown rfl rfl rfl]
    rfl
  have hsigns : ofText "- +" = .ok [⟨.operand .subtract, 0⟩, ⟨.operand .add, 2⟩] := by
    show scan 0 [Operand.subtract.toChar, ' ', Operand.add.toChar] = _
    rw [scan_operand, scan_blank rfl, scan_operand, scan_nil]
    rfl
  refine ⟨hspace, by decide +kernel, ?_, ?_, ?_⟩
  · exact (ofText_append_blank "1e" "5" space hspace).1 _ hbroken
  · exact (ofText_append_blank "(" "- ?" space hspace).2.1 _ _ hopen hunknown
  · exact (ofText_append_blank "(" "- +" space hspace).2.2 _ _ hopen hsigns

end Token

end TagFormula
