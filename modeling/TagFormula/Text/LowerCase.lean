import TagFormula.Text.CaseTable

/-!
# Lower case

Full lower-casing of a text: each character by itself, but for two of them. `İ` becomes two
characters, and the form of a sigma depends on whether it ends a word.
-/

namespace TagFormula.Text

/-- The image of the character with code point `n` under the run, if the run has it. -/
def CaseRun.image? (run : CaseRun) (n : Nat) : Option Char :=
  if run.first ≤ n && n ≤ run.last && (n - run.first) % run.step == 0 then
    some (Char.ofNat (n + run.shift).toNat)
  else
    none

/-- The lower-case image of one character, whatever its neighbours. -/
def lowerChar (c : Char) : List Char :=
  if c.toNat < 0x80 then [c.toLower]
  else if c = 'İ' then ['i', '\u0307']
  else [(caseRuns.findSome? (·.image? c.toNat)).getD c]

/-- A cased letter comes first once the characters without influence are passed over. -/
def startsCased (cs : List Char) : Bool :=
  match cs.dropWhile (inRanges caseIgnorableRanges) with
  | [] => false
  | c :: _ => inRanges casedRanges c

/-- A sigma between the text `before` (nearest character first) and the text `after` ends a word:
a cased letter precedes it and none follows. -/
def endsWord (before after : List Char) : Bool :=
  startsCased before && !startsCased after

/-- The lower-case image of a text that follows `before` (nearest character first). -/
def lowerAfter (before : List Char) : List Char → List Char
  | [] => []
  | c :: rest =>
    let image :=
      if c = 'Σ' then [if endsWord before rest then 'ς' else 'σ'] else lowerChar c
    image ++ lowerAfter (c :: before) rest

def lower (cs : List Char) : List Char :=
  lowerAfter [] cs

def lowerCase (s : String) : String :=
  String.ofList (lower s.toList)

end TagFormula.Text
