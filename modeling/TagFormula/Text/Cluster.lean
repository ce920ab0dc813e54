import TagFormula.Text.ClusterTable

/-!
# Grapheme clusters

A text is cut into the units that a reader sees as one character: a base with its marks, a Hangul
syllable, a flag, pictographs tied by joiners. A cut falls before every character but those that
`Boundary.joins` ties to the text so far.
-/

namespace TagFormula.Text

/-- What the boundary rules ask about a character. -/
inductive ClusterClass where
  | carriageReturn
  | lineFeed
  | control
  | extend
  | joiner
  | flagLetter
  | prepended
  | spacingMark
  | leadingJamo
  | vowelJamo
  | trailingJamo
  | openSyllable
  | closedSyllable
  | other
  deriving DecidableEq

def clusterClass (c : Char) : ClusterClass :=
  let n := c.toNat
  if n = 0x0D then .carriageReturn
  else if n = 0x0A then .lineFeed
  else if 0x20 ≤ n && n < 0x7F then .other
  else if n = 0x200D then .joiner
  else if 0x1F1E6 ≤ n && n ≤ 0x1F1FF then .flagLetter
  else if inRanges [(0x1100, 0x115F), (0xA960, 0xA97C)] c then .leadingJamo
  else if inRanges [(0x1160, 0x11A7), (0xD7B0, 0xD7C6), (0x16D63, 0x16D63), (0x16D67, 0x16D6A)] c
    then .vowelJamo
  else if inRanges [(0x11A8, 0x11FF), (0xD7CB, 0xD7FB)] c then .trailingJamo
  else if 0xAC00 ≤ n && n ≤ 0xD7A3 then
    if (n - 0xAC00) % 28 = 0 then .openSyllable else .closedSyllable
  else if inRanges controlRanges c then .control
  else if inRanges extendRanges c then .extend
  else if inRanges spacingMarkRanges c then .spacingMark
  else if inRanges prependRanges c then .prepended
  else .other

/-- Where the reading of a text stands: what the rules ask about the cluster so far. -/
structure Boundary where
  /-- Class of the last character. -/
  last : ClusterClass
  /-- The last flag letter has no partner yet. -/
  oddFlag : Bool
  /-- A pictograph followed by marks only, then perhaps by a joiner. -/
  pictograph : Bool
  /-- A consonant followed by marks and linkers only. -/
  consonant : Bool
  /-- A linker stands among those marks. -/
  linked : Bool

namespace Boundary

/-- The state after a first character. -/
def start (c : Char) : Boundary where
  last := clusterClass c
  oddFlag := clusterClass c = .flagLetter
  pictograph := inRanges pictographRanges c
  consonant := inRanges conjunctConsonantRanges c
  linked := false

/-- No cut falls before `c`. -/
def joins (b : Boundary) (c : Char) : Bool :=
  let next := clusterClass c
  match b.last, next with
  | .carriageReturn, .lineFeed => true
  | .carriageReturn, _ | .lineFeed, _ | .control, _ => false
  | _, .carriageReturn | _, .lineFeed | _, .control => false
  | .leadingJamo, .leadingJamo | .leadingJamo, .vowelJamo => true
  | .leadingJamo, .openSyllable | .leadingJamo, .closedSyllable => true
  | .openSyllable, .vowelJamo | .openSyllable, .trailingJamo => true
  | .vowelJamo, .vowelJamo | .vowelJamo, .trailingJamo => true
  | .closedSyllable, .trailingJamo | .trailingJamo, .trailingJamo => true
  | _, .extend | _, .joiner | _, .spacingMark => true
  | .prepended, _ => true
  | .joiner, _ =>
    (b.pictograph && inRanges pictographRanges c) ||
      (b.consonant && b.linked && inRanges conjunctConsonantRanges c)
  | .flagLetter, .flagLetter => b.oddFlag
  | _, _ => b.consonant && b.linked && inRanges conjunctConsonantRanges c

/-- The state after `c` too, whether or not a cut falls before it. -/
def push (b : Boundary) (c : Char) : Boundary :=
  let next := clusterClass c
  let linker := inRanges conjunctLinkerRanges c
  let mark := next = .extend || next = .joiner
  if b.joins c then
    { last := next
      oddFlag := next = .flagLetter && !b.oddFlag
      pictograph := (mark && b.pictograph && b.last ≠ .joiner) || inRanges pictographRanges c
      consonant := (mark && b.consonant && c ≠ '\u200c') || inRanges conjunctConsonantRanges c
      linked := mark && b.consonant && (b.linked || linker) }
  else
    start c

end Boundary

/-- The clusters of a text that continues the cluster `cluster` (last character first). -/
def clustersFrom (b : Boundary) (cluster : List Char) : List Char → List (List Char)
  | [] => [cluster.reverse]
  | c :: rest =>
    if b.joins c then clustersFrom (b.push c) (c :: cluster) rest
    else cluster.reverse :: clustersFrom (b.push c) [c] rest

/-- The grapheme clusters of a text, in order. -/
def clusters : List Char → List (List Char)
  | [] => []
  | c :: rest => clustersFrom (.start c) [c] rest

end TagFormula.Text
