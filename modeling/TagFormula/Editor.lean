import TagFormula.Suggestion

/-!
# The formula editor

An editor holds the committed tags of a formula, the free text typed after them, and the highlighted
one of the suggestions for that text. Whatever can change the list of suggestions takes the
highlight away.
-/

namespace TagFormula

/-- What a change of the free text means. -/
inductive Keystroke where
  /-- The text becomes the free text. -/
  | append (text : String)
  /-- An operand is committed. -/
  | commit (op : Operand)
  deriving DecidableEq, Repr

/-- Only the last character of the changed text decides: an operand symbol commits that operand. -/
def Keystroke.ofText (text : String) : Keystroke :=
  match text.toList.getLast?.bind Operand.ofChar? with
  | some op => .commit op
  | none => .append text

inductive EditorKey where
  | enter
  | backspace
  | down
  | up
  deriving DecidableEq, Repr

/-- What became of a key. -/
inductive KeyOutcome where
  /-- The key was used; the flag asks the surroundings not to use it as well. -/
  | handled (preventDefault : Bool)
  /-- Nothing happened; the surroundings may use the key. -/
  | ignored
  deriving DecidableEq, Repr

structure Editor where
  catalog : Catalog
  tags : List Tag := []
  freeText : String := ""
  /-- Position in the list of shown suggestions. -/
  highlighted : Option Nat := none
  deriving DecidableEq, Repr

/-- A shown suggestion: its position, its tag, and whether it is the highlighted one. -/
structure SuggestionView where
  index : Nat
  tag : Tag
  highlighted : Bool
  deriving DecidableEq, Repr

/-- A committed tag as it is shown. An operand has no delete control. -/
structure Chip where
  index : Nat
  tag : Tag
  deriving DecidableEq, Repr

/-- The chip has a delete control. -/
def Chip.deletable (chip : Chip) : Bool :=
  !chip.tag.isOperandLabel

namespace Editor

def shown (e : Editor) : List Tag :=
  Suggestion.shown e.catalog.entries e.freeText

/-- All entries of the catalog, ranked against the free text. -/
def ranked (e : Editor) : List Tag :=
  Suggestion.rank e.catalog.entries e.freeText

/-- The shown suggestions with the highlight. -/
def suggestions (e : Editor) : List SuggestionView :=
  e.shown.mapIdx fun index tag => ⟨index, tag, e.highlighted = some index⟩

def chips (e : Editor) : List Chip :=
  e.tags.mapIdx fun index tag => ⟨index, tag⟩

/-- Take the changed text of the text field. An operand at its end is committed, and whatever stood
before it is dropped. -/
def input (e : Editor) (text : String) : Editor :=
  match Keystroke.ofText text with
  | .commit op =>
    { e with tags := e.tags ++ [.ofOperand op], freeText := "", highlighted := none }
  | .append text => { e with freeText := text, highlighted := none }

/-- The text field after one more character. -/
def typed (e : Editor) (c : Char) : String :=
  e.freeText.push c

def push (e : Editor) (c : Char) : Editor :=
  e.input (e.typed c)

/-- The text field without its last character, unless it is empty. -/
def erased? (e : Editor) : Option String :=
  if e.freeText.isEmpty then none else some (String.ofList e.freeText.toList.dropLast)

def pop (e : Editor) : Editor :=
  match e.erased? with
  | none => e
  | some text => e.input text

/-- Commit a tag and drop the free text. -/
def add (e : Editor) (tag : Tag) : Editor :=
  { e with tags := e.tags ++ [tag], freeText := "", highlighted := none }

/-- Commit the shown suggestion at a position, if there is one. -/
def select? (e : Editor) (index : Nat) : Option Editor :=
  e.shown[index]?.map e.add

/-- Remove the tag at a position, if there is one. -/
def delete? (e : Editor) (index : Nat) : Option (Tag × Editor) :=
  e.tags[index]?.map fun tag =>
    (tag, { e with tags := e.tags.eraseIdx index, highlighted := none })

/-- Drop all tags and the free text. -/
def clear (e : Editor) : Editor :=
  { e with tags := [], freeText := "", highlighted := none }

/-- The suggestion that Enter commits: the highlighted one, else the first. -/
def chosen? (e : Editor) : Option Tag :=
  (e.highlighted.bind (e.shown[·]?)).or e.shown.head?

/-- The highlight one further down, or up, a list of `length` suggestions, which closes to a ring.
Without a highlight, down leads to the first and up to the last. -/
def moved (length : Nat) (down : Bool) (highlighted : Option Nat) : Option Nat :=
  if length = 0 then none
  else
    match highlighted, down with
    | some i, true => if i + 1 < length then some (i + 1) else some 0
    | none, true => some 0
    | some i, false => if 0 < i && i < length then some (i - 1) else some (length - 1)
    | none, false => some (length - 1)

def move (e : Editor) (down : Bool) : Editor :=
  { e with highlighted := moved e.shown.length down e.highlighted }

/-- React to a key. Backspace removes the last tag, but only when there is no text to erase. -/
def press (e : Editor) (key : EditorKey) : Editor × KeyOutcome :=
  match key with
  | .enter =>
    match e.chosen? with
    | some tag => (e.add tag, .handled false)
    | none => (e, .ignored)
  | .backspace =>
    if e.freeText.isEmpty && !e.tags.isEmpty then
      ({ e with tags := e.tags.dropLast, highlighted := none }, .handled false)
    else (e, .ignored)
  | .down => (e.move true, .handled true)
  | .up => (e.move false, .handled true)

end Editor

end TagFormula
