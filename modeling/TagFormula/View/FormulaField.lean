import TagFormula.Screen.Frame
import TagFormula.Screen.Paragraph
import TagFormula.View.ChipLayout
import TagFormula.View.Theme

/-!
# The formula field

A frame with the chips of the committed tags, and the free text with a cursor in the last row.
-/

namespace TagFormula.FormulaField

open Screen

/-- The most rows of chips that are asked for. -/
def mostRows : Nat := 255

/-- The area in which the rows of chips are counted. -/
def countingArea (width : Nat) : Area :=
  .clipped 0 0 (width - 2) mostRows

def requiredHeight (chips : List Chip) (width : Nat) : Nat :=
  ((layoutChips chips (countingArea width)).getLast?.elim 0 (·.area.y + 1)) + 3

/-- The rows for chips: all inside the frame but the last. -/
def chipArea (area : Area) : Area :=
  area.inside.rows 0 (area.inside.height - 1)

def textArea (area : Area) : Area :=
  area.inside.rows (area.inside.height - 1) 1

def chipStyle (chip : Chip) : Style :=
  if chip.deletable then Theme.chip else Theme.operand

def drawChip (canvas : Canvas) (slot : ChipSlot) (chip : Chip) : Canvas :=
  let style := chipStyle chip
  let canvas := canvas.write slot.area.x slot.area.y chip.text slot.area.width style
  match slot.delete with
  | none => canvas
  | some area =>
    canvas.write area.x area.y Chip.deleteMark area.width (style.patch Theme.alert)

def drawChips (canvas : Canvas) (chips : List Chip) (area : Area) : Canvas :=
  (layoutChips chips area).foldl (fun canvas slot =>
    match chips.find? (·.index = slot.index) with
    | some chip => drawChip canvas slot chip
    | none => canvas) canvas

def textLine (freeText : String) : Line :=
  [⟨">", Theme.muted⟩, ⟨" ", {}⟩, ⟨freeText, {}⟩, ⟨"│", { emphasis := { slowBlink := true } }⟩]

def draw (canvas : Canvas) (area : Area) (chips : List Chip) (freeText : String)
    (focused : Bool) : Canvas :=
  let style := if focused then Theme.accent else Theme.frame
  let canvas := canvas.drawFrame area { title := " Formula ", style }
  if area.inside.height = 0 then canvas
  else
    (drawChips canvas chips (chipArea area)).drawParagraph (textArea area) .left
      [textLine freeText]

end TagFormula.FormulaField
