import TagFormula.Editor
import TagFormula.Screen.Area
import TagFormula.Text.Columns

/-!
# Where chips stand

Chips flow from left to right with one free column between two of them, and into the next row where
there is no room left. A chip that is wider than a row is cut to the row. The last columns of a chip
that can be deleted hold its delete mark, if the chip is wider than the mark.
-/

namespace TagFormula

open Screen

/-- Where a chip stands, and its delete control. -/
structure ChipSlot where
  index : Nat
  area : Area
  delete : Option Area
  deriving DecidableEq, Repr

namespace Chip

def text (chip : Chip) : String :=
  s!" {chip.tag.key} "

def deleteMark : String := "× "

def markColumns : Nat := 2

def controlColumns (chip : Chip) : Nat :=
  if chip.deletable then markColumns else 0

def columns (chip : Chip) (width : Nat) : Nat :=
  min (saturate (saturate (Text.columns chip.text.toList) + chip.controlColumns)) width

/-- The delete control of a chip that starts in a column and row. -/
def deleteArea? (chip : Chip) (x y width : Nat) : Option Area :=
  if chip.deletable && markColumns < width then
    some (.clipped (toWord (x + width - markColumns)) y markColumns 1)
  else none

end Chip

/-- The slots of chips that flow through an area, from a column and row on. Chips below the area
have none. -/
def flowChips (area : Area) (x y : Nat) : List Chip → List ChipSlot
  | [] => []
  | chip :: rest =>
    let width := chip.columns area.width
    let wraps := area.x < x && area.right < saturate (x + width)
    let x := if wraps then area.x else x
    let y := if wraps then saturate (y + 1) else y
    if area.bottom ≤ y then []
    else
      { index := chip.index
        area := .clipped x y width 1
        delete := chip.deleteArea? x y width } ::
        flowChips area (saturate (saturate (x + width) + 1)) y rest

def layoutChips (chips : List Chip) (area : Area) : List ChipSlot :=
  if area.width = 0 then [] else flowChips area area.x area.y chips

end TagFormula
