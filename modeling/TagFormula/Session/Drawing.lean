import TagFormula.Session.State
import TagFormula.View.FormulaField
import TagFormula.View.Help
import TagFormula.View.Notice
import TagFormula.View.ResultPanel
import TagFormula.View.SuggestionList

/-!
# Drawing a session

The screen is cut into the formula field, the suggestion list, the result panel, the status bar and
the help bar, from top to bottom. The list takes the rows that the others leave. A drawing records
the regions that can be clicked.
-/

namespace TagFormula

open Screen

/-- The smallest screen on which a session is drawn. -/
def smallestWidth : Nat := 40

/-- The fewest rows on which a session is drawn. -/
def smallestHeight : Nat := 14

structure Panes where
  field : Area
  list : Area
  result : Area
  status : Area
  help : Area
  deriving DecidableEq, Repr

/-- Cut a screen into its parts, with a given height of the formula field. -/
def Panes.split (area : Area) (fieldHeight : Nat) : Panes :=
  let listHeight := area.height - fieldHeight - ResultPanel.height - 2
  let resultTop := fieldHeight + listHeight
  let statusTop := resultTop + ResultPanel.height
  { field := area.rows 0 fieldHeight
    list := area.rows fieldHeight listHeight
    result := area.rows resultTop ResultPanel.height
    status := area.rows statusTop 1
    help := area.rows (statusTop + 1) 1 }

namespace Session

/-- The screen is too small for a session. -/
def isTooSmall (area : Area) : Bool :=
  area.width < smallestWidth || area.height < smallestHeight

/-- The height of the formula field: what it asks for, but at most a third of the screen. -/
def fieldHeight (s : Session) (area : Area) : Nat :=
  min (max (FormulaField.requiredHeight s.editor.chips area.width) 3) (area.height / 3)

def panes (s : Session) (area : Area) : Panes :=
  .split area (s.fieldHeight area)

/-- The regions of the delete controls. -/
def deleteRegions (slots : List ChipSlot) : Regions :=
  slots.filterMap fun slot => slot.delete.map (·, .delete slot.index)

/-- The regions that can be clicked. -/
def layoutRegions (s : Session) (area : Area) : Regions :=
  if isTooSmall area then []
  else
    let panes := s.panes area
    deleteRegions (layoutChips s.editor.chips (FormulaField.chipArea panes.field)) ++
      (SuggestionList.rows s.editor.suggestions panes.list).map (fun (row, index) =>
        (row, .suggestion index)) ++
      [(ResultPanel.buttonArea panes.result, .calculate)]

def drawPanes (s : Session) (canvas : Canvas) (panes : Panes) : Canvas :=
  let canvas :=
    FormulaField.draw canvas panes.field s.editor.chips s.editor.freeText (s.mode = .normal)
  let canvas :=
    SuggestionList.draw canvas panes.list s.editor.suggestions s.editor.catalog.entries.length
  let canvas := ResultPanel.draw canvas panes.result s.calculator
  let canvas := StatusBar.draw canvas panes.status s.message? s.editor.tags.length
  HelpBar.draw canvas panes.help s.hints

/-- Draw what stands above the parts of the screen. -/
def drawOverlay (s : Session) (canvas : Canvas) (area : Area) : Canvas :=
  match s.mode, s.notice with
  | .help, _ => Help.draw canvas area
  | .notice, some text => Notice.draw canvas area "Invalid expression" text
  | _, _ => canvas

def picture (s : Session) (area : Area) : Canvas :=
  let canvas := Canvas.blank area
  if isTooSmall area then
    canvas.drawParagraph area .left [[⟨"Terminal too small", Theme.alert⟩]]
  else s.drawOverlay (s.drawPanes canvas (s.panes area)) area

/-- Draw a session, which then knows what can be clicked. -/
def draw (s : Session) (area : Area) : Session × Canvas :=
  ({ s with regions := s.layoutRegions area }, s.picture area)

end Session

end TagFormula
