import TagFormula.Report
import TagFormula.Screen.Style

/-!
# The colours of the editor

A style per role that a text can play on the screen.
-/

namespace TagFormula.Theme

open Screen

/-- Chips of named quantities. -/
def chip : Style :=
  { foreground := some .lightBlue, emphasis := { reversed := true } }

/-- Chips of operands. -/
def operand : Style :=
  { foreground := some .lightYellow, emphasis := { bold := true } }

def total : Style :=
  { foreground := some .lightGreen, emphasis := { bold := true } }

/-- Delete marks, the frame of a notice, and errors. -/
def alert : Style :=
  { foreground := some .lightRed }

/-- The highlighted suggestion. -/
def highlight : Style :=
  { foreground := some .white, background := some .blue, emphasis := { bold := true } }

/-- The focused frame, names of keys, and the button. -/
def accent : Style :=
  { foreground := some .cyan, emphasis := { bold := true } }

/-- Frames without the focus. -/
def frame : Style :=
  { foreground := some .gray }

/-- Values, separators and placeholders. -/
def muted : Style :=
  { foreground := some .darkGray }

/-- Messages of a kind. -/
def message : Level → Style
  | .normal => {}
  | .error => alert
  | .success => { foreground := some .lightGreen }
  | .warning => { foreground := some .yellow }
  | .info => { foreground := some .cyan }

end TagFormula.Theme
