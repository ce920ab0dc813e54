import TagFormula.Report
import TagFormula.Screen.Paragraph
import TagFormula.View.Theme

/-!
# The status bar and the help bar

The status bar shows the latest message on the left and the number of tags on the right. The help
bar shows what keys do.
-/

namespace TagFormula

open Screen

namespace StatusBar

/-- The columns of the number of tags. -/
def countColumns : Nat := 12

def sign : Level → String
  | .success => "✓ "
  | .error => "✗ "
  | .warning => "! "
  | .info | .normal => ""

def countText (count : Nat) : String :=
  if count = 1 then "1 tag" else s!"{count} tags"

/-- Draw the status bar. The number of tags keeps its columns where the bar is narrow. -/
def draw (canvas : Canvas) (area : Area) (message : Option Message) (count : Nat) : Canvas :=
  let left := area.width - countColumns
  let canvas := match message with
    | none => canvas
    | some m =>
      let style := Theme.message m.level
      canvas.drawParagraph (area.takeColumns left) .left [[⟨sign m.level, style⟩, ⟨m.text, style⟩]]
  canvas.drawParagraph (area.dropColumns left) .right [[⟨countText count, Theme.muted⟩]]

end StatusBar

/-- What a key does, in a word. -/
structure KeyHint where
  key : String
  action : String
  deriving DecidableEq, Repr

namespace HelpBar

def editorHints : List KeyHint := [
  ⟨"↑/↓", "choose"⟩, ⟨"Enter", "add"⟩, ⟨"F5", "calculate"⟩, ⟨"ctrl+l", "clear"⟩, ⟨"F1", "help"⟩,
  ⟨"ESC", "quit"⟩]

def spans (hint : KeyHint) : List Span :=
  [⟨hint.key, Theme.accent⟩, ⟨":", Theme.muted⟩, ⟨hint.action, {}⟩]

def line (hints : List KeyHint) : Line :=
  [⟨"  ", Theme.muted⟩].intercalate (hints.map spans)

def draw (canvas : Canvas) (area : Area) (hints : List KeyHint) : Canvas :=
  canvas.drawParagraph area .left [line hints]

end HelpBar

end TagFormula
