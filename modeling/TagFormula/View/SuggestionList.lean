import TagFormula.Editor
import TagFormula.Screen.Frame
import TagFormula.View.Theme

/-!
# The suggestion list

A frame with a row for each shown suggestion. If they do not all fit, the list starts at the first
one, unless the highlighted one is then out of view; then it ends with that one.
-/

namespace TagFormula.SuggestionList

open Screen

/-- The first suggestion in view, if there are rows for `height` of them. -/
def offset (suggestions : List SuggestionView) (height : Nat) : Nat :=
  match suggestions.findIdx? (·.highlighted) with
  | some i => if 0 < height && height ≤ i then i + 1 - height else 0
  | none => 0

/-- The suggestions in view with the rows in which a click finds them. -/
def placed (suggestions : List SuggestionView) (area : Area) : List (Area × SuggestionView) :=
  let inside := area.inside
  ((suggestions.drop (offset suggestions inside.height)).take inside.height).mapIdx
    fun i suggestion => (inside.rows i 1, suggestion)

/-- The rows in view with the positions of their suggestions. -/
def rows (suggestions : List SuggestionView) (area : Area) : List (Area × Nat) :=
  (placed suggestions area).map fun (row, suggestion) => (row, suggestion.index)

/-- The title of the frame. -/
def title (shown total : Nat) : String :=
  s!" Suggestions ({shown}/{total}) "

/-- The line of a suggestion: a marker, the label and the value. -/
def line (suggestion : SuggestionView) : Line :=
  [⟨if suggestion.highlighted then ">" else " ", Theme.accent⟩, ⟨" ", {}⟩,
    ⟨suggestion.tag.key, if suggestion.highlighted then Theme.highlight else {}⟩,
    ⟨s!"  {suggestion.tag.value}", Theme.muted⟩]

/-- What stands in the place of suggestions if there are none. -/
def emptyLine : Line :=
  [⟨"  no matching suggestions", Theme.muted⟩]

/-- Draw the list. `total` is the number of entries of the catalog. -/
def draw (canvas : Canvas) (area : Area) (suggestions : List SuggestionView) (total : Nat) :
    Canvas :=
  let inside := area.inside
  let lines :=
    if suggestions.isEmpty then [emptyLine]
    else ((suggestions.drop (offset suggestions inside.height)).take inside.height).map line
  (canvas.drawFrame area
    { title := title suggestions.length total, style := Theme.frame }).drawLines inside 0 lines

end TagFormula.SuggestionList
