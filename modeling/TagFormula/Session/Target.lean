import TagFormula.Screen.Area

/-!
# What can be clicked

The regions of the last frame, each with what a click in it does. Where regions overlap, the one
recorded first counts.
-/

namespace TagFormula

open Screen

inductive Target where
  /-- Delete the tag at a position. -/
  | delete (index : Nat)
  /-- Commit the shown suggestion at a position. -/
  | suggestion (index : Nat)
  | calculate
  deriving DecidableEq, Repr

/-- Regions in the order in which they were recorded. -/
abbrev Regions := List (Area × Target)

/-- What a click in a cell does. -/
def Regions.target? (regions : Regions) (x y : Nat) : Option Target :=
  (regions.find? fun region => region.1.contains x y).map (·.2)

end TagFormula
