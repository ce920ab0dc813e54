/-!
# Colours and emphasis

A style says what it changes: a colour that it leaves open stays what it is, and emphasis is only
added.
-/

namespace TagFormula.Screen

inductive Color where
  | yellow
  | blue
  | cyan
  | gray
  | darkGray
  | lightRed
  | lightGreen
  | lightYellow
  | lightBlue
  | white
  deriving DecidableEq, Repr

structure Emphasis where
  bold : Bool := false
  underlined : Bool := false
  slowBlink : Bool := false
  reversed : Bool := false
  deriving DecidableEq, Repr

def Emphasis.union (a b : Emphasis) : Emphasis where
  bold := a.bold || b.bold
  underlined := a.underlined || b.underlined
  slowBlink := a.slowBlink || b.slowBlink
  reversed := a.reversed || b.reversed

/-- How a text is drawn, or what is changed in that. -/
structure Style where
  foreground : Option Color := none
  background : Option Color := none
  emphasis : Emphasis := {}
  deriving DecidableEq, Repr

/-- What a style becomes if another one is put over it. -/
def Style.patch (base top : Style) : Style where
  foreground := top.foreground.or base.foreground
  background := top.background.or base.background
  emphasis := base.emphasis.union top.emphasis

/-- A style that sets nothing changes nothing. -/
@[simp] theorem Style.patch_empty (base : Style) : base.patch {} = base := by
  cases base
  simp [Style.patch, Emphasis.union]

end TagFormula.Screen
