import TagFormula.Session.State

/-!
# Events

What keys and the mouse do in a session. An event without effect leaves the session as it is and is
reported as ignored.
-/

namespace TagFormula

inductive Key where
  | character (c : Char)
  | function (number : Nat)
  | enter
  | escape
  | backspace
  | up
  | down
  | left
  | right
  | tab
  | home
  | delete
  /-- A key that has no meaning of its own. -/
  | other
  deriving DecidableEq, Repr

structure KeyPress where
  key : Key
  control : Bool := false
  alt : Bool := false
  shift : Bool := false
  deriving DecidableEq, Repr

inductive KeyMotion where
  | press
  | release
  | again
  deriving DecidableEq, Repr

inductive MouseButton where
  | left
  | right
  | middle
  deriving DecidableEq, Repr

inductive MouseMotion where
  | press (button : MouseButton)
  | release (button : MouseButton)
  | drag (button : MouseButton)
  | move
  | scrollUp
  | scrollDown
  | scrollLeft
  | scrollRight
  deriving DecidableEq, Repr

inductive Event where
  | key (press : KeyPress) (motion : KeyMotion)
  | mouse (motion : MouseMotion) (x y : Nat)
  | resize (width height : Nat)
  | focus
  /-- The focus is lost. -/
  | blur
  | paste (text : String)
  deriving DecidableEq, Repr

inductive Response where
  | goesOn
  /-- The session ends. -/
  | ends
  | ignored
  deriving DecidableEq, Repr

namespace Session

def editorKey (s : Session) (key : EditorKey) : Session × Response :=
  match s.editor.press key with
  | (editor, .handled _) => ({ s with editor }, .goesOn)
  | (editor, .ignored) => ({ s with editor }, .ignored)

def leave (s : Session) : Session × Response :=
  ({ s with isOver := true }, .ends)

/-- Erase the last character of the free text, or the last tag if there is no text. -/
def erase (s : Session) : Session :=
  match s.editor.press .backspace with
  | (editor, .handled _) => { s with editor }
  | (editor, .ignored) => { s with editor := editor.pop }

def type (s : Session) (c : Char) : Session :=
  { s with editor := s.editor.push c }

/-- A character key in normal mode. With the control key held down it is a command, if there is one
for it; with the alt key alone it is nothing. -/
def characterKey (s : Session) (c : Char) (control alt : Bool) : Session × Response :=
  if control then
    if c = 'c' then s.leave
    else if c = 'r' then (s.calculate, .goesOn)
    else if c = 'l' then (s.clear, .goesOn)
    else (s, .ignored)
  else if alt then (s, .ignored)
  else (s.type c, .goesOn)

def normalKey (s : Session) (press : KeyPress) : Session × Response :=
  match press.key with
  | .escape => s.leave
  | .function 1 => (s.toggleHelp, .goesOn)
  | .function 5 => (s.calculate, .goesOn)
  | .enter => s.editorKey .enter
  | .down => s.editorKey .down
  | .up => s.editorKey .up
  | .backspace => (s.erase, .goesOn)
  | .character c => s.characterKey c press.control press.alt
  | _ => (s, .ignored)

/-- The key dismisses a notice. -/
def dismisses (press : KeyPress) : Bool :=
  match press.key with
  | .enter | .escape | .character ' ' => true
  | .character 'c' => press.control
  | _ => false

/-- A key that is pressed. Any key closes the help overlay. -/
def pressKey (s : Session) (press : KeyPress) : Session × Response :=
  match s.mode with
  | .normal => s.normalKey press
  | .help => ({ s with mode := .normal }, .goesOn)
  | .notice => if dismisses press then (s.dismissNotice, .goesOn) else (s, .ignored)

def click (s : Session) (x y : Nat) : Session × Response :=
  match s.regions.target? x y with
  | some (.delete index) =>
    ({ s with editor := (s.editor.delete? index).elim s.editor (·.2) }, .goesOn)
  | some (.suggestion index) =>
    ({ s with editor := (s.editor.select? index).getD s.editor }, .goesOn)
  | some .calculate => (s.calculate, .goesOn)
  | none => (s, .ignored)

/-- The mouse. A click closes a notice and the help overlay; the wheel moves the highlight. -/
def moveMouse (s : Session) (motion : MouseMotion) (x y : Nat) : Session × Response :=
  match s.mode, motion with
  | .notice, .press .left => (s.dismissNotice, .goesOn)
  | .help, .press .left => ({ s with mode := .normal }, .goesOn)
  | .normal, .press .left => s.click x y
  | .normal, .scrollDown => s.editorKey .down
  | .normal, .scrollUp => s.editorKey .up
  | _, _ => (s, .ignored)

/-- React to an event. Of keys, only the press counts. -/
def handle (s : Session) (event : Event) : Session × Response :=
  match event with
  | .key press .press => s.pressKey press
  | .mouse motion x y => s.moveMouse motion x y
  | .resize _ _ => (s, .goesOn)
  | _ => (s, .ignored)

end Session

end TagFormula
