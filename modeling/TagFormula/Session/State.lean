import TagFormula.Calculator
import TagFormula.Editor
import TagFormula.Session.Target
import TagFormula.View.Bars

/-!
# A session

The editor and the calculator together with what only the screen is concerned with: the mode, the
notice, the messages and the regions that can be clicked.
-/

namespace TagFormula

/-- What the screen shows above all, and so what keys act on. -/
inductive Mode where
  /-- The editor. -/
  | normal
  /-- The help overlay. -/
  | help
  /-- A notice, which has to be dismissed. -/
  | notice
  deriving DecidableEq, Repr

structure StatusMessage where
  message : Message
  time : Nat
  deriving DecidableEq, Repr

/-- A session. Times are in milliseconds. -/
structure Session where
  editor : Editor
  calculator : Calculator := {}
  mode : Mode := .normal
  notice : Option String := none
  messages : List StatusMessage := []
  /-- How long a message stays. -/
  messageTime : Nat
  /-- The present time. -/
  clock : Nat := 0
  /-- The user wants to leave. -/
  isOver : Bool := false
  regions : Regions := []
  hints : List KeyHint := []

namespace Session

/-- Give a message. -/
def tell (s : Session) (message : Message) : Session :=
  { s with messages := s.messages ++ [⟨message, s.clock⟩] }

def openNotice (s : Session) (text : String) : Session :=
  { s with notice := some text, mode := .notice }

def dismissNotice (s : Session) : Session :=
  { s with notice := none, mode := .normal }

/-- Open the help overlay, or close it. -/
def toggleHelp (s : Session) : Session :=
  { s with mode := if s.mode = .help then .normal else .help }

/-- Calculate the committed tags. The total is told in a message; a failure opens a notice. -/
def calculate (s : Session) : Session :=
  match s.calculator.calculate s.editor.tags with
  | (calculator, .ok e) => { s with calculator }.tell ⟨.success, e.summary⟩
  | (calculator, .error e) =>
    { s with calculator }.openNotice s!"Invalid expression: {e.message}"

def clear (s : Session) : Session :=
  { s with editor := s.editor.clear }.tell ⟨.info, "Cleared formula"⟩

def wait (s : Session) (milliseconds : Nat) : Session :=
  { s with clock := s.clock + milliseconds }

/-- Drop the messages that have stayed longer than they should. -/
def expire (s : Session) : Session :=
  { s with messages := s.messages.filter fun m => s.clock - m.time ≤ s.messageTime }

def message? (s : Session) : Option Message :=
  s.messages.getLast?.map (·.message)

end Session

end TagFormula
