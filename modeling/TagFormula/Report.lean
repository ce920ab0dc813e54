/-!
# Messages

What a command tells its user, line by line, and how much of it is written to which stream.
-/

namespace TagFormula

inductive Level where
  /-- A result. -/
  | normal
  | error
  | success
  | warning
  /-- A remark that may be left out. -/
  | info
  deriving DecidableEq, Repr

structure Message where
  level : Level
  text : String
  deriving DecidableEq, Repr

/-- The messages written so far, oldest first. -/
abbrev Report := List Message

namespace Report

def lines (report : Report) (level : Level) : List String :=
  (report.filter (·.level = level)).map (·.text)

end Report

inductive Stream where
  | output
  | error
  deriving DecidableEq, Repr

/-- Where a message is written and how, if at all: `quiet` leaves only results and errors. -/
def Message.written? (quiet : Bool) (m : Message) : Option (Stream × String) :=
  match m.level with
  | .normal => some (.output, m.text)
  | .error => some (.error, s!"error: {m.text}")
  | .success => if quiet then none else some (.output, s!"✓ {m.text}")
  | .warning => if quiet then none else some (.error, s!"warning: {m.text}")
  | .info => if quiet then none else some (.output, m.text)

def Report.render (report : Report) (quiet : Bool) (stream : Stream) : String :=
  let lines := report.filterMap fun m =>
    match m.written? quiet with
    | some (s, line) => if s = stream then some (line ++ "\n") else none
    | none => none
  String.join lines

end TagFormula
