import TagFormula.Arguments

/-!
# The command line

The commands of the program, and what its arguments ask for. Without a command the editor is opened.
-/

namespace TagFormula

inductive SettingsQuery where
  /-- Where they are kept. -/
  | path
  /-- What they are. -/
  | contents
  deriving DecidableEq, Repr

inductive Shell where
  | bash
  | elvish
  | fish
  | powershell
  | zsh
  deriving DecidableEq, Repr

namespace Shell

/-- All shells, in the order in which they are offered. -/
def all : List Shell := [bash, elvish, fish, powershell, zsh]

def name : Shell → String
  | bash => "bash"
  | elvish => "elvish"
  | fish => "fish"
  | powershell => "powershell"
  | zsh => "zsh"

def ofName? (text : String) : Option Shell :=
  all.find? (·.name = text)

end Shell

/-- What the program is asked to do. -/
inductive Task where
  | edit
  /-- Calculate the formula that words name. -/
  | calculate (words : List String) (json : Bool)
  /-- Evaluate a formula's text. -/
  | evaluate (text : String)
  /-- List the catalog. -/
  | list (query : Option String) (ranked : Bool)
  | settings (query : SettingsQuery)
  | completions (shell : Shell)
  deriving DecidableEq, Repr

structure CommandLine where
  task : Task := .edit
  /-- A command is written. -/
  given : Bool := false
  quiet : Bool := false
  settingsFile : Option String := none
  deriving DecidableEq, Repr

namespace CommandLine

open Arguments

def programName : String := "tagcalc"

def version : String := "0.1.0"

def commands : List Spec := [
  { name := "edit", aliases := ["e"] },
  { name := "calc", aliases := ["c"]
    switches := [{ long := "json" }]
    positional := some { name := "TOKENS", required := true, repeated := true, hyphens := true } },
  { name := "eval"
    positional := some { name := "EXPRESSION", required := true, hyphens := true } },
  { name := "catalog"
    switches := [{ long := "ranked", short := some 'r' }]
    positional := some { name := "QUERY" } },
  { name := "config"
    subcommands := [{ name := "path" }, { name := "show" }]
    needsSubcommand := true },
  { name := "completions"
    positional := some
      { name := "SHELL", required := true, allowed := some (Shell.all.map (·.name)) } }]

def spec : Spec where
  name := programName
  switches := [
    { long := "quiet", short := some 'q', isGlobal := true },
    { long := "config", short := some 'c', takesValue := true, isGlobal := true }]
  subcommands := commands
  hasVersion := true

def taskOf : Reading → Task
  | .mk "calc" flags _ values _ => .calculate values ("json" ∈ flags)
  | .mk "eval" _ _ values _ => .evaluate (values.headD "")
  | .mk "catalog" flags _ values _ => .list values.head? ("ranked" ∈ flags)
  | .mk "config" _ _ _ (some (.mk query _ _ _ _)) =>
    .settings (if query = "path" then .path else .contents)
  | .mk "completions" _ _ values _ => .completions ((Shell.ofName? (values.headD "")).getD .bash)
  | _ => .edit

def ofReading (reading : Reading) : CommandLine where
  task := reading.subcommand?.elim .edit taskOf
  given := reading.subcommand?.isSome
  quiet := reading.hasFlag "quiet"
  settingsFile := reading.option? "config"

def read (args : List String) : Except Refusal CommandLine :=
  (spec.read args).map ofReading

end CommandLine

end TagFormula
