import TagFormula.Command
import TagFormula.CommandLine

/-!
# A run of the program

What a run writes, with which exit code it ends, and which settings file it leaves behind, given its
arguments and the files it can read. The editor needs a terminal, which a run by itself does not
have.
-/

namespace TagFormula

/-- What a run of the program leaves behind. -/
structure Run where
  exitCode : Nat := 0
  output : String := ""
  errors : String := ""
  /-- The path and the text of a file that is written. -/
  saved : Option (String × String) := none
  deriving DecidableEq, Repr

/-- What a run can see. -/
structure Surroundings where
  /-- The text of a file, if there is one. -/
  fileText : String → Option String
  /-- The directory in which programs keep their settings. -/
  settingsDirectory : String

namespace Program

/-- Where the settings are kept unless another file is named. -/
def defaultPath (settingsDirectory : String) : String :=
  settingsDirectory ++ "/" ++ CommandLine.programName ++ "/config.toml"

/-- The file that is read in place of a missing one. -/
def fallbackPath (path : String) : String :=
  path ++ ".toml"

def readablePaths (args : List String) (settingsDirectory : String) : List String :=
  match CommandLine.read args with
  | .ok { settingsFile := some path, .. } => [path, fallbackPath path]
  | _ => [defaultPath settingsDirectory]

def namedSettings (s : Surroundings) (path : String) : Except SettingsError Settings :=
  match (s.fileText path).or (s.fileText (fallbackPath path)) with
  | some text => Settings.read text
  | none => .error .missing

/-- The settings, their path, and what is written if they have to be created first. -/
def findSettings (s : Surroundings) (named : Option String) :
    Except SettingsError (Settings × String × Option String) :=
  match named with
  | some path => (namedSettings s path).map fun settings => (settings, path, none)
  | none =>
    let path := defaultPath s.settingsDirectory
    match s.fileText path with
    | some text => (Settings.read text).map fun settings => (settings, path, none)
    | none =>
      match Settings.write? {} with
      | some text => .ok ({}, path, some text)
      | none => .error .unwritable

/-- The words that a shell can complete, each on a line. -/
def completions : String :=
  String.join (CommandLine.commands.map (·.name ++ "\n"))

/-- A command that gives a result, without it. -/
def withoutResult {α : Type} (o : Command.Outcome α) : Command.Outcome Unit :=
  { result := o.result.map fun _ => (), report := o.report }

/-- Do a task. `fileExists` tells whether there is a settings file at the path. -/
def perform (settings : Settings) (catalog : Catalog) (path : String) (fileExists : Bool) :
    Task → Command.Outcome Unit
  | .edit => { result := .error (.display .noTerminal) }
  | .calculate words json => withoutResult (Command.calculate catalog words json)
  | .evaluate text => withoutResult (Command.evaluate text)
  | .list query ranked =>
    { result := .ok (), report := Command.list catalog (query.getD "") ranked }
  | .settings .path => { result := .ok (), report := Command.showPath path fileExists }
  | .settings .contents => Command.showSettings settings path
  | .completions _ => { result := .ok () }

def failure (e : ProgramError) : Run :=
  { exitCode := 1, errors := Report.render [⟨.error, e.message⟩] false .error }

def conclude (quiet : Bool) (o : Command.Outcome Unit) : Run :=
  let output := o.report.render quiet .output
  let errors := o.report.render quiet .error
  match o.result with
  | .ok _ => { output, errors }
  | .error e => { failure e with output, errors := errors ++ (failure e).errors }

/-- Do what a command line asks for. The settings are read first, whatever the task is, but the
words for a shell need none. -/
def runTask (s : Surroundings) (line : CommandLine) : Run :=
  match line.task with
  | .completions _ => { output := completions }
  | task =>
    match findSettings s line.settingsFile with
    | .error e => failure (.settings e)
    | .ok (settings, path, text) =>
      let saved := text.map (path, ·)
      match settings.catalog with
      | .error e => { failure (.catalog e) with saved }
      | .ok catalog =>
        let fileExists := text.isSome || (s.fileText path).isSome
        let outcome := perform settings catalog path fileExists task
        { conclude (line.quiet || settings.quiet) outcome with saved }

def usage : String :=
  s!"Usage: {CommandLine.programName} [OPTIONS] [COMMAND]\n"

def refuse (r : Arguments.Refusal) : Run :=
  match r with
  | .displayHelp => { output := usage }
  | .displayVersion => { output := s!"{CommandLine.programName} {CommandLine.version}\n" }
  | _ => { exitCode := r.exitCode, errors := usage }

def run (s : Surroundings) (args : List String) : Run :=
  match CommandLine.read args with
  | .error r => refuse r
  | .ok line => runTask s line

end Program

end TagFormula
