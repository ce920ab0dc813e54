import TagFormula.Program

/-!
# The command

Reads the files that a run may need, does the run, and writes what it leaves behind.
-/

open TagFormula

/-- The text of a file, if it can be read. -/
def readText? (path : String) : IO (Option String) :=
  try
    return some (← IO.FS.readFile path)
  catch _ =>
    return none

/-- The directory in which programs keep their settings: the one that is named for that, if it is
an absolute path, else one in the user's directory. -/
def findSettingsDirectory : IO String := do
  let named := (← IO.getEnv "XDG_CONFIG_HOME").filter (·.startsWith "/")
  let home := (← IO.getEnv "HOME").getD ""
  return named.getD (home ++ "/.config")

/-- Write a file, and first the directories in which it lies. -/
def saveText (path text : String) : IO Unit := do
  let directory := "/".intercalate (path.splitOn "/").dropLast
  unless directory.isEmpty do
    IO.FS.createDirAll directory
  IO.FS.writeFile path text

def main (args : List String) : IO UInt32 := do
  let settingsDirectory ← findSettingsDirectory
  let files ← (Program.readablePaths args settingsDirectory).mapM fun path => do
    return (path, ← readText? path)
  let surroundings : Surroundings :=
    { fileText := fun path => (files.lookup path).join, settingsDirectory }
  let run := Program.run surroundings args
  if let some (path, text) := run.saved then
    saveText path text
  IO.print run.output
  IO.eprint run.errors
  return run.exitCode.toUInt32
