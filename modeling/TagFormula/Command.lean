import TagFormula.Calculator
import TagFormula.Report
import TagFormula.Settings
import TagFormula.Suggestion

/-!
# Commands

What the program does when it is not asked to edit: calculate tags, evaluate a text, list the
catalog, show the settings. A command gives a result or an error, and a report.
-/

namespace TagFormula

inductive DisplayError where
  /-- No terminal can be driven. -/
  | noTerminal
  /-- The terminal is too small to lay the editor out. -/
  | terminalTooSmall (minWidth minHeight : Nat)
  deriving DecidableEq, Repr

def DisplayError.message : DisplayError → String
  | noTerminal => "Terminal error: there is no terminal to draw on"
  | terminalTooSmall minWidth minHeight =>
    s!"Terminal too small: need at least {minWidth}x{minHeight}"

inductive ProgramError where
  | catalog (e : CatalogError)
  | formula (e : FormulaError Float)
  | display (e : DisplayError)
  | settings (e : SettingsError)

def ProgramError.message : ProgramError → String
  | catalog e => s!"Catalog error: {e.message}"
  | formula e => s!"Invalid expression: {e.message}"
  | display e => s!"UI error: {e.message}"
  | settings e => s!"Configuration error: {e.message}"

namespace Command

/-- What a command gives: its result, or why there is none, and what it reports. -/
structure Outcome (α : Type) where
  result : Except ProgramError α
  report : Report := []

/-- A text in double quotes as JSON has it, for a text without quotes, backslashes and controls. -/
def jsonString (text : String) : String :=
  "\"" ++ text ++ "\""

/-- An evaluation as a JSON object, a field on a line. A formula's text has only digits, points,
operand symbols and spaces, so nothing in it has to be escaped. -/
def jsonObject (e : Evaluation) : String :=
  let text := jsonString e.text
  let total := NumberFormat.json.write e.total
  "\x7b\n  \"expression_text\": " ++ text ++ ",\n  \"total\": " ++ total ++ "\n\x7d"

/-- The tags that words name, blanks around a word aside; the first word that names none counts. -/
def resolveAll (catalog : Catalog) : List String → Except CatalogError (List Tag)
  | [] => .ok []
  | word :: rest =>
    match catalog.resolve (String.ofList (Text.trim word.toList)) with
    | .error e => .error e
    | .ok tag => (resolveAll catalog rest).map (tag :: ·)

def calculate (catalog : Catalog) (words : List String) (json : Bool) : Outcome Evaluation :=
  match resolveAll catalog words with
  | .error e => { result := .error (.catalog e) }
  | .ok tags =>
    match (Calculator.calculate {} tags).2 with
    | .error e => { result := .error (.formula e) }
    | .ok e =>
      { result := .ok e
        report := [⟨.normal, if json then jsonObject e else e.summary⟩] }

def evaluate (text : String) : Outcome Float :=
  match TagFormula.evaluate text with
  | .error e => { result := .error (.formula e) }
  | .ok total =>
    { result := .ok total
      report := [⟨.normal, NumberFormat.plain.write total⟩] }

def entryLine (tag : Tag) : Message :=
  ⟨.normal, s!"{tag.key} = {tag.value}"⟩

/-- List the entries that match a text, and behind them the others if they are asked for. -/
def list (catalog : Catalog) (query : String) (ranked : Bool) : Report :=
  let shown := Suggestion.shown catalog.entries query
  let listed : Report :=
    if shown.isEmpty then [⟨.info, s!"No suggestions match '{query}'"⟩]
    else
      ⟨.info, s!"{shown.length} of {catalog.entries.length} suggestion(s) match:"⟩ ::
        shown.map entryLine
  let others := (Suggestion.rank catalog.entries query).drop shown.length
  if ranked && !others.isEmpty then
    listed ++ ⟨.info, "Not matching:"⟩ :: others.map entryLine
  else listed

/-- Name the settings file, and say so if there is none. -/
def showPath (path : String) (fileExists : Bool) : Report :=
  ⟨.normal, path⟩ ::
    (if fileExists then [] else [⟨.warning, "File does not exist; built-in defaults are in use"⟩])

/-- Show the settings as they are written, without the line end. -/
def showSettings (settings : Settings) (path : String) : Outcome Unit :=
  let header : Message := ⟨.info, s!"# {path}"⟩
  match settings.write? with
  | none => { result := .error (.settings .unwritable), report := [header] }
  | some text =>
    { result := .ok ()
      report := [header, ⟨.normal, String.ofList (Text.trimRight text.toList)⟩] }

end Command

end TagFormula
