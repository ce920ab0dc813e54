import TagFormula.Catalog
import TagFormula.Decimal.Notation
import TagFormula.Toml.Document
import TagFormula.Toml.Writer

/-!
# Settings

What a user can set: how much is written, how long messages stay, where the log goes, and the
catalog of suggestions. Settings are kept as a TOML document; `Settings.read` and `Settings.write?`
are its reader and its writer.

The reader is generous with types: a flag may be a number or a word, a count may be a fraction or a
text, and a text may be a number.
-/

namespace TagFormula

inductive SettingsError where
  /-- There is no such file. -/
  | missing
  /-- The text is no TOML document. -/
  | malformed
  /-- A field has a value that does not fit, or a catalog entry lacks one. -/
  | unfit
  /-- The count of seconds is more than a document can hold. -/
  | unwritable
  deriving DecidableEq, Repr

def SettingsError.message : SettingsError → String
  | missing => "the settings file cannot be read"
  | malformed => "the settings file is not a TOML document"
  | unfit => "a field of the settings file has an unfit value"
  | unwritable => "the settings cannot be written as a TOML document"

structure Settings where
  /-- Leave remarks out. -/
  quiet : Bool := false
  /-- Where the log of the editor goes, if not to the default place. -/
  logFile : Option String := none
  /-- How many seconds a message stays. -/
  messageSeconds : Nat := 4
  /-- Labels and values of the catalog, as yet unchecked. -/
  entries : List (String × String) := Catalog.referenceEntries
  deriving DecidableEq, Repr

namespace Settings

open Toml (Value)

def isYes (word : String) : Bool :=
  word = "true" || word = "on" || word = "yes"

/-- The words for a flag that is not set. -/
def isNo (word : String) : Bool :=
  word = "false" || word = "off" || word = "no"

/-- A value as a flag: a number is set unless it is zero. -/
def toFlag? : Value → Option Bool
  | .boolean value => some value
  | .integer value => some (value ≠ 0)
  | .float value => some (value != 0.0)
  | .string text =>
    let word := Text.lowerCase text
    if isYes word || word = "1" then some true
    else if isNo word || word = "0" then some false
    else none
  | _ => none

def greatestCount : Nat := 0xFFFFFFFFFFFFFFFF

/-- The whole number nearest to a double that is not negative, half-way cases upwards; what lies
outside the range of counts becomes its nearer end, and what is no number becomes zero. -/
def roundCount (x : Float) : Nat :=
  match Double.parts x with
  | .nan => 0
  | .infinite negative => if negative then 0 else greatestCount
  | .finite true _ _ => 0
  | .finite false significand exponent =>
    let (top, bottom) := Double.scaleDown significand 1 (-exponent)
    min ((2 * top + bottom) / (2 * bottom)) greatestCount

def readCount? (text : String) : Option Nat :=
  let digits := match text.toList with
    | '+' :: digits => digits
    | digits => digits
  if digits.isEmpty || !digits.all Char.isDigit || greatestCount < digitsValue digits then none
  else some (digitsValue digits)

def toCount? : Value → Option Nat
  | .integer value => if 0 ≤ value then some value.toNat else none
  | .boolean value => some (if value then 1 else 0)
  | .float value => some (roundCount value)
  | .string text =>
    let word := Text.lowerCase text
    if isYes word then some 1 else if isNo word then some 0 else readCount? text
  | _ => none

def toText? : Value → Option String
  | .string text => some text
  | .time text => some text
  | .boolean value => some (if value then "true" else "false")
  | .integer value => some (toString value)
  | .float value => some (NumberFormat.plain.write value)
  | _ => none

/-- The value of a field. -/
def field? (fields : List (String × Value)) (key : String) : Option Value :=
  (fields.find? (·.1 = key)).map (·.2)

/-- A value as a catalog entry: a table with the two fields, or an array that starts with their
values. -/
def toEntry? : Value → Option (String × String)
  | .table fields => do
    let key ← (field? fields "key").bind toText?
    let value ← (field? fields "value").bind toText?
    some (key, value)
  | .array (key :: value :: _) => do
    let key ← toText? key
    let value ← toText? value
    some (key, value)
  | _ => none

def toEntries? : Value → Option (List (String × String))
  | .array items => items.mapM toEntry?
  | _ => none

/-- A field that may be left out: its default, or what its value stands for. -/
def fieldOr {α : Type} (fields : List (String × Value)) (key : String) (default : α)
    (read? : Value → Option α) : Option α :=
  match field? fields key with
  | none => some default
  | some value => read? value

/-- The settings that the fields of a document give. Fields without a meaning are passed over. -/
def ofFields? (fields : List (String × Value)) : Option Settings := do
  let quiet ← fieldOr fields "quiet" false toFlag?
  let logFile ← fieldOr fields "log_file" none fun value => (toText? value).map some
  let messageSeconds ← fieldOr fields "message_ttl_secs" 4 toCount?
  let entries ← fieldOr fields "catalog" Catalog.referenceEntries toEntries?
  some { quiet, logFile, messageSeconds, entries }

def read (text : String) : Except SettingsError Settings :=
  match Toml.read? text with
  | none => .error .malformed
  | some fields =>
    match ofFields? fields with
    | none => .error .unfit
    | some settings => .ok settings

def writeEntry (entry : String × String) : String :=
  s!"\n[[catalog]]\nkey = {Toml.writeString entry.1}\nvalue = {Toml.writeString entry.2}\n"

/-- Write settings. A count of seconds above the greatest integer of a document has no written
form. -/
def write? (s : Settings) : Option String :=
  if Toml.greatestInteger < s.messageSeconds then none
  else
    let logFile := match s.logFile with
      | none => ""
      | some path => s!"log_file = {Toml.writeString path}\n"
    let entries :=
      if s.entries.isEmpty then "catalog = []\n" else String.join (s.entries.map writeEntry)
    some (s!"quiet = {s.quiet}\n" ++ logFile ++ s!"message_ttl_secs = {s.messageSeconds}\n" ++
      entries)

def catalog (s : Settings) : Except CatalogError Catalog :=
  Catalog.ofEntries s.entries

end Settings

end TagFormula
