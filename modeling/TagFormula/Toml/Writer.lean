import TagFormula.Toml.Token

/-!
# TOML: writing strings

A string can be written in five forms. `StringForm.of` takes the first that shows the text as it is,
in the order plain, literal, and the same two over several lines, and falls back on escapes.
-/

namespace TagFormula.Toml

inductive StringForm where
  /-- Double quotes, with escapes. -/
  | basic
  /-- Single quotes, without escapes. -/
  | literal
  /-- Three double quotes, with escapes. -/
  | multilineBasic
  /-- Three single quotes, without escapes. -/
  | multilineLiteral
  deriving DecidableEq, Repr

/-- A control character that no form shows as it is; tab and line feed are none. -/
def needsEscape (c : Char) : Bool :=
  (c.toNat ≤ 0x1F && c ≠ '\t' && c ≠ '\n') || c.toNat = 0x7F

/-- The length of the longest run of `quote` in a text that follows `run` of them. -/
def longestRun (quote : Char) (run : Nat) : List Char → Nat
  | [] => run
  | c :: rest =>
    if c = quote then longestRun quote (run + 1) rest else max run (longestRun quote 0 rest)

def StringForm.of (text : List Char) : StringForm :=
  let newline := '\n' ∈ text
  let backslash := '\\' ∈ text
  let control := text.any needsEscape
  let doubles := longestRun '"' 0 text
  let singles := longestRun '\'' 0 text
  if !control && !backslash && doubles = 0 && !newline then .basic
  else if !control && singles = 0 && !newline then .literal
  else if !control && !backslash && doubles ≤ 2 then .multilineBasic
  else if !control && singles ≤ 2 then .multilineLiteral
  else if newline then .multilineBasic
  else .basic

def hexChar (digit : Nat) : Char :=
  if digit < 10 then Char.ofNat (0x30 + digit) else Char.ofNat (0x41 + digit - 10)

/-- The escape of a character in double quotes, if it has to have one. -/
def escape? (c : Char) : Option (List Char) :=
  match c with
  | '\\' => some ['\\', '\\']
  | '\x08' => some ['\\', 'b']
  | '\t' => some ['\\', 't']
  | '\x0c' => some ['\\', 'f']
  | '\r' => some ['\\', 'r']
  | c =>
    if needsEscape c then some ['\\', 'u', '0', '0', hexChar (c.toNat / 16), hexChar (c.toNat % 16)]
    else none

/-- A text with its escapes. `allowed` quotes in a row stand unescaped, of which `run` have just
been written, and a line feed stands unescaped if `newlines`. -/
def escapeText (allowed : Nat) (newlines : Bool) (run : Nat) : List Char → List Char
  | [] => []
  | c :: rest =>
    if c = '"' then
      if run < allowed then '"' :: escapeText allowed newlines (run + 1) rest
      else '\\' :: '"' :: escapeText allowed newlines 0 rest
    else if c = '\n' && !newlines then '\\' :: 'n' :: escapeText allowed newlines 0 rest
    else (escape? c).getD [c] ++ escapeText allowed newlines 0 rest

/-- A text in a given form. A text of several lines starts on a line of its own. -/
def writeIn (form : StringForm) (text : List Char) : List Char :=
  let start := if '\n' ∈ text then ['\n'] else []
  match form with
  | .basic => ['"'] ++ escapeText 0 false 0 text ++ ['"']
  | .literal => ['\''] ++ text ++ ['\'']
  | .multilineBasic => ['"', '"', '"'] ++ start ++ escapeText 2 true 0 text ++ ['"', '"', '"']
  | .multilineLiteral => ['\'', '\'', '\''] ++ start ++ text ++ ['\'', '\'', '\'']

def writeString (text : String) : String :=
  String.ofList (writeIn (.of text.toList) text.toList)

end TagFormula.Toml
