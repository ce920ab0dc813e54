/-!
# TOML: tokens

A TOML text as tokens. Strings are already decoded, comments are gone, and everything between the
punctuation is a word, whose meaning depends on where it stands. Blanks are kept, because some tokens
have to touch.

Each reader of a string starts behind the opening quotes and returns the decoded text with the
characters behind the closing quotes.
-/

namespace TagFormula.Toml

inductive Token where
  | blank
  | newline
  | dot
  | equals
  | comma
  | openBracket
  | closeBracket
  | openBrace
  | closeBrace
  /-- A quoted text, and whether it may span lines. -/
  | quoted (text : List Char) (multiline : Bool)
  | word (text : List Char)
  deriving DecidableEq, Repr

def isSpace (c : Char) : Bool :=
  c = ' ' || c = '\t'

/-- A character that may stand in a comment or unescaped in a string: no control but the tab. -/
def isPlain (c : Char) : Bool :=
  c = '\t' || (0x20 ≤ c.toNat && c.toNat ≠ 0x7F)

def escaped? (c : Char) : Option Char :=
  match c with
  | 'b' => some '\x08'
  | 't' => some '\t'
  | 'n' => some '\n'
  | 'f' => some '\x0c'
  | 'r' => some '\r'
  | '"' => some '"'
  | '\\' => some '\\'
  | _ => none

def hexDigit? (c : Char) : Option Nat :=
  let n := c.toNat
  if 0x30 ≤ n && n ≤ 0x39 then some (n - 0x30)
  else if 0x41 ≤ n && n ≤ 0x46 then some (n - 0x41 + 10)
  else if 0x61 ≤ n && n ≤ 0x66 then some (n - 0x61 + 10)
  else none

def codePoint? (digits : List Char) : Option Char := do
  let values ← digits.mapM hexDigit?
  let n := values.foldl (fun n digit => 16 * n + digit) 0
  if n.isValidChar then some (Char.ofNat n) else none

/-- A text continues with a line end. -/
def startsLine : List Char → Bool
  | '\n' :: _ => true
  | '\r' :: '\n' :: _ => true
  | _ => false

def readBasic : List Char → Option (List Char × List Char)
  | [] => none
  | '"' :: rest => some ([], rest)
  | '\\' :: 'u' :: a :: b :: c :: d :: rest => do
    let char ← codePoint? [a, b, c, d]
    let (text, after) ← readBasic rest
    some (char :: text, after)
  | '\\' :: 'U' :: a :: b :: c :: d :: e :: f :: g :: h :: rest => do
    let char ← codePoint? [a, b, c, d, e, f, g, h]
    let (text, after) ← readBasic rest
    some (char :: text, after)
  | '\\' :: letter :: rest => do
    let char ← escaped? letter
    let (text, after) ← readBasic rest
    some (char :: text, after)
  | c :: rest => do
    let (text, after) ← readBasic rest
    if isPlain c && c ≠ '\\' then some (c :: text, after) else none

/-- Read a string in single quotes, in which nothing is escaped. -/
def readLiteral : List Char → Option (List Char × List Char)
  | [] => none
  | '\'' :: rest => some ([], rest)
  | c :: rest => do
    let (text, after) ← readLiteral rest
    if isPlain c then some (c :: text, after) else none

/-- Read a string in three double quotes. One or two quotes may stand right before the closing ones.
A backslash at the end of a line drops everything up to the next character that is no blank;
`dropping` tells that this is going on. -/
def readMultilineBasic (dropping : Bool) : List Char → Option (List Char × List Char)
  | [] => none
  | '"' :: '"' :: '"' :: '"' :: '"' :: rest => some (['"', '"'], rest)
  | '"' :: '"' :: '"' :: '"' :: rest => some (['"'], rest)
  | '"' :: '"' :: '"' :: rest => some ([], rest)
  | '\\' :: 'u' :: a :: b :: c :: d :: rest => do
    let char ← codePoint? [a, b, c, d]
    let (text, after) ← readMultilineBasic false rest
    some (char :: text, after)
  | '\\' :: 'U' :: a :: b :: c :: d :: e :: f :: g :: h :: rest => do
    let char ← codePoint? [a, b, c, d, e, f, g, h]
    let (text, after) ← readMultilineBasic false rest
    some (char :: text, after)
  | '\\' :: letter :: rest =>
    if startsLine ((letter :: rest).dropWhile isSpace) then
      if letter = '\r' then
        match rest with
        | _ :: rest => readMultilineBasic true rest
        | [] => none
      else readMultilineBasic true rest
    else do
      let char ← escaped? letter
      let (text, after) ← readMultilineBasic false rest
      some (char :: text, after)
  | '\r' :: '\n' :: rest =>
    if dropping then readMultilineBasic true rest
    else do
      let (text, after) ← readMultilineBasic false rest
      some ('\n' :: text, after)
  | c :: rest =>
    if dropping && (isSpace c || c = '\n') then readMultilineBasic true rest
    else if (isPlain c || c = '\n') && c ≠ '\\' then do
      let (text, after) ← readMultilineBasic false rest
      some (c :: text, after)
    else none

/-- Read a string in three single quotes. One or two quotes may stand right before the closing
ones. -/
def readMultilineLiteral : List Char → Option (List Char × List Char)
  | [] => none
  | '\'' :: '\'' :: '\'' :: '\'' :: '\'' :: rest => some (['\'', '\''], rest)
  | '\'' :: '\'' :: '\'' :: '\'' :: rest => some (['\''], rest)
  | '\'' :: '\'' :: '\'' :: rest => some ([], rest)
  | '\r' :: '\n' :: rest => do
    let (text, after) ← readMultilineLiteral rest
    some ('\n' :: text, after)
  | c :: rest => do
    let (text, after) ← readMultilineLiteral rest
    if isPlain c || c = '\n' then some (c :: text, after) else none

/-- A line end right behind the opening quotes is no part of the text. -/
def dropFirstLineEnd : List Char → List Char
  | '\n' :: rest => rest
  | '\r' :: '\n' :: rest => rest
  | cs => cs

/-- Read the quoted text at the start of `cs`, if a quote stands there. -/
def readQuoted (cs : List Char) : Option (Token × List Char) :=
  match cs with
  | '"' :: '"' :: '"' :: rest =>
    (readMultilineBasic false (dropFirstLineEnd rest)).map fun (text, after) =>
      (.quoted text true, after)
  | '"' :: rest => (readBasic rest).map fun (text, after) => (.quoted text false, after)
  | '\'' :: '\'' :: '\'' :: rest =>
    (readMultilineLiteral (dropFirstLineEnd rest)).map fun (text, after) =>
      (.quoted text true, after)
  | '\'' :: rest => (readLiteral rest).map fun (text, after) => (.quoted text false, after)
  | _ => none

def punctuation? (c : Char) : Option Token :=
  match c with
  | '.' => some .dot
  | '=' => some .equals
  | ',' => some .comma
  | '[' => some .openBracket
  | ']' => some .closeBracket
  | '{' => some .openBrace
  | '}' => some .closeBrace
  | _ => none

/-- A word goes on with `c`. -/
def continuesWord (c : Char) : Bool :=
  !(isSpace c || c = '\n' || c = '\r' || c = '#' || c = '"' || c = '\'' || (punctuation? c).isSome)

/-- The first token of a text and the characters behind it; a comment counts as a blank. -/
def readToken : List Char → Option (Token × List Char)
  | [] => none
  | '\n' :: rest => some (.newline, rest)
  | '\r' :: '\n' :: rest => some (.newline, rest)
  | c :: rest =>
    if isSpace c then some (.blank, rest)
    else if c = '#' then
      let after := rest.dropWhile isPlain
      if after.isEmpty || startsLine after then some (.blank, after) else none
    else if c = '"' || c = '\'' then readQuoted (c :: rest)
    else
      match punctuation? c with
      | some token => some (token, rest)
      | none =>
        if continuesWord c then
          some (.word (c :: rest.takeWhile continuesWord), rest.dropWhile continuesWord)
        else none

/-- The tokens of a text; a reader that does not get on ends the reading. -/
def tokens? (cs : List Char) : Option (List Token) :=
  match cs with
  | [] => some []
  | c :: more =>
    match readToken (c :: more) with
    | none => none
    | some (token, rest) =>
      if _h : rest.length < (c :: more).length then (tokens? rest).map (token :: ·) else none
termination_by cs.length
decreasing_by exact _h

end TagFormula.Toml
