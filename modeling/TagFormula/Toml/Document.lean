import TagFormula.Toml.Table
import TagFormula.Toml.Token

/-!
# TOML: documents

A document is lines: a header that names a table, or a key with a value. The readers take tokens and
return what they read with the tokens behind it.
-/

namespace TagFormula.Toml

/-- Fewer than `n` tokens, which are still to be read. -/
abbrev Remaining (n : Nat) :=
  { tokens : List Token // tokens.length < n }

def skipBlanks (tokens : List Token) : List Token :=
  tokens.dropWhile (· = .blank)

/-- Read past blanks and line ends. -/
def skipLines (tokens : List Token) : List Token :=
  tokens.dropWhile fun token => token = .blank || token = .newline

/-- The reader does not go back when it skips. -/
theorem length_skipBlanks_le (tokens : List Token) :
    (skipBlanks tokens).length ≤ tokens.length :=
  (List.dropWhile_sublist _).length_le

theorem length_skipLines_le (tokens : List Token) :
    (skipLines tokens).length ≤ tokens.length :=
  (List.dropWhile_sublist _).length_le

def isKeyChar (c : Char) : Bool :=
  c.isAlphanum || c = '_' || c = '-'

def Token.key? : Token → Option String
  | .word text => if text.all isKeyChar then some (String.ofList text) else none
  | .quoted text false => some (String.ofList text)
  | _ => none

/-- Read keys with dots between them: the last key and the path to it. -/
def readPath? (tokens : List Token) :
    Option (List String × String × Remaining tokens.length) :=
  match tokens with
  | [] => none
  | token :: rest =>
    match token.key? with
    | none => none
    | some key =>
      match h : skipBlanks rest with
      | .dot :: more =>
        match readPath? (skipBlanks more) with
        | none => none
        | some (path, last, ⟨after, ha⟩) =>
          some (key :: path, last, ⟨after, by
            have h1 := length_skipBlanks_le rest
            have h2 := length_skipBlanks_le more
            simp only [h, List.length_cons] at *
            omega⟩)
      | after =>
        some ([], key, ⟨after, by
          have h1 := length_skipBlanks_le rest
          simp only [h, List.length_cons] at *
          omega⟩)
termination_by tokens.length
decreasing_by
  have h1 := length_skipBlanks_le rest
  have h2 := length_skipBlanks_le more
  simp only [h, List.length_cons] at *
  omega

/-- The text of a word or a dot. -/
def Token.wordText? : Token → Option (List Char)
  | .word text => some text
  | .dot => some ['.']
  | _ => none

/-- Words and dots that touch, as one text, and the tokens behind them. -/
def joinWords : List Token → List Char × List Token
  | [] => ([], [])
  | token :: rest =>
    match token.wordText? with
    | some text => (text ++ (joinWords rest).1, (joinWords rest).2)
    | none => ([], token :: rest)

/-- A value without brackets or quotes. A date goes on behind a single blank if a time of day
follows. -/
def readWord? (tokens : List Token) : Option (Value × Remaining tokens.length) :=
  let (text, rest) := joinWords tokens
  let (text, rest) := match readDate? text, rest with
    | some (_, []), .blank :: .word (digit :: word) :: more =>
      if digit.isDigit then
        let (time, after) := joinWords (.word (digit :: word) :: more)
        (text ++ ' ' :: time, after)
      else (text, rest)
    | _, _ => (text, rest)
  if h : rest.length < tokens.length then
    (Value.ofWord? text).map fun value => (value, ⟨rest, h⟩)
  else none

mutual

def readValue? (tokens : List Token) : Option (Value × Remaining tokens.length) :=
  match tokens with
  | .quoted text _ :: rest => some (.string (String.ofList text), ⟨rest, by simp⟩)
  | .openBracket :: rest =>
    match readItems? (skipLines rest) with
    | none => none
    | some (items, ⟨after, h⟩) =>
      some (.array items, ⟨after, by
        have := length_skipLines_le rest
        simp only [List.length_cons]
        omega⟩)
  | .openBrace :: rest =>
    match skipBlanks rest, length_skipBlanks_le rest with
    | .closeBrace :: after, h =>
      some (.table [], ⟨after, by simp only [List.length_cons] at *; omega⟩)
    | inner, h =>
      match readFields? [] inner with
      | none => none
      | some (fields, ⟨after, h⟩) =>
        some (.table (fieldsToValues fields), ⟨after, by simp only [List.length_cons]; omega⟩)
  | tokens => readWord? tokens
termination_by 2 * tokens.length
decreasing_by
  · have := length_skipLines_le rest
    simp only [List.length_cons]
    omega
  · simp only [List.length_cons]
    omega

/-- Read the values of an array up to its closing bracket. -/
def readItems? (tokens : List Token) : Option (List Value × Remaining tokens.length) :=
  match tokens with
  | [] => none
  | .closeBracket :: rest => some ([], ⟨rest, by simp⟩)
  | token :: more =>
    match readValue? (token :: more) with
    | none => none
    | some (item, ⟨rest, hr⟩) =>
      match skipLines rest, length_skipLines_le rest with
      | .closeBracket :: after, h =>
        some ([item], ⟨after, by simp only [List.length_cons] at *; omega⟩)
      | .comma :: rest, h =>
        match readItems? (skipLines rest) with
        | none => none
        | some (items, ⟨after, ha⟩) =>
          some (item :: items, ⟨after, by
            have := length_skipLines_le rest
            simp only [List.length_cons] at *
            omega⟩)
      | _, _ => none
termination_by 2 * tokens.length + 1
decreasing_by
  · simp only [List.length_cons]
    omega
  · have := length_skipLines_le rest
    simp only [List.length_cons] at *
    omega

/-- Read the keys and values of a table in braces up to the closing one. They stand on one line. -/
def readFields? (fields : Fields) (tokens : List Token) :
    Option (Fields × Remaining tokens.length) :=
  match readPath? tokens with
  | some (path, key, ⟨.equals :: rest, hp⟩) =>
    match readValue? (skipBlanks rest) with
    | none => none
    | some (value, ⟨rest', hr⟩) =>
      match fields.addValue? path key value with
      | none => none
      | some fields =>
        match skipBlanks rest', length_skipBlanks_le rest' with
        | .closeBrace :: after, h =>
          some (fields, ⟨after, by
            have := length_skipBlanks_le rest
            simp only [List.length_cons] at *
            omega⟩)
        | .comma :: more, h =>
          match readFields? fields (skipBlanks more) with
          | none => none
          | some (fields, ⟨after, ha⟩) =>
            some (fields, ⟨after, by
              have := length_skipBlanks_le rest
              have := length_skipBlanks_le more
              simp only [List.length_cons] at *
              omega⟩)
        | _, _ => none
  | _ => none
termination_by 2 * tokens.length + 1
decreasing_by
  · have := length_skipBlanks_le rest
    simp only [List.length_cons] at *
    omega
  · have := length_skipBlanks_le rest
    have := length_skipBlanks_le more
    simp only [List.length_cons] at *
    omega

end

inductive Line where
  /-- The header of a table: the path to it and its key. -/
  | table (path : List String) (key : String)
  /-- The header of the next table of an array. -/
  | element (path : List String) (key : String)
  | field (path : List String) (key : String) (value : Value)

/-- Read one line, and the tokens behind it up to the line end. -/
def readLine? (tokens : List Token) : Option (Line × List Token) :=
  match tokens with
  | .openBracket :: .openBracket :: rest =>
    match readPath? (skipBlanks rest) with
    | some (path, key, ⟨.closeBracket :: .closeBracket :: after, _⟩) =>
      some (.element path key, after)
    | _ => none
  | .openBracket :: rest =>
    match readPath? (skipBlanks rest) with
    | some (path, key, ⟨.closeBracket :: after, _⟩) => some (.table path key, after)
    | _ => none
  | tokens =>
    match readPath? tokens with
    | some (path, key, ⟨.equals :: rest, _⟩) =>
      (readValue? (skipBlanks rest)).map fun (value, after) => (.field path key value, after.1)
    | _ => none

/-- The lines of a document. Each one ends with its line. -/
def readLines? (tokens : List Token) : Option (List Line) :=
  match skipLines tokens with
  | [] => some []
  | token :: more =>
    match readLine? (token :: more) with
    | none => none
    | some (line, rest) =>
      match skipBlanks rest with
      | [] => some [line]
      | .newline :: rest =>
        if rest.length < tokens.length then (readLines? rest).map (line :: ·) else none
      | _ => none
termination_by tokens.length

/-- A document that is being built: its fields, and the path of the table that keys belong to. -/
structure Draft where
  fields : Fields := []
  current : List String := []

def Draft.add? (draft : Draft) (line : Line) : Option Draft :=
  match line with
  | .table path key =>
    (draft.fields.addTable? path key).map (⟨·, path ++ [key]⟩)
  | .element path key =>
    (draft.fields.addElement? path key).map (⟨·, path ++ [key]⟩)
  | .field path key value =>
    let change (_ : Origin) (inner : Fields) := inner.addValue? path key value
    (draft.fields.update? false change .header draft.current).map ({ draft with fields := · })

def read? (text : String) : Option (List (String × Value)) := do
  let cs := match text.toList with
    | '\ufeff' :: rest => rest
    | cs => cs
  let tokens ← tokens? cs
  let lines ← readLines? tokens
  let draft ← lines.foldlM Draft.add? {}
  some (fieldsToValues draft.fields)

end TagFormula.Toml
