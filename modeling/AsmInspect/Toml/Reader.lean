import AsmInspect.Toml.Quoted
import AsmInspect.Toml.Scalar

/-!
# Reading TOML

A document is a sequence of lines: headers, definitions of keys, comments and blank lines. Only
strings, arrays and comments inside arrays go over line ends.

## Main definitions

* `Toml.keys?`: a path of keys
* `Toml.value?`: a value of any kind
* `Toml.Document`, `Toml.Document.statement?`: what has been read, and one more line
* `Toml.ofText?`: the table of a document
-/

namespace AsmInspect.Toml

/-- How deep arrays and inline tables may be nested, and how long a path may be, plus one. -/
def nestingLimit : Nat := 80

/-- The text without blanks at its start. -/
def skipBlanks (text : Text) : Text := text.dropWhile isInlineBlank

/-- Whether a character may stand in a key without quotes. -/
def isBareKey (c : Char) : Bool := c.isAlphanum || c == '_' || c == '-'

/-- One key, and what follows it. -/
def key? (text : Text) : Option (String × Text) :=
  match text with
  | c :: _ =>
    if c == '"' || c == '\'' then
      (quotedLine? text).map fun (name, rest) => (String.ofList name, rest)
    else if isBareKey c then
      some (String.ofList (text.takeWhile isBareKey), text.dropWhile isBareKey)
    else none
  | [] => none

/-- Keys between dots with blanks around them, and what follows them; `fuel` bounds their number. -/
def keysFrom? : (fuel : Nat) → Text → Option (List String × Text)
  | 0, _ => none
  | fuel + 1, text => do
    let (key, rest) ← key? (skipBlanks text)
    match skipBlanks rest with
    | '.' :: rest =>
      let (path, rest) ← keysFrom? fuel rest
      return (key :: path, rest)
    | rest => return ([key], rest)

/-- A path of keys, and what follows it. -/
def keys? (text : Text) : Option (List String × Text) := do
  let (path, rest) ← keysFrom? (text.length + 1) text
  if path.length < nestingLimit then return (path, rest) else none

/-- What follows a comment, if the text starts with one. -/
def skipComment? : Text → Option Text
  | '#' :: rest => some (rest.dropWhile isPlain)
  | text => some text

/-- What follows blanks, comments and line ends; `fuel` bounds their number. -/
def skipSpace : (fuel : Nat) → Text → Text
  | 0, text => text
  | fuel + 1, text =>
    match skipBlanks text with
    | '#' :: rest => skipSpace fuel (rest.dropWhile isPlain)
    | rest =>
      match afterLineEnd? rest with
      | some more => skipSpace fuel more
      | none => rest

/-- Whether a character may stand in a word. -/
def isWordChar (c : Char) : Bool :=
  c.isAlphanum || c == '+' || c == '-' || c == '_' || c == '.' || c == ':'

/-- A word, and what follows it. A date and a time may have one space between them. -/
def word (text : Text) : Text × Text :=
  let first := text.takeWhile isWordChar
  let rest := text.dropWhile isWordChar
  match rest with
  | ' ' :: more =>
    let second := more.takeWhile isWordChar
    if afterDate? first == some [] && (second.head?.any Char.isDigit) &&
        second.contains ':' then
      (first ++ ' ' :: second, more.dropWhile isWordChar)
    else (first, rest)
  | _ => (first, rest)

mutual

/-- A value with `room` for nested arrays and tables, and what follows it; `fuel` bounds the number
of steps. -/
def value? (room : Nat) : (fuel : Nat) → Text → Option (Toml × Text)
  | 0, _ => none
  | fuel + 1, text =>
    match text with
    | '[' :: rest =>
      if room ≤ 1 then none
      else (items? (room - 1) fuel rest).map fun (items, rest) => (.array items, rest)
    | '\x7b' :: rest =>
      if room ≤ 1 then none
      else
        match skipBlanks rest with
        | '\x7d' :: rest => some (.inlineTable [], rest)
        | _ => (pairs? (room - 1) [] fuel rest).map fun (fields, rest) => (.inlineTable fields, rest)
    | '"' :: _ => (quoted? text).map fun (s, rest) => (.string (String.ofList s), rest)
    | '\'' :: _ => (quoted? text).map fun (s, rest) => (.string (String.ofList s), rest)
    | _ =>
      let (word, rest) := word text
      (ofWord? word).map (·, rest)

/-- The items of an array with the closing bracket, and what follows it. -/
def items? (room : Nat) : (fuel : Nat) → Text → Option (List Toml × Text)
  | 0, _ => none
  | fuel + 1, text =>
    match skipSpace text.length text with
    | ']' :: rest => some ([], rest)
    | rest => do
      let (item, rest) ← value? room fuel rest
      match skipSpace rest.length rest with
      | ',' :: rest =>
        let (items, rest) ← items? room fuel rest
        return (item :: items, rest)
      | ']' :: rest => return ([item], rest)
      | _ => none

/-- The fields of an inline table with the closing brace, and what follows it. -/
def pairs? (room : Nat) (fields : TableFields) : (fuel : Nat) → Text → Option (TableFields × Text)
  | 0, _ => none
  | fuel + 1, text => do
    let (path, rest) ← keys? text
    match rest with
    | '=' :: rest =>
      let (value, rest) ← value? room fuel (skipBlanks rest)
      let fields ← define? path value fields
      match skipBlanks rest with
      | ',' :: rest => pairs? room fields fuel rest
      | '\x7d' :: rest => return (fields, rest)
      | _ => none
    | _ => none

end

/-- A document as far as it has been read. -/
structure Document where
  fields : TableFields := []
  /-- The path of the latest header. -/
  header : List String := []

/-- A header after its opening brackets, and what follows it. -/
def header? (closing : Text) (text : Text) : Option (List String × Text) := do
  let (path, rest) ← keys? text
  return (path, ← Text.after? closing rest)

/-- The document after a header, a definition or nothing, and what follows that on the line. -/
def Document.statement? (document : Document) (text : Text) : Option (Document × Text) :=
  match text with
  | '[' :: '[' :: rest => do
    let (path, rest) ← header? [']', ']'] rest
    return ({ fields := ← openTables? path document.fields, header := path }, rest)
  | '[' :: rest => do
    let (path, rest) ← header? [']'] rest
    return ({ fields := ← openTable? path document.fields, header := path }, rest)
  | c :: _ =>
    if c == '#' || c == '\n' || c == '\r' then some (document, text)
    else do
      let (path, rest) ← keys? text
      match rest with
      | '=' :: rest =>
        let rest := skipBlanks rest
        let (value, rest) ← value? nestingLimit (2 * rest.length + 2) rest
        return ({ document with
          fields := ← defineIn? document.header path value document.fields }, rest)
      | _ => none
  | [] => some (document, [])

/-- The document after its remaining lines; `fuel` bounds their number. -/
def Document.lines? (document : Document) : (fuel : Nat) → Text → Option Document
  | 0, _ => none
  | fuel + 1, text => do
    let (document, rest) ← document.statement? (skipBlanks text)
    match ← skipComment? (skipBlanks rest) with
    | [] => return document
    | rest => document.lines? fuel (← afterLineEnd? rest)

/-- The table of a document; a byte order mark in front of it does not count. -/
def ofText? (text : String) : Option TableFields :=
  let text := match text.toList with
    | '\uFEFF' :: rest => rest
    | text => text
  (Document.lines? {} (text.length + 1) text).map (·.fields)

end AsmInspect.Toml
