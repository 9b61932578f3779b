import AsmInspect.Remark.Basic
import AsmInspect.Text.Basic

/-!
# Optimization records

A compiler saves its remarks as a stream of documents, each opened by a line `--- !Kind` and closed
by a line of three dots. Inside stand one `Key: value` a line and, under `Args`, a list whose values
put together are the message. Documents do not depend on each other.

## Main definitions

* `Remark.unquote`, `Remark.splitUnquoted`: quoted values, and separators outside of quotes
* `Remark.Record.documents`: the documents of a record
* `Remark.Record.read`: the remark of one document
* `Remark.ofRecord`: the remarks of a record
-/

namespace AsmInspect.Remark

/-- What stands between two marks of one kind, if the text begins and ends with the mark. -/
def between? (mark : Char) : Text → Option Text
  | c :: rest => if c == mark && rest.getLast? == some mark then some rest.dropLast else none
  | [] => none

/-- The value without blanks around it and without the quotes around that. -/
def unquote (value : Text) : Text :=
  let value := Text.trim value
  ((between? '\'' value).or (between? '"' value)).getD value

/-- Whether a character is a quote. -/
def isQuote (c : Char) : Bool := c == '\'' || c == '"'

/-- The parts of a text between separators that stand outside of quotes; `quote` is the quote that
is open at its start. -/
def splitOutside (separator : Char) (quote : Option Char) : Text → List Text
  | [] => [[]]
  | c :: rest =>
    match quote with
    | some q =>
      (splitOutside separator (if c == q then none else some q) rest).modifyHead (c :: ·)
    | none =>
      if isQuote c then (splitOutside separator (some c) rest).modifyHead (c :: ·)
      else if c == separator then [] :: splitOutside separator none rest
      else (splitOutside separator none rest).modifyHead (c :: ·)

/-- The parts of a text between separators that stand outside of quotes. -/
def splitUnquoted (separator : Char) (text : Text) : List Text :=
  splitOutside separator none text

/-- A number of 32 bits between blanks. -/
def word32? (value : Text) : Option UInt32 :=
  (Text.unsigned? maxWord32 (Text.trim value)).map Nat.toUInt32

/-- The place after one more field of its description. -/
def DebugLoc.withField (place : DebugLoc) (field : Text) : Option DebugLoc := do
  let (key, value) ← Text.cutAt? ':' field
  let key := Text.trim key
  if key == "File".toList then return { place with file := String.ofList (unquote value) }
  else if key == "Line".toList then return { place with line := ← word32? value }
  else if key == "Column".toList then return { place with column := ← word32? value }
  else return place

/-- The place described as `{ File: example.cu, Line: 4, Column: 5 }`. -/
def DebugLoc.ofText? (value : Text) : Option DebugLoc := do
  let inside ← Text.before? ['}'] (← Text.after? ['{'] (Text.trim value))
  (splitUnquoted ',' inside).foldlM DebugLoc.withField {}

namespace Record

/-- What opens a document, before its kind. -/
def documentOpen : Text := "--- !".toList

/-- The kind that a document names. -/
def kindOf (tag : Text) : Kind :=
  let tag := Text.trim tag
  if tag == "Passed".toList then .passed
  else if tag == "Missed".toList then .missed
  else if tag == "Analysis".toList then .analysis
  else .other

/-- The lines of a record cut into what stands before its first document and, for each document,
its tag and its lines. -/
def cutDocuments (lines : List Text) : List Text × List (Text × List Text) :=
  lines.foldr (fun line (pending, documents) =>
    match Text.after? documentOpen line with
    | some tag => ([], (tag, pending) :: documents)
    | none => (line :: pending, documents)) ([], [])

/-- The documents of a record, each with its tag and its lines. -/
def documents (lines : List Text) : List (Text × List Text) := (cutDocuments lines).2

/-- A remark as far as it has been read. -/
structure Draft where
  remark : Remark
  /-- Whether the lines of an argument list are being read. -/
  inArgs : Bool := false
  deriving DecidableEq

/-- The remark with a field set; a key that is none of the fields changes nothing. -/
def Draft.withField (draft : Draft) (line : Text) : Draft :=
  match Text.cutAt? ':' line with
  | none => draft
  | some (key, value) =>
    let remark := draft.remark
    if key == "Pass".toList then
      { draft with remark := { remark with pass := String.ofList (unquote value) } }
    else if key == "Name".toList then
      { draft with remark := { remark with name := String.ofList (unquote value) } }
    else if key == "Function".toList then
      { draft with remark := { remark with function := String.ofList (unquote value) } }
    else if key == "DebugLoc".toList then
      { draft with remark := { remark with debugLoc := DebugLoc.ofText? value } }
    else if key == "Args".toList then { draft with inArgs := true }
    else draft

/-- The message that an item of the argument list adds: the value of its key, unless that is a
place. -/
def argument (item : Text) : String :=
  match Text.cutAt? ':' item with
  | some (key, value) =>
    if Text.trim key == "DebugLoc".toList then "" else String.ofList (unquote value)
  | none => ""

/-- The remark after one more line. In an argument list, items add to the message and other
indented lines are passed over; the first line that is neither ends the list. -/
def Draft.next (draft : Draft) (line : Text) : Draft :=
  if draft.inArgs then
    match Text.after? ['-', ' '] (Text.trimStart line) with
    | some item =>
      { draft with remark := { draft.remark with
          displayString := draft.remark.displayString ++ argument item } }
    | none =>
      if line.head? == some ' ' then draft
      else { draft with inArgs := false }.withField line
  else draft.withField line

/-- Whether a line closes a document. -/
def closes (line : Text) : Bool := Text.trim line == ['.', '.', '.']

/-- The remark of one document, given by its tag and its lines. -/
def read (document : Text × List Text) : Remark :=
  let draft : Draft := { remark := { kind := kindOf document.1 } }
  ((document.2.takeWhile (!closes ·)).foldl Draft.next draft).remark

end Record

/-- The remarks of an optimization record. -/
def ofRecord (text : String) : List Remark :=
  (Record.documents (Text.lines text.toList)).map Record.read

end AsmInspect.Remark
