import AsmInspect.Filters
import AsmInspect.Listing.Encoding
import AsmInspect.Listing.Position

/-!
# Reading a listing

The text of a listing is read line by line: each line gets the source position in force, the
filters say which lines stay and how they look, and the labels that stay are indexed. What one
filter hides does not depend on the others.

## Main definitions

* `Listing.label?`: the label that a line defines
* `Listing.referenced`: the names that a text mentions outside of label lines
* `Listing.Entry`, `Listing.entries`: the lines of a text with the position in force
* `Listing.Entry.hidden`: whether the filters hide a line
* `Listing.ofText`: the listing that the filters make of a text
* `Listing.normalize`: the output of a disassembler with its line ends and trailing blanks removed
-/

namespace AsmInspect.Listing

/-- The characters of a label or symbol name. -/
def isNameChar (c : Char) : Bool := c.isAlphanum || c == '_' || c == '.' || c == '$'

/-- The name of the label that a line defines: the line is the name and a colon, between blanks. -/
def label? (line : Text) : Option Text :=
  match Text.before? [':'] (Text.trim line) with
  | some name => if !name.isEmpty && name.all isNameChar then some name else none
  | none => none

/-- Whether a line, given without blanks around it, holds only a comment. -/
def isCommentOnly : Text → Bool
  | '/' :: '/' :: _ => true
  | '#' :: _ => true
  | ';' :: _ => true
  | _ => false

/-- The names mentioned anywhere in a text but on the lines that define labels. -/
def referenced (text : Text) : List Text :=
  ((Text.lines text).filter fun line => (label? line).isNone).flatMap fun line =>
    (Text.pieces (!isNameChar ·) line).filter (!·.isEmpty)

/-- The line with single spaces between its words, and two before them if it was indented. -/
def squash (line : Text) : Text :=
  let words := Text.join [' '] (Text.words line)
  if (line.head?.any Text.isBlank) && !words.isEmpty then ' ' :: ' ' :: words else words

/-- A line of a text as the filters see it. -/
structure Entry where
  /-- The line as it stands in the text. -/
  raw : Text
  /-- The line that is shown: without encodings if the listing is a binary's. -/
  line : Text
  /-- The source position in force at the line. -/
  position : Option SourcePosition
  deriving DecidableEq

namespace Entry

/-- The line without blanks around it. -/
def core (entry : Entry) : Text := Text.trim entry.line

/-- Whether nothing is left of a line that held only encodings. -/
def isEmptied (entry : Entry) : Bool := entry.core.isEmpty && !(Text.trim entry.raw).isEmpty

/-- Whether the filters hide a line; `used` holds the names that the text mentions. -/
def hidden (filters : Filters) (used : List Text) (entry : Entry) : Bool :=
  (filters.binary && entry.isEmptied) ||
  (filters.commentOnly && isCommentOnly entry.core) ||
  (filters.directives && (label? entry.core).isNone && entry.core.head? == some '.') ||
  (filters.labels && (label? entry.core).any (!used.contains ·)) ||
  (filters.trim && entry.core.isEmpty)

/-- The text shown for a line. -/
def shown (filters : Filters) (entry : Entry) : Text :=
  if filters.trim then squash entry.line else entry.line

/-- The source position of a line: blank lines and label lines have none. -/
def source (entry : Entry) : Option SourcePosition :=
  if (label? entry.core).isSome || entry.core.isEmpty then none else entry.position

/-- The line of the listing that the filters make of an entry. -/
def toLine (filters : Filters) (entry : Entry) : Line :=
  { text := String.ofList (entry.shown filters), source := entry.source }

end Entry

/-- The entries of some lines, read with a tracker that has seen the lines before them. -/
def entriesFrom (binary : Bool) (tracker : Tracker) : List Text → List Entry
  | [] => []
  | raw :: rest =>
    let line := if binary then stripEncodings raw else raw
    let tracker := tracker.next (Text.trim line)
    { raw, line, position := tracker.current } :: entriesFrom binary tracker rest

/-- The entries of a text. -/
def entries (binary : Bool) (text : Text) : List Entry :=
  entriesFrom binary {} (Text.lines text)

/-- The entries of a text that the filters keep. -/
def kept (filters : Filters) (text : Text) : List Entry :=
  let used := if filters.labels then referenced text else []
  (entries filters.binary text).filter (!·.hidden filters used)

/-- The index of the labels that some entries define, the first of them on line `number`. -/
def indexLabels (number : Nat) (index : Dict UInt64) : List Entry → Dict UInt64
  | [] => index
  | entry :: rest =>
    indexLabels (number + 1)
      (match label? entry.core with
        | some name => index.insert (String.ofList name) number.toUInt64
        | none => index) rest

/-- The listing that the filters make of a text. -/
def ofText (text : String) (filters : Filters) : Listing :=
  let kept := kept filters text.toList
  { lines := kept.map (·.toLine filters), labelDefinitions := indexLabels 1 {} kept }

/-- The output of a disassembler without blanks at the ends of lines and without blank lines at
its end; line feeds alone separate the lines. -/
def normalize (text : String) : String :=
  let lines := (Text.lines (Text.replaceAll ['\r', '\n'] ['\n'] text.toList)).map Text.trimEnd
  String.ofList (Text.join ['\n'] (lines.reverse.dropWhile (·.isEmpty)).reverse)

end AsmInspect.Listing
