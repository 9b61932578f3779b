import AsmInspect.Listing.Basic
import AsmInspect.Text.Basic

/-!
# Source positions in a listing

Two kinds of markers tell which source line the following instructions come from: a comment that
names a file and a line, and a directive that names a line of a file declared before. A tracker
follows them from line to line.

## Main definitions

* `Listing.markerComment?`: the position that a marker comment names
* `Listing.Tracker`: the files declared so far and the position in force
* `Listing.Tracker.next`: the tracker after one more line
-/

namespace AsmInspect.Listing

/-- The position named by a comment `//## File "name", line 12`, given without blanks around it. -/
def markerComment? (line : Text) : Option SourcePosition := do
  let named ← Text.after? "//## File \"".toList line
  let (file, rest) ← Text.cutAt? '"' named
  let counted ← Text.after? "line".toList (Text.trim (rest.dropWhile (· == ',')))
  let number ← Text.unsigned? maxWord32 ((Text.trim counted).takeWhile Char.isDigit)
  return { file := some (String.ofList file), line := number.toUInt32 }

/-- The files that a listing has declared and the source position in force. -/
structure Tracker where
  /-- The declared files, the latest first. -/
  files : List (Nat × String) := []
  current : Option SourcePosition := none
  deriving DecidableEq, Inhabited

namespace Tracker

/-- The latest file declared under a number. -/
def file? (tracker : Tracker) (index : Nat) : Option String :=
  (tracker.files.find? (·.1 == index)).map (·.2)

/-- The tracker after a directive, given as the words of its line. Numbers that do not fit in 32
bits make the directive void. -/
def directive (tracker : Tracker) : List Text → Tracker
  | word :: index :: argument :: _ =>
    if word == ".file".toList then
      match Text.unsigned? maxWord32 index with
      | some i =>
        { tracker with
          files := (i, String.ofList (Text.trimBoth (· == '"') argument)) :: tracker.files }
      | none => tracker
    else if word == ".loc".toList then
      match Text.unsigned? maxWord32 index, Text.unsigned? maxWord32 argument with
      | some i, some n =>
        { tracker with current := some { file := tracker.file? i, line := n.toUInt32 } }
      | _, _ => tracker
    else tracker
  | _ => tracker

/-- The tracker after one more line, given without blanks around it. -/
def next (tracker : Tracker) (line : Text) : Tracker :=
  let marked := match markerComment? line with
    | some position => { tracker with current := some position }
    | none => tracker
  marked.directive (Text.words line)

end Tracker

end AsmInspect.Listing
