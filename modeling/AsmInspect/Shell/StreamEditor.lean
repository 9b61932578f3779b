import AsmInspect.Shell.Regex

/-!
# The stream editor

A script of editing commands is run on every line of a text. A command may be limited to a line, to
a range of lines or to lines that match an expression.

## Main definitions

* `Edit`, `Edit.ofText?`: editing commands
* `Edit.run`: a text after a script
-/

namespace AsmInspect.Shell

/-- The lines of a text, and whether the last one ends. -/
def linesOf (text : Text) : List Text × Bool :=
  match (Text.splitAt '\n' text).reverse with
  | [] :: front => (front.reverse, true)
  | lines => (lines.reverse, false)

/-- Lines put together; the last one may be left open. -/
def unlines (closed : Bool) (lines : List Text) : Text :=
  if lines.isEmpty then []
  else Text.join ['\n'] lines ++ if closed then ['\n'] else []

/-- Which lines a command is for. -/
inductive Edit.Address where
  | line (number : Nat)
  | last
  | matching (regex : List (List Regex))

/-- What a command does. -/
inductive Edit.Action where
  | substitute (regex : List (List Regex)) (replacement : Text) (everywhere print : Bool)
      (occurrence : Nat)
  | delete
  | print
  | quit
  /-- Characters put in place of others. -/
  | exchange (old new : Text)
  | nothing

/-- An editing command. -/
structure Edit where
  first : Option Edit.Address := none
  second : Option Edit.Address := none
  /-- Whether the command is for the other lines. -/
  inverted : Bool := false
  action : Edit.Action

namespace Edit

/-- The text up to a delimiter that has no backslash in front, and what follows. A delimiter with a
backslash loses it. -/
def delimited? (delimiter : Char) : Text → Option (Text × Text)
  | [] => none
  | '\\' :: c :: rest => do
    let (inner, rest) ← delimited? delimiter rest
    return (if c = delimiter then c :: inner else '\\' :: c :: inner, rest)
  | c :: rest =>
    if c = delimiter then some ([], rest)
    else do
      let (inner, rest) ← delimited? delimiter rest
      return (c :: inner, rest)

/-- The address at the start of a text, and what follows. -/
def address? (extended : Bool) (text : Text) : Option (Option Address × Text) :=
  match text with
  | '$' :: rest => some (some .last, rest)
  | '/' :: rest => do
    let (source, rest) ← delimited? '/' rest
    return (some (.matching (← Regex.ofText? extended false source)), rest)
  | c :: _ =>
    if c.isDigit then do
      let digits := text.takeWhile Char.isDigit
      let n ← Text.unsigned? maxWord64 digits
      return (some (.line n), text.drop digits.length)
    else some (none, text)
  | [] => some (none, [])

/-- The action at the start of a text, and what follows. -/
def action? (extended : Bool) : Text → Option (Action × Text)
  | 's' :: delimiter :: rest => do
    let (source, rest) ← delimited? delimiter rest
    let (replacement, rest) ← delimited? delimiter rest
    let flags := rest.takeWhile fun c => c == 'g' || c == 'p' || c == 'i' || c == 'I' || c.isDigit
    let regex ← Regex.ofText? extended (flags.contains 'i' || flags.contains 'I') source
    let occurrence := (Text.unsigned? 255 (flags.filter Char.isDigit)).getD 1
    return (.substitute regex replacement (flags.contains 'g') (flags.contains 'p') occurrence,
      rest.drop flags.length)
  | 'y' :: delimiter :: rest => do
    let (old, rest) ← delimited? delimiter rest
    let (new, rest) ← delimited? delimiter rest
    return (.exchange old new, rest)
  | 'd' :: rest => some (.delete, rest)
  | 'p' :: rest => some (.print, rest)
  | 'q' :: rest => some (.quit, rest)
  | _ => none

/-- Whether a character separates commands. -/
def separates (c : Char) : Bool := c == ';' || c == '\n' || c == ' ' || c == '\t'

/-- The commands of a script. -/
def script? (extended : Bool) : (most : Nat) → Text → Option (List Edit)
  | 0, _ => none
  | most + 1, text =>
    match text.dropWhile separates with
    | [] => some []
    | text => do
      let (first, text) ← address? extended text
      let (second, text) ← match text with
        | ',' :: rest => address? extended rest
        | _ => some (none, text)
      let inverted := text.head? == some '!'
      let (action, text) ← action? extended (if inverted then text.tail else text)
      return { first, second, inverted, action } :: (← script? extended most text)

/-- The commands of a script. -/
def ofText? (extended : Bool) (text : Text) : Option (List Edit) :=
  script? extended (text.length + 1) text

/-- A replacement with matches filled in. -/
def fill (matched : Text) (groups : Regex.Groups) : Text → Text
  | [] => []
  | '&' :: rest => matched ++ fill matched groups rest
  | '\\' :: c :: rest =>
    (if c.isDigit then ((groups.find? (·.1 == c.toNat - '0'.toNat)).map (·.2)).getD []
      else if c = 'n' then ['\n'] else if c = 't' then ['\t'] else [c]) ++ fill matched groups rest
  | c :: rest => c :: fill matched groups rest

/-- The line with matches replaced, from a certain occurrence on, and whether there was one. -/
def substitute (regex : List (List Regex)) (replacement : Text) (everywhere : Bool) :
    (most : Nat) → (occurrence : Nat) → (atStart : Bool) → Text → Text × Bool
  | 0, _, _, text => (text, false)
  | most + 1, occurrence, atStart, text =>
    match Regex.find? regex atStart text with
    | none => (text, false)
    | some (front, matched, groups, rest) =>
      let shown := if occurrence ≤ 1 then fill matched groups replacement else matched
      let ends := occurrence ≤ 1 && !everywhere
      if ends then (front ++ shown ++ rest, true)
      else if matched.isEmpty then
        match rest with
        | [] => (front ++ shown, occurrence ≤ 1)
        | c :: rest =>
          let (others, found) := substitute regex replacement everywhere most (occurrence - 1) false rest
          (front ++ shown ++ c :: others, found || occurrence ≤ 1)
      else
        let (others, found) := substitute regex replacement everywhere most (occurrence - 1) false rest
        (front ++ shown ++ others, found || occurrence ≤ 1)

/-- Whether an address is a line's. -/
def Address.fits (number : Nat) (isLast : Bool) (line : Text) : Address → Bool
  | .line n => n == number
  | .last => isLast
  | .matching regex => (Regex.find? regex true line).isSome

/-- Whether a command is for a line, and whether its range goes on after the line. -/
def applies (edit : Edit) (inRange : Bool) (number : Nat) (isLast : Bool) (line : Text) :
    Bool × Bool :=
  match edit.first, edit.second with
  | none, _ => (true != edit.inverted, false)
  | some first, none => (first.fits number isLast line != edit.inverted, false)
  | some first, some second =>
    let begins := first.fits number isLast line
    let inside := inRange || begins
    let finishes := match second with
      | .line n => n ≤ number
      | _ => inRange && second.fits number isLast line
    (inside != edit.inverted, inside && !finishes)

/-- What the commands make of a line. -/
structure Outcome where
  line : Text
  printed : List Text := []
  deleted : Bool := false
  quits : Bool := false
  /-- For each command whether its range goes on. -/
  ranges : List Bool := []

/-- The commands run on a line. -/
def apply (number : Nat) (isLast : Bool) : List Edit → List Bool → Outcome → Outcome
  | [], _, outcome => outcome
  | edit :: edits, ranges, outcome =>
    if outcome.deleted || outcome.quits then
      { outcome with ranges := outcome.ranges ++ ranges }
    else
      let (fits, goesOn) := edit.applies ((ranges.head?).getD false) number isLast outcome.line
      let outcome := { outcome with ranges := outcome.ranges ++ [goesOn] }
      let outcome :=
        if !fits then outcome
        else match edit.action with
          | .substitute regex replacement everywhere print occurrence =>
            let (line, found) := substitute regex replacement everywhere
              (outcome.line.length + 2) occurrence true outcome.line
            { outcome with
              line, printed := outcome.printed ++ if found && print then [line] else [] }
          | .delete => { outcome with deleted := true }
          | .print => { outcome with printed := outcome.printed ++ [outcome.line] }
          | .quit => { outcome with quits := true }
          | .exchange old new =>
            { outcome with
              line := outcome.line.map fun c =>
                ((old.zip new).find? (·.1 == c)).elim c (·.2) }
          | .nothing => outcome
      apply number isLast edits ranges.tail outcome

/-- The lines that a script makes of some lines, and whether the last of them is made of the last
line. -/
def runLines (silent : Bool) (edits : List Edit) (number : Nat) (ranges : List Bool) :
    List Text → List Text × Bool
  | [] => ([], false)
  | line :: rest =>
    let outcome := apply number rest.isEmpty edits ranges { line }
    let shown := outcome.printed ++ if silent || outcome.deleted then [] else [outcome.line]
    if outcome.quits || rest.isEmpty then (shown, rest.isEmpty && !shown.isEmpty)
    else
      let (others, fromLast) := runLines silent edits (number + 1) outcome.ranges rest
      (shown ++ others, fromLast)

/-- A text after a script. If the last line of the text has no end, what is made of it has none. -/
def run (silent : Bool) (edits : List Edit) (text : Text) : Text :=
  let (lines, closed) := linesOf text
  let (made, fromLast) := runLines silent edits 1 (edits.map fun _ => false) lines
  unlines (closed || !fromLast) made

end Edit

end AsmInspect.Shell
