import AsmInspect.Shell.Syntax

/-!
# Tokens of the shell

A script is split into words and operators. Quotes keep blanks and operators inside a word.

## Main definitions

* `Shell.enclosed?`: a text up to a closing bracket
* `Shell.scanWord?`: a word at the start of a text
* `Shell.Token`, `Shell.scan?`: the tokens of a script
-/

namespace AsmInspect.Shell

/-- Whether a reader is inside quotes, and inside which. -/
inductive Quotes where
  | outside
  | single
  | double
  deriving DecidableEq

/-- The text up to the bracket that closes `depth` open ones and one more, and what follows it.
Brackets in quotes do not count. -/
def enclosed? (opening closing : Char) :
    (depth : Nat) → Quotes → (taken : Text) → Text → Option (Text × Text)
  | _, _, _, [] => none
  | depth, quotes, taken, '\\' :: c :: rest =>
    if quotes = .single then
      if c = '\'' then enclosed? opening closing depth .outside (c :: '\\' :: taken) rest
      else enclosed? opening closing depth .single (c :: '\\' :: taken) rest
    else enclosed? opening closing depth quotes (c :: '\\' :: taken) rest
  | depth, .single, taken, c :: rest =>
    enclosed? opening closing depth (if c = '\'' then .outside else .single) (c :: taken) rest
  | depth, .double, taken, c :: rest =>
    enclosed? opening closing depth (if c = '"' then .outside else .double) (c :: taken) rest
  | depth, .outside, taken, c :: rest =>
    if c = '\'' then enclosed? opening closing depth .single (c :: taken) rest
    else if c = '"' then enclosed? opening closing depth .double (c :: taken) rest
    else if c = opening then enclosed? opening closing (depth + 1) .outside (c :: taken) rest
    else if c = closing then
      match depth with
      | 0 => some (taken.reverse, rest)
      | depth + 1 => enclosed? opening closing depth .outside (c :: taken) rest
    else enclosed? opening closing depth .outside (c :: taken) rest

/-- The modifiers of parameters, longer ones before their beginnings. -/
def modifiers : List Text :=
  [":-", ":=", ":?", ":+", "%%", "##", "-", "=", "?", "+", "%", "#"].map (·.toList)

/-- The parameters that a single character names. -/
def specialParameters : Text := "@*#?$!-0123456789".toList

/-- The name at the start of a text, and what follows it. -/
def nameAt? : Text → Option (Text × Text)
  | [] => none
  | c :: rest =>
    if isNameStart c then some (c :: rest.takeWhile isNameChar, rest.dropWhile isNameChar)
    else if c.isDigit then some (c :: rest.takeWhile Char.isDigit, rest.dropWhile Char.isDigit)
    else if specialParameters.contains c then some ([c], rest)
    else none

/-- The part that stands for a parameter in braces. -/
def braced? (quoted : Bool) (inner : Text) : Option Part :=
  match inner with
  | '#' :: c :: rest =>
    match nameAt? (c :: rest) with
    | some (name, []) => some (.parameter name ['#', '#', '#'] [] quoted)
    | _ => none
  | _ => do
    let (name, rest) ← nameAt? inner
    if rest.isEmpty then return .parameter name [] [] quoted
    let modifier ← modifiers.find? (·.isPrefixOf rest)
    return .parameter name modifier (rest.drop modifier.length) quoted

/-- The part that a dollar sign starts, and what follows it. -/
def dollar? (quoted : Bool) : Text → Option (Part × Text)
  | '(' :: rest => do
    let (inner, rest) ← enclosed? '(' ')' 0 .outside [] rest
    match inner, inner.getLast? with
    | '(' :: expression, some ')' => return (.arithmetic expression.dropLast quoted, rest)
    | _, _ => return (.output inner quoted, rest)
  | '\x7b' :: rest => do
    let (inner, rest) ← enclosed? '\x7b' '\x7d' 0 .outside [] rest
    return (← braced? quoted inner, rest)
  | c :: rest =>
    if isNameStart c then
      some (.parameter (c :: rest.takeWhile isNameChar) [] [] quoted, rest.dropWhile isNameChar)
    else if specialParameters.contains c then some (.parameter [c] [] [] quoted, rest)
    else none
  | [] => none

/-- The text up to a grave accent, with escapes undone, and what follows it. -/
def backquoted? : Text → Option (Text × Text)
  | [] => none
  | '\\' :: c :: rest => do
    let (inner, rest) ← backquoted? rest
    return (if c = '\x60' || c = '$' || c = '\\' then c :: inner else '\\' :: c :: inner, rest)
  | c :: rest =>
    if c = '\x60' then some ([], rest)
    else do
      let (inner, rest) ← backquoted? rest
      return (c :: inner, rest)

/-- The parts, in reverse order, with one more. -/
def push (part : Part) : List Part → List Part
  | [] => [part]
  | last :: rest =>
    match last, part with
    | .literal old p, .literal new q =>
      if p = q then .literal (old ++ new) p :: rest else part :: last :: rest
    | _, _ => part :: last :: rest

/-- The parts, in reverse order, of a text in double quotes, and what follows the closing quote. If
there is no closing quote the text goes on to its end. -/
def scanQuoted? (closing : Option Char) : (most : Nat) → List Part → Text → Option (List Part × Text)
  | 0, _, _ => none
  | _ + 1, parts, [] => if closing.isSome then none else some (parts, [])
  | most + 1, parts, c :: rest =>
    if closing = some c then some (parts, rest)
    else if c = '\\' then
      match rest with
      | '\n' :: rest => scanQuoted? closing most parts rest
      | d :: rest =>
        if d = '$' || d = '\x60' || d = '\\' || closing = some d then
          scanQuoted? closing most (push (.literal [d] true) parts) rest
        else scanQuoted? closing most (push (.literal ['\\', d] true) parts) rest
      | [] => scanQuoted? closing most (push (.literal ['\\'] true) parts) []
    else if c = '$' then
      match dollar? true rest with
      | some (part, rest) => scanQuoted? closing most (part :: parts) rest
      | none => scanQuoted? closing most (push (.literal ['$'] true) parts) rest
    else if c = '\x60' then do
      let (inner, rest) ← backquoted? rest
      scanQuoted? closing most (.output inner true :: parts) rest
    else scanQuoted? closing most (push (.literal [c] true) parts) rest

/-- Whether a character ends a word. -/
def endsWord (c : Char) : Bool := " \t\n;&|<>()".toList.contains c

/-- The word at the start of a text, and what follows it. If `stops` is off the word is the whole
text. -/
def scanWord? (stops : Bool) : (most : Nat) → List Part → Text → Option (Word × Text)
  | 0, _, _ => none
  | _ + 1, parts, [] => some (parts.reverse, [])
  | most + 1, parts, c :: rest =>
    if stops && endsWord c then some (parts.reverse, c :: rest)
    else if c = '\'' then do
      let (inner, rest) ← Text.cutAt? '\'' rest
      scanWord? stops most (push (.literal inner true) parts) rest
    else if c = '"' then do
      let (parts, rest) ← scanQuoted? (some '"') most (push (.literal [] true) parts) rest
      scanWord? stops most parts rest
    else if c = '\\' then
      match rest with
      | '\n' :: rest => scanWord? stops most parts rest
      | d :: rest => scanWord? stops most (push (.literal [d] true) parts) rest
      | [] => scanWord? stops most (push (.literal ['\\'] true) parts) []
    else if c = '$' then
      match dollar? false rest with
      | some (part, rest) => scanWord? stops most (part :: parts) rest
      | none => scanWord? stops most (push (.literal ['$'] false) parts) rest
    else if c = '\x60' then do
      let (inner, rest) ← backquoted? rest
      scanWord? stops most (.output inner false :: parts) rest
    else scanWord? stops most (push (.literal [c] false) parts) rest

/-- A token of a script. -/
inductive Token where
  | word (word : Word)
  /-- An operator, or a line feed. -/
  | operator (text : Text)
  | redirect (fd : Option Nat) (operator : Text)
  /-- A redirection from the text after the line, which is the text of this number. -/
  | here (fd : Option Nat) (number : Nat)
  deriving Inhabited

/-- The end of a text after the line: how its last line reads, whether tabs are dropped, and whether
the text is taken as it is. -/
structure HereEnd where
  line : Text
  dropTabs : Bool
  verbatim : Bool

/-- The lines up to the end of a text after the line, and what follows. -/
def hereLines (stop : HereEnd) : List Text → Text × List Text
  | [] => ([], [])
  | line :: rest =>
    let line := if stop.dropTabs then line.dropWhile (· == '\t') else line
    if line = stop.line then ([], rest)
    else
      let (text, rest) := hereLines stop rest
      (line ++ '\n' :: text, rest)

/-- The texts after a line, and what follows them. -/
def hereTexts? : List HereEnd → Text → Option (List Word × Text)
  | [], text => some ([], text)
  | stop :: stops, text => do
    let (content, rest) := hereLines stop (Text.splitAt '\n' text)
    let word ← if stop.verbatim then some [.literal content true]
      else (scanQuoted? none (content.length + 1) [] content).map (·.1.reverse)
    let (words, rest) ← hereTexts? stops (Text.join ['\n'] rest)
    return (word :: words, rest)

/-- The text that a word says literally. -/
def Word.bare (word : Word) : Text :=
  word.flatMap fun
    | .literal text _ => text
    | _ => []

/-- The operators that are not redirections, longer ones before their beginnings. -/
def operators : List Text := ["&&", "||", ";;", "&", "|", ";", "(", ")"].map (·.toList)

/-- The redirections, longer ones before their beginnings. -/
def redirections : List Text := [">>", ">&", ">|", "<&", "<>", ">", "<"].map (·.toList)

/-- A script that is being split: the tokens found, the latest first, with their lines, the texts
after lines found, and those whose lines have not ended. -/
structure Scan where
  tokens : List (Nat × Token) := []
  texts : List Word := []
  stops : List HereEnd := []
  line : Nat := 1

/-- The scan with one more token. -/
def Scan.add (scan : Scan) (token : Token) : Scan :=
  { scan with tokens := (scan.line, token) :: scan.tokens }

/-- The scan after a redirection of the text after the line. -/
def Scan.addHere (scan : Scan) (fd : Option Nat) (stop : HereEnd) : Scan :=
  { scan.add (.here fd (scan.texts.length + scan.stops.length)) with stops := scan.stops ++ [stop] }

/-- The operator or redirection at the start of a text, and what follows it. -/
def scanOperator? (scan : Scan) (fd : Option Nat) (text : Text) : Option (Scan × Text) :=
  match text with
  | '<' :: '<' :: rest => do
    let dropTabs := rest.head? == some '-'
    let rest := (if dropTabs then rest.tail else rest).dropWhile fun c => c == ' ' || c == '\t'
    let (word, rest) ← scanWord? true (rest.length + 1) [] rest
    return (scan.addHere fd
      { line := word.bare, dropTabs, verbatim := word.any (·.quoted) }, rest)
  | _ =>
    match redirections.find? (·.isPrefixOf text) with
    | some operator => some (scan.add (.redirect fd operator), text.drop operator.length)
    | none => do
      let operator ← operators.find? (·.isPrefixOf text)
      return (scan.add (.operator operator), text.drop operator.length)

/-- The tokens of a script. -/
def scanFrom? : (most : Nat) → Scan → Text → Option Scan
  | 0, _, _ => none
  | _ + 1, scan, [] => some scan
  | most + 1, scan, c :: rest =>
    if c = ' ' || c = '\t' then scanFrom? most scan rest
    else if c = '\\' && rest.head? = some '\n' then
      scanFrom? most { scan with line := scan.line + 1 } rest.tail
    else if c = '#' then scanFrom? most scan (rest.dropWhile (· != '\n'))
    else if c = '\n' then do
      let (texts, after) ← hereTexts? scan.stops rest
      let passed := (rest.take (rest.length - after.length)).count '\n'
      let scan := scan.add (.operator ['\n'])
      scanFrom? most
        { scan with texts := scan.texts ++ texts, stops := [], line := scan.line + 1 + passed } after
    else if endsWord c then do
      let (scan, rest) ← scanOperator? scan none (c :: rest)
      scanFrom? most scan rest
    else
      let digits := (c :: rest).takeWhile Char.isDigit
      let after := (c :: rest).drop digits.length
      if !digits.isEmpty && (after.head? = some '<' || after.head? = some '>') then do
        let fd := (Text.unsigned? 255 digits).getD 0
        let (scan, rest) ← scanOperator? scan (some fd) after
        scanFrom? most scan rest
      else do
        let (word, after) ← scanWord? true (rest.length + 2) [] (c :: rest)
        let passed := ((c :: rest).take (rest.length + 1 - after.length)).count '\n'
        scanFrom? most { scan.add (.word word) with line := scan.line + passed } after

/-- The tokens of a script with their lines, and the texts after lines. -/
def scan? (text : Text) : Option (List (Nat × Token) × List Word) := do
  let scan ← scanFrom? (text.length + 1) {} text
  return (scan.tokens.reverse, scan.texts)

end AsmInspect.Shell
