import AsmInspect.Shell.Format
import AsmInspect.Shell.StreamEditor
import AsmInspect.Shell.Utility.Basic

/-!
# Programs that change texts

Programs that print what they make of a text: parts of it, or its lines in another form or order.

## Main definitions

* `Utility.cat`, `Utility.head`, `Utility.tail`, `Utility.cut`: parts of texts
* `Utility.tr`, `Utility.sed`, `Utility.rev`: characters and lines replaced
* `Utility.grep`, `Utility.uniq`, `Utility.sort`, `Utility.tac`: lines chosen and put in order
* `Utility.wc`, `Utility.nl`: lines counted
-/

namespace AsmInspect.Shell.Utility

/-- Prints files one after the other. -/
def cat : Utility := fun args process =>
  let (_, paths) := parseOptions "" args
  let (process, text) := process.wholeText "cat" paths
  process.print text

/-- The arguments of `head` and `tail` with numbers alone as numbers of lines. -/
def countArguments (args : List Text) : List Text :=
  match args with
  | ('-' :: c :: word) :: rest =>
    if c.isDigit then ['-', 'n'] :: (c :: word) :: rest else args
  | _ => args

/-- The first so many lines, each with its end. -/
def firstLines : (most : Nat) → Text → Text × Text
  | 0, text => ([], text)
  | most + 1, text =>
    let line := text.takeWhile (· != '\n')
    match text.drop line.length with
    | [] => (line, [])
    | _ :: rest =>
      let (others, rest) := firstLines most rest
      (line ++ '\n' :: others, rest)

/-- Prints the beginning of files. -/
def head : Utility := fun args process =>
  let (found, paths) := parseOptions "nc" (countArguments args)
  let cut (text : Text) : Text × Text :=
    match optionValue? found 'c' with
    | some n => (text.take (numberOf n), text.drop (numberOf n))
    | none => firstLines (((optionValue? found 'n').map numberOf).getD 10) text
  if paths == ["/dev/zero".toList] then
    process.print (List.replicate (((optionValue? found 'c').map numberOf).getD 0) '\x00')
  else if paths.isEmpty then
    let (first, rest) := cut process.input
    { process with input := rest }.print first
  else
    let (process, texts) := process.texts "head" paths
    process.print (texts.flatMap fun (_, text) => (cut text).1)

/-- Prints the end of files. -/
def tail : Utility := fun args process =>
  let (found, paths) := parseOptions "nc" (countArguments args)
  let (process, texts) := process.texts "tail" paths
  let cut (text : Text) : Text :=
    match optionValue? found 'c' with
    | some ('+' :: n) => text.drop (numberOf n - 1)
    | some n => text.drop (text.length - numberOf n)
    | none =>
      let (lines, closed) := linesOf text
      let kept := match optionValue? found 'n' with
        | some ('+' :: n) => lines.drop (numberOf n - 1)
        | some n => lines.drop (lines.length - numberOf n)
        | none => lines.drop (lines.length - 10)
      unlines closed kept
  process.print (texts.flatMap fun (_, text) => cut text)

/-- The characters that a list of characters, ranges and classes names. -/
def characters : (most : Nat) → Text → Text
  | 0, _ => []
  | most + 1, text =>
    match CharSet.className? text with
    | some (ranges, rest) =>
      (ranges.flatMap fun (low, high) =>
        (List.range (high.toNat + 1 - low.toNat)).map fun n => Char.ofNat (low.toNat + n)) ++
        characters most rest
    | none =>
      let (c, rest) : Text × Text := match text with
        | '\\' :: rest =>
          let (text, _, rest) := escape false rest
          (if text.head? == some '\\' && text.length == 2 then text.tail else text, rest)
        | c :: rest => ([c], rest)
        | [] => ([], [])
      match c, rest with
      | [], _ => []
      | low :: _, '-' :: high :: rest =>
        (List.range (high.toNat + 1 - low.toNat)).map (fun n => Char.ofNat (low.toNat + n)) ++
          characters most rest
      | _, _ => c ++ characters most rest

/-- The text in which a character of a set that comes several times in a row comes once. -/
def squeeze (set : Text) : Text → Text
  | c :: d :: rest => if c = d && set.contains c then squeeze set (d :: rest) else c :: squeeze set (d :: rest)
  | text => text

/-- Replaces or deletes characters. -/
def tr : Utility := fun args process =>
  let (found, sets) := parseOptions "" args
  let set (n : Nat) : Text :=
    let text := (sets[n]?).getD []
    characters (text.length + 1) text
  let (process, text) := process.drain
  let old := set 0
  let new := set 1
  let complement := hasOption found 'c' || hasOption found 'C'
  let inOld (c : Char) : Bool := old.contains c != complement
  let changed :=
    if hasOption found 'd' then text.filter (!inOld ·)
    else if new.isEmpty then text
    else
      let filled := new ++ List.replicate (old.length - new.length) ((new.getLast?).getD ' ')
      text.map fun c =>
        if complement then (if inOld c then (new.getLast?).getD c else c)
        else ((old.zip filled).reverse.find? (·.1 == c)).elim c (·.2)
  let squeezed := if hasOption found 's' then squeeze (if new.isEmpty then old else new) changed
    else changed
  process.print squeezed

/-- Edits lines by a script. -/
def sed : Utility := fun args process =>
  let (found, rest) := parseOptions "e" args
  let scripts := (found.filter (·.1 == 'e')).map (·.2)
  let (script, paths) : Text × List Text :=
    if scripts.isEmpty then ((rest.head?).getD [], rest.tail) else (Text.join ['\n'] scripts, rest)
  match Edit.ofText? (hasOption found 'E' || hasOption found 'r') script with
  | none => process.fail "sed: bad script".toList
  | some edits =>
    let (process, text) := process.wholeText "sed" paths
    process.print (Edit.run (hasOption found 'n') edits text)

/-- Prints the lines that match an expression. -/
def grep : Utility := fun args process =>
  let (found, rest) := parseOptions "e" args
  let (source, paths) : Text × List Text := match optionValue? found 'e' with
    | some source => (source, rest)
    | none => ((rest.head?).getD [], rest.tail)
  let source := if hasOption found 'F' then source.flatMap fun c =>
      if c.isAlphanum then [c] else ['[', c, ']'] else source
  match Regex.ofText? (hasOption found 'E') (hasOption found 'i') source with
  | none => process.failWith 2 "grep: bad expression".toList
  | some regex =>
    let (process, text) := process.wholeText "grep" paths
    let hits := ((linesOf text).1.zipIdx 1).filter fun (line, _) =>
      (Regex.find? regex true line).isSome != hasOption found 'v'
    let numbered := hasOption found 'n'
    let shown :=
      if hasOption found 'q' then []
      else if hasOption found 'c' then digitsOf 10 hits.length ++ ['\n']
      else unlines true (hits.map fun (line, n) =>
        if numbered then digitsOf 10 n ++ ':' :: line else line)
    { process.print shown with status := if hits.isEmpty then 1 else 0 }

/-- Whether a character is blank to programs that count words. -/
def isSpace (c : Char) : Bool := c == ' ' || ('\t' ≤ c && c ≤ '\x0d')

/-- Counts lines, words and bytes. -/
def wc : Utility := fun args process =>
  let (found, paths) := parseOptions "" args
  let (process, texts) := process.texts "wc" paths
  let counts (text : Text) : List Nat :=
    let all := [('l', text.count '\n'),
      ('w', ((Text.pieces isSpace text).filter (!·.isEmpty)).length), ('c', text.length)]
    let wanted := if found.isEmpty then all else all.filter fun (c, _) => hasOption found c
    wanted.map (·.2)
  let one := found.length == 1 || (paths.isEmpty && found.length == 1)
  let line (numbers : List Nat) : Text :=
    if one then Text.join [' '] (numbers.map (digitsOf 10))
    else Text.join [' '] (numbers.map fun n =>
      ({ width := if paths.isEmpty then 7 else 1 } : Layout).pad (digitsOf 10 n))
  process.print (texts.flatMap fun (name, text) =>
    line (counts text) ++ (if paths.isEmpty then [] else ' ' :: name) ++ ['\n'])

/-- Whether a text comes before another one in the order of bytes, or is equal to it. -/
def textLe : Text → Text → Bool
  | [], _ => true
  | _ :: _, [] => false
  | c :: s, d :: t => c.toNat < d.toNat || (c == d && textLe s t)

/-- Sorts lines. -/
def sort : Utility := fun args process =>
  let (found, paths) := parseOptions "" args
  let (process, text) := process.wholeText "sort" paths
  let lines := (linesOf text).1
  let numeric (line : Text) : Int := (integerValue line).1
  let le (s t : Text) : Bool :=
    if hasOption found 'n' then numeric s < numeric t || (numeric s == numeric t && textLe s t)
    else textLe s t
  let sorted := lines.mergeSort le
  let sorted := if hasOption found 'u' then sorted.eraseDups else sorted
  process.print (unlines true (if hasOption found 'r' then sorted.reverse else sorted))

/-- The lines without those that repeat the line before them, each with how often it stands there. -/
def runs : List Text → List (Text × Nat)
  | [] => []
  | line :: rest =>
    match runs rest with
    | (next, n) :: others =>
      if line = next then (line, n + 1) :: others else (line, 1) :: (next, n) :: others
    | [] => [(line, 1)]

/-- Drops lines that repeat the line before them. -/
def uniq : Utility := fun args process =>
  let (found, paths) := parseOptions "" args
  let (process, text) := process.wholeText "uniq" paths
  let kept := (runs (linesOf text).1).filter fun (_, n) =>
    (!hasOption found 'd' || 1 < n) && (!hasOption found 'u' || n = 1)
  process.print (unlines true (kept.map fun (line, n) =>
    if hasOption found 'c' then ({ width := 7 } : Layout).pad (digitsOf 10 n) ++ ' ' :: line
    else line))

/-- Prints lines in reverse order. -/
def tac : Utility := fun args process =>
  let (process, text) := process.wholeText "tac" args
  process.print (unlines (linesOf text).2 (linesOf text).1.reverse)

/-- Prints lines with their numbers; blank lines have none. -/
def nl : Utility := fun args process =>
  let (process, text) := process.wholeText "nl" args
  let (_, numbered) := (linesOf text).1.foldl (fun (n, found) line =>
    if line.isEmpty then (n, List.replicate 7 ' ' :: found)
    else (n + 1, (({ width := 6 } : Layout).pad (digitsOf 10 n) ++ '\t' :: line) :: found))
    (1, ([] : List Text))
  process.print (unlines true numbered.reverse)

/-- Prints the characters of every line in reverse order. -/
def rev : Utility := fun args process =>
  let (process, text) := process.wholeText "rev" args
  let (lines, closed) := linesOf text
  process.print (unlines closed (lines.map List.reverse))

/-- The fields of lines. -/
def cut : Utility := fun args process =>
  let (found, paths) := parseOptions "dfcb" args
  let (process, text) := process.wholeText "cut" paths
  let wanted (list : Text) (n : Nat) : Bool :=
    (Text.splitAt ',' list).any fun range =>
      match Text.splitAt '-' range with
      | [k] => numberOf k == n
      | [low, high] => numberOf low ≤ n && (high.isEmpty || n ≤ numberOf high)
      | _ => false
  let pick (list : Text) (fields : List Text) : List Text :=
    (fields.zipIdx 1).filterMap fun (field, n) => if wanted list n then some field else none
  let delimiter := ((optionValue? found 'd').bind List.head?).getD '\t'
  let line (line : Text) : Text :=
    match optionValue? found 'f', (optionValue? found 'c').or (optionValue? found 'b') with
    | some list, _ =>
      if line.contains delimiter then Text.join [delimiter] (pick list (Text.splitAt delimiter line))
      else line
    | none, some list => (pick list (line.map fun c => [c])).flatten
    | none, none => line
  process.print (unlines true ((linesOf text).1.map line))

end AsmInspect.Shell.Utility
