import AsmInspect.Shell.Syntax

/-!
# Patterns

A star matches any text, a question mark any character, and brackets match one of some characters.
Quoted characters match only themselves.

## Main definitions

* `CharSet`, `CharSet.ofBrackets?`: one of some characters
* `Pattern`, `Pattern.ofMarked`: patterns, read off a text in which quoted characters are marked
* `Pattern.matchesText`: whether a pattern matches a text
-/

namespace AsmInspect.Shell

/-- One of some characters, or any other one. -/
structure CharSet where
  negated : Bool := false
  ranges : List (Char × Char) := []
  deriving DecidableEq, Repr, Inhabited

namespace CharSet

/-- Whether a character is in the set. -/
def contains (set : CharSet) (c : Char) : Bool :=
  set.negated != set.ranges.any fun (low, high) => low ≤ c && c ≤ high

/-- The characters of a named class. -/
def named : String → List (Char × Char)
  | "upper" => [('A', 'Z')]
  | "lower" => [('a', 'z')]
  | "digit" => [('0', '9')]
  | "alpha" => [('A', 'Z'), ('a', 'z')]
  | "alnum" => [('A', 'Z'), ('a', 'z'), ('0', '9')]
  | "xdigit" => [('A', 'F'), ('a', 'f'), ('0', '9')]
  | "space" => [(' ', ' '), ('\t', '\x0d')]
  | "blank" => [(' ', ' '), ('\t', '\t')]
  | "punct" => [('!', '/'), (':', '@'), ('[', '\x60'), ('\x7b', '~')]
  | "print" => [(' ', '~')]
  | "graph" => [('!', '~')]
  | "cntrl" => [('\x00', '\x1f'), ('\x7f', '\x7f')]
  | _ => []

/-- The named class at the start of a text, and what follows it. -/
def className? (text : Text) : Option (List (Char × Char) × Text) := do
  let rest ← Text.after? ['[', ':'] text
  let (name, rest) ← Text.cut? [':', ']'] rest
  return (named (String.ofList name), rest)

/-- The ranges up to a closing bracket, and what follows it. A bracket that comes first is one of
the characters. -/
def ranges? : (most : Nat) → (first : Bool) → Text → Option (List (Char × Char) × Text)
  | 0, _, _ => none
  | most + 1, first, text =>
    match className? text with
    | some (ranges, rest) => do
      let (others, rest) ← ranges? most false rest
      return (ranges ++ others, rest)
    | none =>
      match text with
      | [] => none
      | ']' :: rest =>
        if first then do
          let (others, rest) ← ranges? most false rest
          return ((']', ']') :: others, rest)
        else some ([], rest)
      | low :: '-' :: high :: rest =>
        if high = ']' then do
          let (others, rest) ← ranges? most false ('-' :: high :: rest)
          return ((low, low) :: others, rest)
        else do
          let (others, rest) ← ranges? most false rest
          return ((low, high) :: others, rest)
      | c :: rest => do
        let (others, rest) ← ranges? most false rest
        return ((c, c) :: others, rest)

/-- The set that a text after an opening bracket describes, and what follows it. -/
def ofBrackets? (text : Text) : Option (CharSet × Text) := do
  let negated := text.head? == some '!' || text.head? == some '^'
  let (ranges, rest) ← ranges? (text.length + 1) true (if negated then text.tail else text)
  return ({ negated, ranges }, rest)

end CharSet

/-- A part of a pattern. -/
inductive PatternItem where
  | any
  | one
  | oneOf (set : CharSet)
  | char (c : Char)
  deriving DecidableEq, Repr

/-- A pattern. -/
abbrev Pattern := List PatternItem

namespace Pattern

/-- The pattern of a text whose quoted characters are marked. -/
def ofMarkedFrom : (most : Nat) → List (Char × Bool) → Pattern
  | 0, _ => []
  | _ + 1, [] => []
  | most + 1, (c, true) :: rest => .char c :: ofMarkedFrom most rest
  | most + 1, (c, false) :: rest =>
    if c = '*' then .any :: ofMarkedFrom most rest
    else if c = '?' then .one :: ofMarkedFrom most rest
    else if c = '[' then
      match CharSet.ofBrackets? (rest.map (·.1)) with
      | some (set, after) =>
        .oneOf set :: ofMarkedFrom most (rest.drop (rest.length - after.length))
      | none => .char c :: ofMarkedFrom most rest
    else .char c :: ofMarkedFrom most rest

/-- The pattern of a text whose quoted characters are marked. -/
def ofMarked (text : List (Char × Bool)) : Pattern := ofMarkedFrom (text.length + 1) text

/-- Whether a pattern matches a whole text. -/
def matchesText : Pattern → Text → Bool
  | [], text => text.isEmpty
  | .any :: rest, text =>
    (List.range (text.length + 1)).any fun n => matchesText rest (text.drop n)
  | .one :: rest, _ :: text => matchesText rest text
  | .oneOf set :: rest, c :: text => set.contains c && matchesText rest text
  | .char d :: rest, c :: text => c == d && matchesText rest text
  | _, [] => false

/-- Whether a pattern matches only one text. -/
def isPlain (pattern : Pattern) : Bool :=
  pattern.all fun
    | .char _ => true
    | _ => false

/-- The text without the shortest or longest beginning that matches. -/
def dropStart (pattern : Pattern) (longest : Bool) (text : Text) : Text :=
  let lengths := List.range (text.length + 1)
  match (if longest then lengths.reverse else lengths).find? fun n =>
      matchesText pattern (text.take n) with
  | some n => text.drop n
  | none => text

/-- The text without the shortest or longest end that matches. -/
def dropFinish (pattern : Pattern) (longest : Bool) (text : Text) : Text :=
  let lengths := List.range (text.length + 1)
  match (if longest then lengths else lengths.reverse).find? fun n =>
      matchesText pattern (text.drop n) with
  | some n => text.take n
  | none => text

end Pattern

end AsmInspect.Shell
