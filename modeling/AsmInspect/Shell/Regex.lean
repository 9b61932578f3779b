import AsmInspect.Shell.Pattern

/-!
# Regular expressions

Expressions of the stream editor and of the search for lines, in the basic or the extended form.

## Main definitions

* `Regex`, `Regex.ofText?`: expressions
* `Regex.find?`: the first place at which an expression matches
-/

namespace AsmInspect.Shell

/-- A part of a regular expression. -/
inductive Regex where
  | oneOf (set : CharSet)
  | start
  | finish
  /-- One of several sequences, remembered under a number. -/
  | group (number : Nat) (alternatives : List (List Regex))
  | repeated (item : Regex) (least : Nat) (most : Option Nat)
  /-- The text that a group matched. -/
  | again (number : Nat)
  deriving Inhabited

namespace Regex

/-- The texts that groups matched, by number. -/
abbrev Groups := List (Nat × Text)

/-- What a match leaves of a text, and what its groups matched. The way to go on after a sequence
is tried for every way in which the sequence matches, longer repetitions first. -/
def run? : (most : Nat) → List Regex → (atStart : Bool) → Groups → Text →
    (Bool → Groups → Text → Option (Groups × Text)) → Option (Groups × Text)
  | 0, _, _, _, _, _ => none
  | _ + 1, [], atStart, groups, text, next => next atStart groups text
  | most + 1, item :: items, atStart, groups, text, next =>
    match item with
    | oneOf set =>
      match text with
      | c :: rest => if set.contains c then run? most items false groups rest next else none
      | [] => none
    | start => if atStart then run? most items atStart groups text next else none
    | finish => if text.isEmpty then run? most items atStart groups text next else none
    | group number alternatives =>
      alternatives.findSome? fun alternative =>
        run? most alternative atStart groups text fun atStart groups rest =>
          let matched := text.take (text.length - rest.length)
          run? most items atStart ((number, matched) :: groups) rest next
    | repeated item least limit =>
      let more :=
        if limit = some 0 then none
        else run? most [item] atStart groups text fun atStart groups rest =>
          if rest.length = text.length then none
          else run? most (repeated item (least - 1) (limit.map (· - 1)) :: items) atStart groups
            rest next
      match more with
      | some found => some found
      | none => if least = 0 then run? most items atStart groups text next else none
    | again number => do
      let matched := ((groups.find? (·.1 == number)).map (·.2)).getD []
      let rest ← Text.after? matched text
      run? most items (atStart && matched.isEmpty) groups rest next

/-- The first place at which an expression matches: the text before it, the match, what its groups
matched, and the text after it. -/
def find? (regex : List (List Regex)) (atStart : Bool) (text : Text) :
    Option (Text × Text × Groups × Text) :=
  let most := 16 * (text.length + 64)
  (List.range (text.length + 1)).findSome? fun n => do
    let here := text.drop n
    let (groups, rest) ← run? most [.group 0 regex] (atStart && n == 0) [] here
      fun _ groups rest => some (groups, rest)
    return (text.take n, here.take (here.length - rest.length), groups, rest)

/-- The characters that mean something special without a backslash, or with one. -/
def isSpecial (extended escaped : Bool) (c : Char) : Bool :=
  if c = '*' || c = '.' || c = '[' || c = '^' || c = '$' then !escaped
  else "(){}+?|".toList.contains c && (extended != escaped)

/-- The set of one character; in both cases if case does not count. -/
def single (ignoreCase : Bool) (c : Char) : Regex :=
  .oneOf { ranges := if ignoreCase then [(c.toLower, c.toLower), (c.toUpper, c.toUpper)] else [(c, c)] }

/-- The bounds in braces, and what follows them. -/
def bounds? (text : Text) : Option (Nat × Option Nat × Text) := do
  let (inner, rest) ← Text.cutAt? '\x7d' text
  let inner := if inner.getLast? == some '\\' then inner.dropLast else inner
  match Text.splitAt ',' inner with
  | [n] =>
    let n ← Text.unsigned? 255 n
    return (n, some n, rest)
  | [least, []] => return (← Text.unsigned? 255 least, none, rest)
  | [least, most] => return (← Text.unsigned? 255 least, some (← Text.unsigned? 255 most), rest)
  | _ => none

/-- An expression that is being read: the alternatives that are complete and the parts of the last
one, both in reverse order. -/
structure Draft where
  done : List (List Regex) := []
  parts : List Regex := []

/-- The alternatives of an expression. -/
def Draft.alternatives (draft : Draft) : List (List Regex) :=
  (draft.parts.reverse :: draft.done).reverse

/-- The last part repeated. -/
def Draft.repeatLast? (draft : Draft) (least : Nat) (most : Option Nat) : Option Draft :=
  match draft.parts with
  | part :: rest => some { draft with parts := .repeated part least most :: rest }
  | [] => none

/-- The draft with one more part. -/
def Draft.add (draft : Draft) (part : Regex) : Draft := { draft with parts := part :: draft.parts }

/-- The alternatives up to a closing bracket or the end, the number of groups, and what follows. -/
def read? (extended ignoreCase : Bool) : (most : Nat) → (depth : Nat) → (groups : Nat) → Draft →
    Text → Option (List (List Regex) × Nat × Text)
  | 0, _, _, _, _ => none
  | _ + 1, depth, groups, draft, [] =>
    if depth = 0 then some (draft.alternatives, groups, []) else none
  | most + 1, depth, groups, draft, c :: rest =>
    let (escaped, d, rest) : Bool × Char × Text :=
      match c, rest with
      | '\\', d :: rest => (true, d, rest)
      | _, _ => (false, c, rest)
    let next (draft : Draft) (rest : Text) := read? extended ignoreCase most depth groups draft rest
    if !isSpecial extended escaped d then
      if escaped && d.isDigit then next (draft.add (.again (d.toNat - '0'.toNat))) rest
      else if escaped && d = 'n' then next (draft.add (single false '\n')) rest
      else if escaped && d = 't' then next (draft.add (single false '\t')) rest
      else next (draft.add (single ignoreCase d)) rest
    else if d = '.' then next (draft.add (.oneOf { negated := true })) rest
    else if d = '[' then
      match CharSet.ofBrackets? rest with
      | some (set, rest) => next (draft.add (.oneOf set)) rest
      | none => none
    else if d = '^' then
      if extended || draft.parts.isEmpty then next (draft.add .start) rest
      else next (draft.add (single false '^')) rest
    else if d = '$' then
      if extended || rest.isEmpty || ['\\', ')'].isPrefixOf rest || ['\\', '|'].isPrefixOf rest then
        next (draft.add .finish) rest
      else next (draft.add (single false '$')) rest
    else if d = '*' then
      match draft.repeatLast? 0 none with
      | some draft => next draft rest
      | none => next (draft.add (single false '*')) rest
    else if d = '+' then do next (← draft.repeatLast? 1 none) rest
    else if d = '?' then do next (← draft.repeatLast? 0 (some 1)) rest
    else if d = '\x7b' then do
      let (least, most, rest) ← bounds? rest
      next (← draft.repeatLast? least most) rest
    else if d = '|' then next { done := draft.parts.reverse :: draft.done } rest
    else if d = '(' then do
      let number := groups + 1
      let (inner, groups, rest) ← read? extended ignoreCase most (depth + 1) number {} rest
      read? extended ignoreCase most depth groups (draft.add (.group number inner)) rest
    else if d = ')' && depth != 0 then some (draft.alternatives, groups, rest)
    else next (draft.add (single false d)) rest

/-- The alternatives of an expression. -/
def ofText? (extended ignoreCase : Bool) (text : Text) : Option (List (List Regex)) := do
  let (alternatives, _, rest) ← read? extended ignoreCase (text.length + 1) 0 0 {} text
  if rest.isEmpty then return alternatives else none

end Regex

end AsmInspect.Shell
