import AsmInspect.Json.Basic
import AsmInspect.Text.Basic

/-!
# Printing JSON

Values are written in one line without blanks, or one item a line with two more spaces for each
open array or object.

## Main definitions

* `Json.Number.print`, `Json.quote`: numbers and strings as they are written
* `Json.print`: a value in one line
* `Json.pretty`: a value over several lines
-/

namespace AsmInspect.Json

/-- The digits of a real number with its decimal point at `point`: positional for points from -4 to
16, and else with an exponent. -/
def Number.printDigits (digits : Text) (point : Int) : Text :=
  let count : Int := digits.length
  let exponent := (toString (point - 1)).toList
  if count ≤ point && point ≤ 16 then
    digits ++ List.replicate (point - count).toNat '0' ++ ['.', '0']
  else if 0 < point && point ≤ 16 then
    digits.take point.toNat ++ ['.'] ++ digits.drop point.toNat
  else if -5 < point && point ≤ 0 then
    ['0', '.'] ++ List.replicate (-point).toNat '0' ++ digits
  else
    match digits with
    | [digit] => digit :: 'e' :: exponent
    | digit :: rest => digit :: '.' :: rest ++ 'e' :: exponent
    | [] => []

/-- A number as it is written. -/
def Number.print : Number → Text
  | .natural n => (toString n).toList
  | .negative n => '-' :: (toString (n.val + 1)).toList
  | .real x =>
    (if x.negative then ['-'] else []) ++
      (if x.magnitude.val == 0 then ['0', '.', '0']
      else
        let (digits, point) := Binary64.shortest x.magnitude
        printDigits digits point)

/-- A character inside a string as it is written. -/
def escape (c : Char) : Text :=
  match c with
  | '"' => ['\\', '"']
  | '\\' => ['\\', '\\']
  | '\x08' => ['\\', 'b']
  | '\x0c' => ['\\', 'f']
  | '\n' => ['\\', 'n']
  | '\r' => ['\\', 'r']
  | '\t' => ['\\', 't']
  | c =>
    if c.toNat < 0x20 then
      ['\\', 'u', '0', '0', if c.toNat < 0x10 then '0' else '1',
        Nat.digitChar (c.toNat % 16)]
    else [c]

/-- A string as it is written. -/
def quote (s : String) : Text := '"' :: s.toList.flatMap escape ++ ['"']

mutual

/-- A value in one line. -/
def printText : Json → Text
  | .null => "null".toList
  | .bool b => (if b then "true" else "false").toList
  | .number n => n.print
  | .string s => quote s
  | .array items => '[' :: Text.join [','] (printItems items) ++ [']']
  | .object fields => '\x7b' :: Text.join [','] (printFields fields) ++ ['\x7d']

/-- The items of an array, each in one line. -/
def printItems : List Json → List Text
  | [] => []
  | item :: rest => printText item :: printItems rest

/-- The fields of an object, each in one line. -/
def printFields : List (String × Json) → List Text
  | [] => []
  | (key, value) :: rest => (quote key ++ ':' :: printText value) :: printFields rest

end

/-- A value in one line. -/
def print (value : Json) : String := String.ofList (printText value)

/-- The start of a line inside `depth` open collections. -/
def indent (depth : Nat) : Text := '\n' :: List.replicate (2 * depth) ' '

mutual

/-- A value over several lines, inside `depth` open collections. -/
def prettyText (depth : Nat) : Json → Text
  | .array [] => ['[', ']']
  | .object [] => ['\x7b', '\x7d']
  | .array items =>
    '[' :: Text.join [','] (prettyItems (depth + 1) items) ++ indent depth ++ [']']
  | .object fields =>
    '\x7b' :: Text.join [','] (prettyFields (depth + 1) fields) ++ indent depth ++ ['\x7d']
  | .null => "null".toList
  | .bool b => (if b then "true" else "false").toList
  | .number n => n.print
  | .string s => quote s

/-- The items of an array, each on lines of its own. -/
def prettyItems (depth : Nat) : List Json → List Text
  | [] => []
  | item :: rest => (indent depth ++ prettyText depth item) :: prettyItems depth rest

/-- The fields of an object, each on lines of its own. -/
def prettyFields (depth : Nat) : List (String × Json) → List Text
  | [] => []
  | (key, value) :: rest =>
    (indent depth ++ quote key ++ [':', ' '] ++ prettyText depth value) :: prettyFields depth rest

end

/-- A value over several lines. -/
def pretty (value : Json) : String := String.ofList (prettyText 0 value)

end AsmInspect.Json
