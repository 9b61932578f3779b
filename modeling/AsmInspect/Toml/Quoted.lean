import AsmInspect.Text.Basic

/-!
# Strings of TOML

Strings stand in double quotes, with escapes, or in single quotes, without. Three quotes open a
string over several lines, in which a line end right after the quotes does not count.

## Main definitions

* `Toml.basic?`, `Toml.literal?`: strings on one line, after the opening quote
* `Toml.basicLines?`, `Toml.literalLines?`: strings over several lines, after the opening quotes
* `Toml.quoted?`: a string of any kind
-/

namespace AsmInspect.Toml

/-- The characters that may stand in a string or a comment as they are. -/
def isPlain (c : Char) : Bool := c == '\t' || (0x20 ≤ c.toNat && c.toNat != 0x7F)

/-- The value of some hexadecimal digits. -/
def hexValue? (digits : Text) : Option Nat :=
  digits.foldlM (fun n c =>
    if c.isDigit then some (16 * n + (c.toNat - '0'.toNat))
    else if 'a' ≤ c && c ≤ 'f' then some (16 * n + (c.toNat - 'a'.toNat + 10))
    else if 'A' ≤ c && c ≤ 'F' then some (16 * n + (c.toNat - 'A'.toNat + 10))
    else none) 0

/-- The character of a code point written with `count` digits, and what follows it. -/
def codePoint? (count : Nat) (text : Text) : Option (Char × Text) := do
  let digits := text.take count
  if digits.length == count then
    let n ← hexValue? digits
    if n < 0xD800 || (0xE000 ≤ n && n < 0x110000) then return (Char.ofNat n, text.drop count)
    else none
  else none

/-- The character of an escape, and what follows it. -/
def escape? : Text → Option (Char × Text)
  | 'b' :: rest => some ('\x08', rest)
  | 't' :: rest => some ('\t', rest)
  | 'n' :: rest => some ('\n', rest)
  | 'f' :: rest => some ('\x0c', rest)
  | 'r' :: rest => some ('\r', rest)
  | '"' :: rest => some ('"', rest)
  | '\\' :: rest => some ('\\', rest)
  | 'u' :: rest => codePoint? 4 rest
  | 'U' :: rest => codePoint? 8 rest
  | _ => none

/-- A string in double quotes on one line, and what follows it; `fuel` bounds its length. -/
def basic? (seen : Text) : (fuel : Nat) → Text → Option (Text × Text)
  | 0, _ => none
  | fuel + 1, text =>
    match text with
    | '"' :: rest => some (seen.reverse, rest)
    | '\\' :: rest => do
      let (c, rest) ← escape? rest
      basic? (c :: seen) fuel rest
    | c :: rest => if isPlain c then basic? (c :: seen) fuel rest else none
    | [] => none

/-- A string in single quotes on one line, and what follows it. -/
def literal? (seen : Text) : Text → Option (Text × Text)
  | '\'' :: rest => some (seen.reverse, rest)
  | c :: rest => if isPlain c then literal? (c :: seen) rest else none
  | [] => none

/-- What follows a line end. -/
def afterLineEnd? : Text → Option Text
  | '\n' :: rest => some rest
  | '\r' :: '\n' :: rest => some rest
  | _ => none

/-- Blanks of one line. -/
def isInlineBlank (c : Char) : Bool := c == ' ' || c == '\t'

/-- The text without blanks and line ends at its start; `fuel` bounds its length. -/
def skipLines : (fuel : Nat) → Text → Text
  | 0, text => text
  | fuel + 1, text =>
    match text with
    | c :: rest =>
      if isInlineBlank c then skipLines fuel rest
      else
        match afterLineEnd? text with
        | some rest => skipLines fuel rest
        | none => text
    | [] => []

/-- The end of a string over several lines, which may hold up to two more quotes. -/
def closeLines? (quote : Char) (seen : Text) (text : Text) : Option (Text × Text) :=
  let count := (text.takeWhile (· == quote)).length
  if 3 ≤ count then
    let extra := min (count - 3) 2
    some (seen.reverse ++ List.replicate extra quote, text.drop (3 + extra))
  else none

/-- A string in three double quotes, and what follows it; `fuel` bounds its length. -/
def basicLines? (seen : Text) : (fuel : Nat) → Text → Option (Text × Text)
  | 0, _ => none
  | fuel + 1, text =>
    match text with
    | '"' :: rest =>
      match closeLines? '"' seen text with
      | some closed => some closed
      | none => basicLines? ('"' :: seen) fuel rest
    | '\\' :: rest =>
      match afterLineEnd? (rest.dropWhile isInlineBlank) with
      | some more => basicLines? seen fuel (skipLines more.length more)
      | none => do
        let (c, rest) ← escape? rest
        basicLines? (c :: seen) fuel rest
    | c :: rest =>
      match afterLineEnd? text with
      | some rest => basicLines? ('\n' :: seen) fuel rest
      | none => if isPlain c then basicLines? (c :: seen) fuel rest else none
    | [] => none

/-- A string in three single quotes, and what follows it; `fuel` bounds its length. -/
def literalLines? (seen : Text) : (fuel : Nat) → Text → Option (Text × Text)
  | 0, _ => none
  | fuel + 1, text =>
    match text with
    | '\'' :: rest =>
      match closeLines? '\'' seen text with
      | some closed => some closed
      | none => literalLines? ('\'' :: seen) fuel rest
    | c :: rest =>
      match afterLineEnd? text with
      | some rest => literalLines? ('\n' :: seen) fuel rest
      | none => if isPlain c then literalLines? (c :: seen) fuel rest else none
    | [] => none

/-- A string on one line, and what follows it. -/
def quotedLine? : Text → Option (Text × Text)
  | '"' :: rest => basic? [] (rest.length + 1) rest
  | '\'' :: rest => literal? [] rest
  | _ => none

/-- A string of any kind, and what follows it. -/
def quoted? (text : Text) : Option (Text × Text) :=
  match text with
  | '"' :: '"' :: '"' :: rest =>
    let rest := (afterLineEnd? rest).getD rest
    basicLines? [] (rest.length + 1) rest
  | '\'' :: '\'' :: '\'' :: rest =>
    let rest := (afterLineEnd? rest).getD rest
    literalLines? [] (rest.length + 1) rest
  | _ => quotedLine? text

end AsmInspect.Toml
