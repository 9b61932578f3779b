import AsmInspect.Text.Basic

/-!
# The tokens of JSON

A text is scanned in one pass from left to right. Numbers are kept as they are written, and strings
as their characters and escaped code units, so that a value which is passed over is checked for
its form alone.

## Main definitions

* `Json.Piece`, `Json.Token`: what strings and texts consist of
* `Json.isNumber`: the numbers that JSON can write
* `Json.scan?`: the tokens of a text
* `Json.decodePieces?`: the text that a string stands for
-/

namespace AsmInspect.Json

/-- A character of a string, or a code unit written as an escape of four digits. -/
inductive Piece where
  | char (c : Char)
  | unit (n : Nat)
  deriving DecidableEq, Repr

/-- A token of JSON. -/
inductive Token where
  | openArray
  | closeArray
  | openObject
  | closeObject
  | comma
  | colon
  | null
  | bool (b : Bool)
  | number (literal : Text)
  | string (pieces : List Piece)
  deriving DecidableEq, Repr

/-- What a scanner is in the middle of. -/
inductive Mode where
  | between
  /-- A word of letters, in reverse. -/
  | word (seen : Text)
  /-- A number, in reverse. -/
  | number (seen : Text)
  /-- A string, in reverse. -/
  | string (seen : List Piece)
  /-- A string right after a backslash. -/
  | escape (seen : List Piece)
  /-- A string in an escape of four digits, with the digits read so far and their value. -/
  | unit (seen : List Piece) (count value : Nat)
  deriving DecidableEq, Repr

/-- The blanks between tokens. -/
def isSpace (c : Char) : Bool := c == ' ' || c == '\n' || c == '\t' || c == '\r'

/-- The text after an optional character. -/
def afterOptional (c : Char) : Text → Text
  | d :: rest => if d == c then rest else d :: rest
  | [] => []

/-- The text after at least one digit. -/
def afterDigits? (text : Text) : Option Text :=
  if (text.head?.any Char.isDigit) then some (text.dropWhile Char.isDigit) else none

/-- The text after the whole part of a number: a zero, or digits that do not start with one. -/
def afterWhole? : Text → Option Text
  | '0' :: rest => some rest
  | text => afterDigits? text

/-- The text after the fraction of a number, if there is one. -/
def afterFraction? : Text → Option Text
  | '.' :: rest => afterDigits? rest
  | text => some text

/-- The text after the exponent of a number, if there is one. -/
def afterExponent? : Text → Option Text
  | c :: rest =>
    if c == 'e' || c == 'E' then
      match rest with
      | '+' :: rest => afterDigits? rest
      | '-' :: rest => afterDigits? rest
      | _ => afterDigits? rest
    else some (c :: rest)
  | [] => some []

/-- Whether a text is a number of JSON. -/
def isNumber (text : Text) : Bool :=
  (do afterExponent? (← afterFraction? (← afterWhole? (afterOptional '-' text)))) == some []

/-- The characters that a number can go on with. -/
def continuesNumber (c : Char) : Bool :=
  c.isDigit || c == '.' || c == '-' || c == '+' || c == 'e' || c == 'E'

/-- The token of a word. -/
def wordToken? (word : Text) : Option Token :=
  if word == "null".toList then some .null
  else if word == "true".toList then some (.bool true)
  else if word == "false".toList then some (.bool false)
  else none

/-- The character that a backslash and a letter stand for. -/
def escaped? : Char → Option Char
  | '"' => some '"'
  | '\\' => some '\\'
  | '/' => some '/'
  | 'b' => some '\x08'
  | 'f' => some '\x0c'
  | 'n' => some '\n'
  | 'r' => some '\r'
  | 't' => some '\t'
  | _ => none

/-- The value of a hexadecimal digit. -/
def hexValue? (c : Char) : Option Nat :=
  if c.isDigit then some (c.toNat - '0'.toNat)
  else if 'a' ≤ c && c ≤ 'f' then some (c.toNat - 'a'.toNat + 10)
  else if 'A' ≤ c && c ≤ 'F' then some (c.toNat - 'A'.toNat + 10)
  else none

/-- The scanner between tokens, with the tokens found so far in reverse, meets a character. -/
def startToken? (found : List Token) (c : Char) : Option (List Token × Mode) :=
  if isSpace c then some (found, .between)
  else if c.isDigit || c == '-' then some (found, .number [c])
  else if c.isAlpha then some (found, .word [c])
  else
    match c with
    | '[' => some (.openArray :: found, .between)
    | ']' => some (.closeArray :: found, .between)
    | '\x7b' => some (.openObject :: found, .between)
    | '\x7d' => some (.closeObject :: found, .between)
    | ',' => some (.comma :: found, .between)
    | ':' => some (.colon :: found, .between)
    | '"' => some (found, .string [])
    | _ => none

/-- The tokens found so far, with the token that is being read when it ends here. -/
def endToken? (found : List Token) : Mode → Option (List Token)
  | .between => some found
  | .word seen => (wordToken? seen.reverse).map (· :: found)
  | .number seen => if isNumber seen.reverse then some (.number seen.reverse :: found) else none
  | _ => none

/-- The scanner meets a character. -/
def scanStep? : List Token × Mode → Char → Option (List Token × Mode)
  | (found, .string seen), c =>
    if c == '"' then some (.string seen.reverse :: found, .between)
    else if c == '\\' then some (found, .escape seen)
    else if c.toNat < 0x20 then none
    else some (found, .string (.char c :: seen))
  | (found, .escape seen), c =>
    if c == 'u' then some (found, .unit seen 0 0)
    else (escaped? c).map fun c => (found, .string (.char c :: seen))
  | (found, .unit seen count value), c =>
    (hexValue? c).map fun digit =>
      if count == 3 then (found, .string (.unit (16 * value + digit) :: seen))
      else (found, .unit seen (count + 1) (16 * value + digit))
  | (found, .word seen), c =>
    if c.isAlphanum then some (found, .word (c :: seen))
    else do startToken? (← endToken? found (.word seen)) c
  | (found, .number seen), c =>
    if continuesNumber c then some (found, .number (c :: seen))
    else do startToken? (← endToken? found (.number seen)) c
  | (found, .between), c => startToken? found c

/-- The tokens of a text. -/
def scan? (text : Text) : Option (List Token) := do
  let (found, mode) ← text.foldlM scanStep? ([], .between)
  return (← endToken? found mode).reverse

/-- The text that the pieces of a string stand for. Two code units of a surrogate pair stand for one
character; a surrogate without its partner stands for nothing. -/
def decodePieces? : List Piece → Option Text
  | [] => some []
  | .char c :: rest => (decodePieces? rest).map (c :: ·)
  | .unit n :: rest =>
    if n < 0xD800 || 0xE000 ≤ n then (decodePieces? rest).map (Char.ofNat n :: ·)
    else
      match rest with
      | .unit m :: rest =>
        if n < 0xDC00 && 0xDC00 ≤ m && m < 0xE000 then
          (decodePieces? rest).map
            (Char.ofNat (0x10000 + (n - 0xD800) * 0x400 + (m - 0xDC00)) :: ·)
        else none
      | _ => none

/-- The string that the pieces of a string stand for. -/
def decodeString? (pieces : List Piece) : Option String := (decodePieces? pieces).map String.ofList

end AsmInspect.Json
