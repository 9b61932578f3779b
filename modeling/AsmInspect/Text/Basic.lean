/-!
# Text as lists of characters

Every reader of this library works on the list of characters of a text. This module holds the
operations they share: cutting at separators, trimming blanks, finding and replacing a word.

## Main definitions

* `Text.isBlank`: the characters that count as blank
* `Text.pieces`: the pieces between separators, never an empty list
* `Text.lines`: the lines, without their ends
* `Text.words`: the non-empty pieces between blanks
* `Text.cut?`: what stands before and after the first occurrence of a word
* `Text.replaceAll`: every occurrence of a word replaced, from left to right
-/

namespace AsmInspect

/-- A text, character by character. -/
abbrev Text := List Char

namespace Text

/-- The characters with the Unicode property `White_Space`. -/
def isBlank (c : Char) : Bool :=
  let n := c.toNat
  (0x09 ≤ n && n ≤ 0x0D) || n == 0x20 || n == 0x85 || n == 0xA0 || n == 0x1680 ||
    (0x2000 ≤ n && n ≤ 0x200A) || n == 0x2028 || n == 0x2029 || n == 0x202F || n == 0x205F ||
    n == 0x3000

/-- The text without the characters of the class `p` at its end. -/
def dropEndWhile (p : Char → Bool) (text : Text) : Text :=
  (text.reverse.dropWhile p).reverse

/-- The text without the characters of the class `p` at either end. -/
def trimBoth (p : Char → Bool) (text : Text) : Text :=
  dropEndWhile p (text.dropWhile p)

/-- The text without blanks at its start. -/
def trimStart (text : Text) : Text := text.dropWhile isBlank

/-- The text without blanks at its end. -/
def trimEnd (text : Text) : Text := dropEndWhile isBlank text

/-- The text without blanks at either end. -/
def trim (text : Text) : Text := trimEnd (trimStart text)

/-- The pieces of a text between the characters of the class `p`: one more than there are such
characters. -/
def pieces (p : Char → Bool) (text : Text) : List Text :=
  text.foldr (fun c rest => if p c then [] :: rest else rest.modifyHead (c :: ·)) [[]]

@[simp] theorem pieces_nil (p : Char → Bool) : pieces p [] = [[]] := rfl

theorem pieces_cons (p : Char → Bool) (c : Char) (text : Text) :
    pieces p (c :: text) =
      if p c then [] :: pieces p text else (pieces p text).modifyHead (c :: ·) := rfl

/-- The pieces of a text between the occurrences of one character. -/
def splitAt (separator : Char) (text : Text) : List Text := pieces (· == separator) text

/-- A line that ended in a line feed, without the carriage return right before it. -/
def dropReturn (line : Text) : Text :=
  match line.getLast? with
  | some '\r' => line.dropLast
  | _ => line

/-- The lines of a text. A line feed ends a line, and so does a carriage return right before it;
what stands after the last line feed is a line only if it is not empty. -/
def lines (text : Text) : List Text :=
  let all := splitAt '\n' text
  all.dropLast.map dropReturn ++ (all.getLast?.filter (!·.isEmpty)).toList

/-- The words of a text: the non-empty pieces between blanks. -/
def words (text : Text) : List Text := (pieces isBlank text).filter (!·.isEmpty)

/-- The pieces put together with a separator between them. -/
def join (separator : Text) : List Text → Text
  | [] => []
  | [piece] => piece
  | piece :: rest => piece ++ separator ++ join separator rest

/-- The text after `start`, if the text begins with it. -/
def after? (start : Text) (text : Text) : Option Text :=
  if start.isPrefixOf text then some (text.drop start.length) else none

/-- The text before `finish`, if the text ends with it. -/
def before? (finish : Text) (text : Text) : Option Text :=
  if finish.isSuffixOf text then some (text.take (text.length - finish.length)) else none

/-- What stands before and after the first occurrence of `word`. -/
def cut? (word : Text) (text : Text) : Option (Text × Text) :=
  go [] text
where
  go (seen : Text) : Text → Option (Text × Text)
    | [] => if word.isEmpty then some (seen.reverse, []) else none
    | c :: rest =>
      if word.isPrefixOf (c :: rest) then some (seen.reverse, (c :: rest).drop word.length)
      else go (c :: seen) rest

/-- What stands before and after the first occurrence of a character. -/
def cutAt? (c : Char) (text : Text) : Option (Text × Text) := cut? [c] text

/-- Every occurrence of `word` replaced by `new`, looked for from left to right; `skip` counts the
characters that an occurrence found before still covers. The empty word occurs nowhere. -/
def replaceFrom (word new : Text) : Nat → Text → Text
  | _, [] => []
  | skip + 1, _ :: rest => replaceFrom word new skip rest
  | 0, c :: rest =>
    if !word.isEmpty && word.isPrefixOf (c :: rest) then
      new ++ replaceFrom word new (word.length - 1) rest
    else c :: replaceFrom word new 0 rest

/-- Every occurrence of `word` replaced by `new`, from left to right. -/
def replaceAll (word new text : Text) : Text := replaceFrom word new 0 text

/-- An unsigned decimal number of at most `bound`: an optional plus sign and at least one digit. -/
def unsigned? (bound : Nat) (text : Text) : Option Nat :=
  let digits := match text with
    | '+' :: rest => rest
    | _ => text
  if digits.isEmpty || !digits.all Char.isDigit then none
  else
    let n := digits.foldl (fun n c => 10 * n + (c.toNat - '0'.toNat)) 0
    if n ≤ bound then some n else none

end Text

/-- The largest number of 32 bits. -/
def maxWord32 : Nat := 4294967295

/-- The largest number of 64 bits. -/
def maxWord64 : Nat := 18446744073709551615

end AsmInspect
