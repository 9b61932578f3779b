import AsmInspect.Shell.Syntax

/-!
# Formatted output

The two ways in which a script prints: words as they are with escapes replaced, and values put into
a format, which is used again as long as values are left.

## Main definitions

* `Shell.unescape`: a text with its escapes replaced
* `Shell.echoText`: words printed on a line
* `Shell.printfText`: values put into a format
-/

namespace AsmInspect.Shell

/-- The character that a letter after a backslash stands for. -/
def escapeLetter? : Char → Option Char
  | 'a' => some '\x07'
  | 'b' => some '\x08'
  | 'e' => some '\x1b'
  | 'f' => some '\x0c'
  | 'n' => some '\n'
  | 'r' => some '\x0d'
  | 't' => some '\t'
  | 'v' => some '\x0b'
  | '\\' => some '\\'
  | _ => none

/-- Whether a character is a digit to the base of eight. -/
def isOctal (c : Char) : Bool := '0' ≤ c && c ≤ '7'

/-- The number that digits to a base say. -/
def digitsValue (base : Nat) (digits : Text) : Nat :=
  digits.foldl (fun n c =>
    base * n + (if c.isDigit then c.toNat - '0'.toNat else c.toLower.toNat - 'a'.toNat + 10)) 0

/-- The byte that digits to the base of eight say. -/
def octalByte (digits : Text) : Char := Char.ofNat (digitsValue 8 digits % 256)

/-- The escape after a backslash, at most `most` digits long if it is a number: its text, whether
the output ends there, and what follows. If `zero` is on, a number needs a zero in front. -/
def escape (zero : Bool) (text : Text) : Text × Bool × Text :=
  match text with
  | [] => (['\\'], false, [])
  | c :: rest =>
    if c = 'c' then ([], true, rest)
    else if zero && c = '0' then
      let digits := (rest.take 3).takeWhile isOctal
      ([octalByte digits], false, rest.drop digits.length)
    else if !zero && isOctal c then
      let digits := ((c :: rest).take 3).takeWhile isOctal
      ([octalByte digits], false, (c :: rest).drop digits.length)
    else
      match escapeLetter? c with
      | some d => ([d], false, rest)
      | none => (['\\', c], false, rest)

/-- The text with its escapes replaced, and whether the output ends there. -/
def unescape (zero : Bool) : (most : Nat) → Text → Text × Bool
  | 0, _ => ([], false)
  | _ + 1, [] => ([], false)
  | most + 1, c :: rest =>
    if c = '\\' then
      let (text, stop, rest) := escape zero rest
      if stop then (text, true)
      else
        let (others, stop) := unescape zero most rest
        (text ++ others, stop)
    else
      let (others, stop) := unescape zero most rest
      (c :: others, stop)

/-- What a line of words prints. -/
def echoText (words : List Text) : Text :=
  let bare := words.head? == some ['-', 'n']
  let joined := Text.join [' '] (if bare then words.tail else words)
  let (text, stop) := unescape true (joined.length + 1) joined
  if bare || stop then text else text ++ ['\n']

/-- How a value is laid out. -/
structure Layout where
  left : Bool := false
  zeros : Bool := false
  plus : Bool := false
  space : Bool := false
  alternate : Bool := false
  width : Nat := 0
  precision : Option Nat := none

/-- A text with its width. -/
def Layout.pad (layout : Layout) (text : Text) : Text :=
  let fill := List.replicate (layout.width - text.length) ' '
  if layout.left then text ++ fill else fill ++ text

/-- A number with its sign, its digits and its width. -/
def Layout.number (layout : Layout) (sign digits : Text) : Text :=
  let digits := List.replicate (layout.precision.getD 0 - digits.length) '0' ++ digits
  if layout.zeros && !layout.left && layout.precision.isNone then
    sign ++ List.replicate (layout.width - sign.length - digits.length) '0' ++ digits
  else layout.pad (sign ++ digits)

/-- The flags at the start of a text, and what follows them. -/
def Layout.flags (layout : Layout) : Text → Layout × Text
  | '-' :: rest => flags { layout with left := true } rest
  | '0' :: rest => flags { layout with zeros := true } rest
  | '+' :: rest => flags { layout with plus := true } rest
  | ' ' :: rest => flags { layout with space := true } rest
  | '#' :: rest => flags { layout with alternate := true } rest
  | rest => (layout, rest)

/-- The whole number that a value says, and whether it is well formed. -/
def integerValue (text : Text) : Int × Bool :=
  let text := text.dropWhile fun c => c == ' ' || c == '\t' || c == '\n'
  match text with
  | '\'' :: c :: _ => (c.toNat, true)
  | '"' :: c :: _ => (c.toNat, true)
  | _ =>
    let (negative, text) := match text with
      | '-' :: rest => (true, rest)
      | '+' :: rest => (false, rest)
      | _ => (false, text)
    let (base, digits) : Nat × Text := match text with
      | '0' :: 'x' :: rest => (16, rest)
      | '0' :: 'X' :: rest => (16, rest)
      | '0' :: rest => (8, rest)
      | _ => (10, text)
    let isDigit (c : Char) : Bool :=
      if base == 16 then c.isDigit || ('a' ≤ c.toLower && c.toLower ≤ 'f')
      else if base == 8 then isOctal c else c.isDigit
    let good := digits.takeWhile isDigit
    let n : Int := digitsValue base good
    (if negative then -n else n, good.length == digits.length && !text.isEmpty)

/-- A number's digits to a base. -/
def digitsOf (base : Nat) (n : Nat) : Text := Nat.toDigits base n

/-- A value as a conversion prints it, and whether the output ends there. -/
def convert (layout : Layout) (conversion : Char) (value : Text) : Text × Bool :=
  let n := (integerValue value).1
  let sign : Text :=
    if n < 0 then ['-'] else if layout.plus then ['+'] else if layout.space then [' '] else []
  let word : Nat := (if n < 0 then n + 18446744073709551616 else n).toNat
  let cut (text : Text) := match layout.precision with
    | some most => text.take most
    | none => text
  match conversion with
  | 'd' | 'i' => (layout.number sign (digitsOf 10 n.natAbs), false)
  | 'u' => (layout.number [] (digitsOf 10 word), false)
  | 'o' => (layout.number (if layout.alternate then ['0'] else []) (digitsOf 8 word), false)
  | 'x' =>
    (layout.number (if layout.alternate && word != 0 then ['0', 'x'] else []) (digitsOf 16 word), false)
  | 'X' =>
    (layout.number (if layout.alternate && word != 0 then ['0', 'X'] else [])
      ((digitsOf 16 word).map Char.toUpper), false)
  | 'c' => (layout.pad (value.take 1), false)
  | 'b' =>
    let (text, stop) := unescape true (value.length + 1) value
    (layout.pad (cut text), stop)
  | _ => (layout.pad (cut value), false)

/-- A number or a star at the start of a text: the number, the values left and what follows. -/
def measure (values : List Text) (text : Text) : Int × List Text × Text :=
  match text with
  | '*' :: rest => ((integerValue ((values.head?).getD [])).1, values.tail, rest)
  | _ =>
    let digits := text.takeWhile Char.isDigit
    (digitsValue 10 digits, values, text.drop digits.length)

/-- A format filled once: the output, whether it ends there, and the values left. -/
def fillFormat : (most : Nat) → Text → List Text → Text × Bool × List Text
  | 0, _, values => ([], true, values)
  | _ + 1, [], values => ([], false, values)
  | most + 1, c :: rest, values =>
    if c = '\\' then
      let (text, stop, rest) := escape false rest
      if stop then (text, true, values)
      else
        let (others, stop, values) := fillFormat most rest values
        (text ++ others, stop, values)
    else if c = '%' then
      if rest.head? = some '%' then
        let (others, stop, values) := fillFormat most rest.tail values
        ('%' :: others, stop, values)
      else
        let (layout, rest) := ({} : Layout).flags rest
        let (width, values, rest) := measure values rest
        let layout := { layout with
          width := width.natAbs, left := layout.left || width < 0 }
        let (precision, values, rest) : Option Nat × List Text × Text :=
          match rest with
          | '.' :: rest =>
            let (precision, values, rest) := measure values rest
            (if precision < 0 then none else some precision.toNat, values, rest)
          | _ => (none, values, rest)
        match rest with
        | [] => ([], true, values)
        | conversion :: rest =>
          let (text, stop) :=
            convert { layout with precision } conversion ((values.head?).getD [])
          if stop then (text, true, values.tail)
          else
            let (others, stop, values) := fillFormat most rest values.tail
            (text ++ others, stop, values)
    else
      let (others, stop, values) := fillFormat most rest values
      (c :: others, stop, values)

/-- Values put into a format, which is used again as long as it takes up values. -/
def printfFrom (format : Text) : (most : Nat) → List Text → Text
  | 0, _ => []
  | most + 1, values =>
    let (text, stop, rest) := fillFormat (format.length + 1) format values
    if stop || rest.isEmpty || rest.length == values.length then text
    else text ++ printfFrom format most rest

/-- Values put into a format. -/
def printfText (format : Text) (values : List Text) : Text :=
  printfFrom format (values.length + 1) values

end AsmInspect.Shell
