import AsmInspect.Binary64
import AsmInspect.Text.Basic
import AsmInspect.Toml.Basic

/-!
# Numbers, dates and times of TOML

Everything that is written without quotes and brackets is a word, and the whole word says what it
is.

## Main definitions

* `Toml.integer?`: whole numbers of 64 bits
* `Toml.isFloat`: floating-point numbers that are not too large
* `Toml.isMoment`: dates and times
* `Toml.ofWord?`: the value of a word
-/

namespace AsmInspect.Toml

/-- The digits of a number without the underscores between them; an underscore must stand between
two digits. -/
def digits? (isDigit : Char → Bool) (text : Text) : Option Text :=
  let groups := Text.splitAt '_' text
  if groups.all fun group => !group.isEmpty && group.all isDigit then some groups.flatten else none

/-- The value of a digit of any base up to sixteen. -/
def digitValue (c : Char) : Nat :=
  if c.isDigit then c.toNat - '0'.toNat
  else if 'a' ≤ c then c.toNat - 'a'.toNat + 10
  else c.toNat - 'A'.toNat + 10

/-- The value of some digits. -/
def valueOf (base : Nat) (digits : Text) : Nat :=
  digits.foldl (fun n c => base * n + digitValue c) 0

/-- A number of a base other than ten. -/
def based? (base : Nat) (isDigit : Char → Bool) (text : Text) : Option Int := do
  let n := valueOf base (← digits? isDigit text)
  if n < 9223372036854775808 then return n else none

/-- Whether a character is a hexadecimal digit. -/
def isHex (c : Char) : Bool := c.isDigit || ('a' ≤ c && c ≤ 'f') || ('A' ≤ c && c ≤ 'F')

/-- The sign of a number, true for a minus, and what follows it. -/
def signed : Text → Bool × Text
  | '-' :: rest => (true, rest)
  | '+' :: rest => (false, rest)
  | text => (false, text)

/-- The digits of a decimal number: a zero, or digits that do not start with one. -/
def decimal? (text : Text) : Option Text := do
  let digits ← digits? Char.isDigit text
  if digits.head? == some '0' && 1 < digits.length then none else return digits

/-- A whole number of 64 bits. -/
def integer? (text : Text) : Option Int :=
  match text with
  | '0' :: 'x' :: rest => based? 16 isHex rest
  | '0' :: 'o' :: rest => based? 8 (fun c => '0' ≤ c && c ≤ '7') rest
  | '0' :: 'b' :: rest => based? 2 (fun c => c == '0' || c == '1') rest
  | _ => do
    let (negative, rest) := signed text
    let n := valueOf 10 (← decimal? rest)
    if negative then (if n ≤ 9223372036854775808 then return -(n : Int) else none)
    else if n < 9223372036854775808 then return n else none

/-- Whether a decimal number with a fraction and an exponent is not too large. -/
def isFinite (whole fraction exponent : Text) (raise : Bool) : Bool :=
  let digits := valueOf 10 (whole ++ fraction)
  let size := valueOf 10 exponent
  if digits == 0 then true
  else if raise then
    size ≤ 400 + fraction.length &&
      (Binary64.nearest? (digits * Nat.pow 10 size) (Nat.pow 10 fraction.length)).isSome
  else
    (Binary64.nearest? digits (Nat.pow 10 fraction.length)).isSome || whole.length ≤ 300 + size

/-- The part of a text before a mark, and the part after it if the mark is there. -/
def splitFirst (isMark : Char → Bool) (text : Text) : Text × Option Text :=
  match text.dropWhile (!isMark ·) with
  | _ :: rest => (text.takeWhile (!isMark ·), some rest)
  | [] => (text, none)

/-- Whether a word is a floating-point number. -/
def isFloat (text : Text) : Bool :=
  let (_, rest) := signed text
  if rest == "inf".toList || rest == "nan".toList then true
  else
    let (mantissa, exponent) := splitFirst (fun c => c == 'e' || c == 'E') rest
    let (whole, fraction) := splitFirst (· == '.') mantissa
    let checked : Option Bool := do
      let whole ← decimal? whole
      let fraction' ← match fraction with
        | some f => digits? Char.isDigit f
        | none => some []
      let (raise, exponent') ← match exponent with
        | some e =>
          let (negative, size) := signed e
          (digits? Char.isDigit size).map (!negative, ·)
        | none => some (true, [])
      return isFinite whole fraction' exponent' raise
    (fraction.isSome || exponent.isSome) && checked == some true

/-- A number of exactly `count` digits, and what follows it. -/
def fixed? (count : Nat) (text : Text) : Option (Nat × Text) :=
  let digits := text.take count
  if digits.length == count && digits.all Char.isDigit then
    some (valueOf 10 digits, text.drop count)
  else none

/-- What follows a character. -/
def skip? (c : Char) : Text → Option Text
  | d :: rest => if c == d then some rest else none
  | [] => none

/-- The days of a month. -/
def daysOf (year month : Nat) : Nat :=
  if month == 2 then
    if year % 4 == 0 && (year % 100 != 0 || year % 400 == 0) then 29 else 28
  else if month == 4 || month == 6 || month == 9 || month == 11 then 30
  else 31

/-- What follows a date. -/
def afterDate? (text : Text) : Option Text := do
  let (year, rest) ← fixed? 4 text
  let (month, rest) ← fixed? 2 (← skip? '-' rest)
  let (day, rest) ← fixed? 2 (← skip? '-' rest)
  if 1 ≤ month && month ≤ 12 && 1 ≤ day && day ≤ daysOf year month then return rest else none

/-- What follows a time of day. -/
def afterTime? (text : Text) : Option Text := do
  let (hour, rest) ← fixed? 2 text
  let (minute, rest) ← fixed? 2 (← skip? ':' rest)
  let (second, rest) ← fixed? 2 (← skip? ':' rest)
  if 23 < hour || 59 < minute || 60 < second then none
  else
    match rest with
    | '.' :: fraction =>
      if fraction.head?.any Char.isDigit then return fraction.dropWhile Char.isDigit else none
    | _ => return rest

/-- Whether a text is an offset from universal time. -/
def isOffset : Text → Bool
  | ['Z'] => true
  | ['z'] => true
  | sign :: rest =>
    (sign == '+' || sign == '-') &&
      (do
        let (hour, rest) ← fixed? 2 rest
        let (minute, rest) ← fixed? 2 (← skip? ':' rest)
        return hour ≤ 23 && minute ≤ 59 && rest.isEmpty) == some true
  | [] => false

/-- Whether a word is a date, a time, or both. -/
def isMoment (text : Text) : Bool :=
  match afterDate? text with
  | some [] => true
  | some (mark :: rest) =>
    (mark == 'T' || mark == 't' || mark == ' ') &&
      (match afterTime? rest with
        | some rest => rest.isEmpty || isOffset rest
        | none => false)
  | none => afterTime? text == some []

/-- The value of a word. -/
def ofWord? (word : Text) : Option Toml :=
  if word == "true".toList then some (.boolean true)
  else if word == "false".toList then some (.boolean false)
  else
    match integer? word with
    | some i => some (.integer i)
    | none => if isFloat word then some .float else if isMoment word then some .moment else none

end AsmInspect.Toml
