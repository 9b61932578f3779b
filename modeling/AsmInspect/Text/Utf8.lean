import AsmInspect.Text.Basic

/-!
# UTF-8

Bytes are read as characters, each maximal part that starts a character but does not complete it,
or starts none, being one invalid part.

## Main definitions

* `Utf8.encode`: the bytes of a text
* `Utf8.scan`: the characters and invalid parts of some bytes
* `Utf8.decode?`: the text of some bytes, if they hold no invalid part
* `Utf8.decodeLossy`: the text of some bytes, a replacement character in place of each invalid part
-/

namespace AsmInspect.Utf8

/-- The bytes of a text. -/
def encode (text : Text) : List UInt8 := text.flatMap String.utf8EncodeChar

/-- For the first byte of a longer character: its payload, the range of the byte that may follow it,
and the number of bytes after that one. -/
def lead? (b : UInt8) : Option (Nat × UInt8 × UInt8 × Nat) :=
  if 0xC2 ≤ b && b < 0xE0 then some (b.toNat - 0xC0, 0x80, 0xBF, 0)
  else if b == 0xE0 then some (0, 0xA0, 0xBF, 1)
  else if b == 0xED then some (0xD, 0x80, 0x9F, 1)
  else if 0xE1 ≤ b && b < 0xF0 then some (b.toNat - 0xE0, 0x80, 0xBF, 1)
  else if b == 0xF0 then some (0, 0x90, 0xBF, 2)
  else if b == 0xF4 then some (4, 0x80, 0x8F, 2)
  else if 0xF1 ≤ b && b < 0xF4 then some (b.toNat - 0xF0, 0x80, 0xBF, 2)
  else none

/-- The value of a character with one more byte. -/
def extend (value : Nat) (b : UInt8) : Nat := 64 * value + (b.toNat - 0x80)

/-- What is known of a character of which the first bytes have been read. -/
structure Open where
  /-- The value of the bytes read. -/
  value : Nat
  /-- The range of the next byte. -/
  low : UInt8
  high : UInt8
  /-- How many bytes follow the next one. -/
  more : Nat
  deriving DecidableEq, Repr

/-- The characters and invalid parts of some bytes, after the bytes of a character that is open. An
invalid part is `none`. -/
def scanFrom : Option Open → List UInt8 → List (Option Char)
  | none, [] => []
  | some _, [] => [none]
  | none, b :: rest =>
    if b < 0x80 then some (Char.ofNat b.toNat) :: scanFrom none rest
    else
      match lead? b with
      | some (value, low, high, more) => scanFrom (some { value, low, high, more }) rest
      | none => none :: scanFrom none rest
  | some o, b :: rest =>
    if o.low ≤ b && b ≤ o.high then
      match o.more with
      | 0 => some (Char.ofNat (extend o.value b)) :: scanFrom none rest
      | more + 1 =>
        scanFrom (some { value := extend o.value b, low := 0x80, high := 0xBF, more }) rest
    else if b < 0x80 then none :: some (Char.ofNat b.toNat) :: scanFrom none rest
    else
      match lead? b with
      | some (value, low, high, more) => none :: scanFrom (some { value, low, high, more }) rest
      | none => none :: none :: scanFrom none rest

/-- The characters and invalid parts of some bytes. -/
def scan (bytes : List UInt8) : List (Option Char) := scanFrom none bytes

/-- The text of some bytes, if they hold no invalid part. -/
def decode? (bytes : List UInt8) : Option Text := (scan bytes).mapM id

/-- The text of some bytes, a replacement character in place of each invalid part. -/
def decodeLossy (bytes : List UInt8) : Text := (scan bytes).map (·.getD '\uFFFD')

end AsmInspect.Utf8
