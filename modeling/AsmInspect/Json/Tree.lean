import AsmInspect.Json.Basic
import AsmInspect.Json.Token

/-!
# The syntax trees of JSON

A text of JSON is one tree. What a tree stands for is decided when a value is made of it: strings
must be well-formed, numbers must not be too large, and arrays and objects must not be nested too
deep. A tree that no value is made of escapes these demands.

## Main definitions

* `Json.Tree`, `Json.Tree.ofText?`: syntax trees, and how they are read
* `Json.Number.ofLiteral?`: the number that a literal stands for
* `Json.Tree.value?`: the value that a tree stands for
* `Json.ofText?`: the value of a text
-/

namespace AsmInspect.Json

/-- A syntax tree. The fields of an object stand as they are written. -/
inductive Tree where
  | null
  | bool (b : Bool)
  | number (literal : Text)
  | string (pieces : List Piece)
  | array (items : List Tree)
  | object (fields : List (List Piece × Tree))

namespace Tree

/-- A collection that is being read, its parts in reverse. -/
inductive Frame where
  | array (items : List Tree)
  /-- An object in the field of a key. -/
  | field (fields : List (List Piece × Tree)) (key : List Piece)

/-- What a reader expects next, inside the open collections. -/
inductive Reader where
  | value (stack : List Frame)
  /-- A value or the end of an array. -/
  | firstItem (stack : List Frame)
  /-- A key or the end of an object. -/
  | firstKey (stack : List Frame)
  | key (fields : List (List Piece × Tree)) (stack : List Frame)
  | colon (fields : List (List Piece × Tree)) (key : List Piece) (stack : List Frame)
  /-- What may follow a tree. -/
  | after (tree : Tree) (stack : List Frame)

/-- The reader that expects a value meets a token. -/
def startValue? (stack : List Frame) : Token → Option Reader
  | .null => some (.after .null stack)
  | .bool b => some (.after (.bool b) stack)
  | .number literal => some (.after (.number literal) stack)
  | .string pieces => some (.after (.string pieces) stack)
  | .openArray => some (.firstItem stack)
  | .openObject => some (.firstKey stack)
  | _ => none

/-- The reader meets a token. -/
def Reader.step? : Reader → Token → Option Reader
  | .value stack, token => startValue? stack token
  | .firstItem stack, .closeArray => some (.after (.array []) stack)
  | .firstItem stack, token => startValue? (.array [] :: stack) token
  | .firstKey stack, .closeObject => some (.after (.object []) stack)
  | .firstKey stack, .string name => some (.colon [] name stack)
  | .key fields stack, .string name => some (.colon fields name stack)
  | .colon fields name stack, .colon => some (.value (.field fields name :: stack))
  | .after tree (.array items :: stack), .comma => some (.value (.array (tree :: items) :: stack))
  | .after tree (.array items :: stack), .closeArray =>
    some (.after (.array (tree :: items).reverse) stack)
  | .after tree (.field fields name :: stack), .comma => some (.key ((name, tree) :: fields) stack)
  | .after tree (.field fields name :: stack), .closeObject =>
    some (.after (.object ((name, tree) :: fields).reverse) stack)
  | _, _ => none

/-- The tree that some tokens write. -/
def ofTokens? (tokens : List Token) : Option Tree :=
  match tokens.foldlM Reader.step? (.value []) with
  | some (.after tree []) => some tree
  | _ => none

/-- The tree that a text writes. -/
def ofText? (text : String) : Option Tree := do ofTokens? (← scan? text.toList)

end Tree

namespace Number

/-- The parts of a literal that matter for its value. -/
structure Scan where
  /-- The digits read, as far as they fit in 64 bits. -/
  whole : Nat := 0
  /-- Whether a digit did not fit; from then on digits only count. -/
  full : Bool := false
  /-- The digits in front of the point that were left out. -/
  up : Nat := 0
  /-- The digits after the point that were read. -/
  down : Nat := 0

/-- One more digit in front of the decimal point. -/
def Scan.wholeDigit (scan : Scan) (c : Char) : Scan :=
  let whole := 10 * scan.whole + (c.toNat - '0'.toNat)
  if scan.full || maxWord64 < whole then { scan with full := true, up := scan.up + 1 }
  else { scan with whole }

/-- One more digit after the decimal point. -/
def Scan.fractionDigit (scan : Scan) (c : Char) : Scan :=
  let whole := 10 * scan.whole + (c.toNat - '0'.toNat)
  if scan.full || maxWord64 < whole then { scan with full := true }
  else { scan with whole, down := scan.down + 1 }

/-- The value of the digits of an exponent. -/
def exponentValue (digits : Text) : Nat :=
  digits.foldl (fun n c => 10 * n + (c.toNat - '0'.toNat)) 0

/-- The real number of a scanned literal times a power of ten. An exponent beyond 31 bits makes
zero of everything small, and nothing of everything large but zero. -/
def real? (negative : Bool) (scan : Scan) (raise : Bool) (exponent : Nat) : Option Number :=
  if exponent < 2147483648 then
    (Binary64.scale? negative scan.whole (scan.up + if raise then exponent else 0)
      (scan.down + if raise then 0 else exponent)).map .real
  else if raise && scan.whole != 0 then none
  else some (.real (Binary64.zero negative))

/-- The real number of a scanned literal with what follows its digits. -/
def withExponent? (negative : Bool) (scan : Scan) : Text → Option Number
  | _ :: '+' :: digits => real? negative scan true (exponentValue digits)
  | _ :: '-' :: digits => real? negative scan false (exponentValue digits)
  | _ :: digits => real? negative scan true (exponentValue digits)
  | [] => real? negative scan true 0

/-- The number that a literal stands for. Whole numbers of 64 bits are exact; of all others the
digits that fit in 64 bits are scaled by a power of ten. -/
def ofLiteral? (literal : Text) : Option Number :=
  let negative := literal.head? == some '-'
  let text := afterOptional '-' literal
  let scan := (text.takeWhile Char.isDigit).foldl Scan.wholeDigit {}
  match text.dropWhile Char.isDigit with
  | '.' :: rest =>
    withExponent? negative ((rest.takeWhile Char.isDigit).foldl Scan.fractionDigit
      { scan with full := false }) (rest.dropWhile Char.isDigit)
  | [] =>
    if scan.full then real? negative scan true 0
    else if !negative then some (.natural scan.whole.toUInt64)
    else if h : 0 < scan.whole ∧ scan.whole ≤ 9223372036854775808 then
      some (.negative ⟨scan.whole - 1, by omega⟩)
    else real? negative scan true 0
  | rest => withExponent? negative scan rest

end Number

/-- How deep arrays and objects may be nested, plus one. -/
def depthLimit : Nat := 128

namespace Tree

mutual

/-- The value that a tree stands for, with `room` for nested arrays and objects. -/
def value? (room : Nat) : Tree → Option Json
  | .null => some .null
  | .bool b => some (.bool b)
  | .number literal => (Number.ofLiteral? literal).map .number
  | .string pieces => (decodeString? pieces).map .string
  | .array items => if room ≤ 1 then none else (values? (room - 1) items).map .array
  | .object fields =>
    if room ≤ 1 then none else (fieldValues? (room - 1) fields).map Json.ofFields

/-- The values of the items of an array. -/
def values? (room : Nat) : List Tree → Option (List Json)
  | [] => some []
  | item :: rest => do return (← value? room item) :: (← values? room rest)

/-- The values of the fields of an object. -/
def fieldValues? (room : Nat) : List (List Piece × Tree) → Option (List (String × Json))
  | [] => some []
  | (key, tree) :: rest => do
    return (← decodeString? key, ← value? room tree) :: (← fieldValues? room rest)

end

end Tree

/-- The value that a text writes. -/
def ofText? (text : String) : Option Json := do (← Tree.ofText? text).value? depthLimit

end AsmInspect.Json
