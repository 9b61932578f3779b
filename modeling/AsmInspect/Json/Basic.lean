import AsmInspect.Binary64
import AsmInspect.Dict

/-!
# JSON values

The values of JSON as they are kept. A number is a natural number of 64 bits, a negative number of
64 bits or a floating-point number; the fields of an object stand in the order of their names.

## Main definitions

* `Json.Number`, `Json`: numbers and values
* `Json.ofFields`: the object of some fields
-/

namespace AsmInspect

/-- A number of JSON. -/
inductive Json.Number where
  | natural (n : UInt64)
  /-- The negative number `-(n + 1)`. -/
  | negative (n : Fin (9223372036854775808))
  | real (x : Binary64)
  deriving DecidableEq, Repr

/-- A value of JSON. -/
inductive Json where
  | null
  | bool (b : Bool)
  | number (n : Json.Number)
  | string (s : String)
  | array (items : List Json)
  | object (fields : List (String × Json))

namespace Json

instance : Inhabited Json := ⟨null⟩

/-- The object of a dictionary. -/
def ofDict (fields : Dict Json) : Json := .object fields.entries

/-- The object of some fields; of two fields with one name the later one counts. -/
def ofFields (fields : List (String × Json)) : Json := ofDict (Dict.ofList fields)

/-- The value of a natural number of 64 bits. -/
def ofNatural (n : UInt64) : Json := .number (.natural n)

/-- The value of a natural number of 32 bits. -/
def ofWord32 (n : UInt32) : Json := .number (.natural n.toUInt64)

/-- The value of an exit code. -/
def ofInt32 (i : Int32) : Json :=
  if 0 ≤ i.toInt then .number (.natural i.toInt.toNat.toUInt64)
  else .number (.negative (Fin.ofNat _ (-i.toInt - 1).toNat))

/-- The value of a list. -/
def ofList {α : Type} (encode : α → Json) (items : List α) : Json := .array (items.map encode)

/-- The value of something that may be missing. -/
def ofOption {α : Type} (encode : α → Json) : Option α → Json
  | some a => encode a
  | none => .null

/-- The word for the kind of a value in messages. -/
def kindName : Json → String
  | null => "null"
  | bool _ => "a boolean"
  | number _ => "a number"
  | string _ => "a string"
  | array _ => "an array"
  | object _ => "an object"

/-- The number of a value, if it is a natural number. -/
def natural? : Json → Option UInt64
  | .number (.natural n) => some n
  | _ => none

end Json

end AsmInspect
