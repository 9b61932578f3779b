import AsmInspect.Json.Tree

/-!
# Decoding JSON

A decoder makes a value of some type of a syntax tree. Fields that a record does not know are passed
over whatever they hold; a known field that comes twice is refused.

## Main definitions

* `Json.Decoder`: decoders, told how deep arrays and objects may still be nested
* `Json.Fields`, `Json.Fields.ofTree?`: the fields of a record, written as an object or as an array
* `Json.Fields.required?`, `Json.Fields.nullable?`, `Json.Fields.orElse?`: single fields
* `Json.Decoder.decodeText?`: the value that a text holds
-/

namespace AsmInspect.Json

/-- A decoder: it makes a value of a tree in which arrays and objects may be nested only so deep. -/
abbrev Decoder (α : Type) := (room : Nat) → Tree → Option α

namespace Decoder

variable {α : Type}

/-- A boolean. -/
def bool : Decoder Bool
  | _, .bool b => some b
  | _, _ => none

/-- A string. -/
def string : Decoder String
  | _, .string pieces => decodeString? pieces
  | _, _ => none

/-- A natural number of 64 bits. -/
def word64 : Decoder UInt64
  | _, .number literal =>
    match Number.ofLiteral? literal with
    | some (.natural n) => some n
    | _ => none
  | _, _ => none

/-- A natural number of 32 bits. -/
def word32 : Decoder UInt32
  | room, tree => do
    let n ← word64 room tree
    if n.toNat ≤ maxWord32 then return n.toUInt32 else none

/-- A whole number of 32 bits. -/
def int32 : Decoder Int32
  | _, .number literal =>
    match Number.ofLiteral? literal with
    | some (.natural n) => if n.toNat < 2147483648 then some (Int32.ofInt n.toNat) else none
    | some (.negative n) =>
      if n.val < 2147483648 then some (Int32.ofInt (-(n.val + 1 : Int))) else none
    | _ => none
  | _, _ => none

/-- Any value. -/
def any : Decoder Json := Tree.value?

/-- Something that may be null. -/
def nullable (decode : Decoder α) : Decoder (Option α)
  | _, .null => some none
  | room, tree => (decode room tree).map some

/-- A list. -/
def list (decode : Decoder α) : Decoder (List α)
  | room, .array items => if room ≤ 1 then none else items.mapM (decode (room - 1))
  | _, _ => none

/-- An object whose fields are all of one type. -/
def dict (decode : Decoder α) : Decoder (Dict α)
  | room, .object fields =>
    if room ≤ 1 then none
    else do
      let entries ← fields.mapM fun (key, tree) => do
        return (← decodeString? key, ← decode (room - 1) tree)
      return Dict.ofList entries
  | _, _ => none

/-- One of several names, written as a string or as an object with null under the name. -/
def oneOf (names : List (String × α)) : Decoder α
  | _, .string pieces => do
    let name ← decodeString? pieces
    (names.find? (·.1 == name)).map (·.2)
  | room, .object [(key, .null)] => do
    let name ← decodeString? key
    if room ≤ 1 then none else (names.find? (·.1 == name)).map (·.2)
  | _, _ => none

/-- The value that a text holds, if it holds one of the right type. -/
def decodeText? (decode : Decoder α) (text : String) : Option α := do
  decode depthLimit (← Tree.ofText? text)

end Decoder

/-- The fields of a record that is being decoded. -/
structure Fields where
  /-- How deep the values of the fields may be nested. -/
  room : Nat
  /-- Whether the record is written as an array. -/
  positional : Bool
  /-- The known fields that are there. -/
  found : List (String × Tree)

namespace Fields

variable {α : Type}

/-- The known fields among those of an object, unless one of them comes twice. -/
def pick? (names : List String) :
    List (List Piece × Tree) → Option (List (String × Tree))
  | [] => some []
  | (key, tree) :: rest => do
    let name ← decodeString? key
    let found ← pick? names rest
    if !names.contains name then return found
    else if found.any (·.1 == name) then none
    else return (name, tree) :: found

/-- The fields of a record with these names. An array gives the fields in their order. -/
def ofTree? (names : List String) (room : Nat) : Tree → Option Fields
  | .object fields =>
    if room ≤ 1 then none
    else (pick? names fields).map fun found =>
      { room := room - 1, positional := false, found }
  | .array items =>
    if room ≤ 1 || names.length < items.length then none
    else some { room := room - 1, positional := true, found := names.zip items }
  | _ => none

/-- The tree of a field, if it is there. -/
def tree? (fields : Fields) (name : String) : Option Tree :=
  (fields.found.find? (·.1 == name)).map (·.2)

/-- A field that must be there. -/
def required? (fields : Fields) (name : String) (decode : Decoder α) : Option α := do
  decode fields.room (← fields.tree? name)

/-- A field in place of which a missing one gives a value. -/
def orElse? (fields : Fields) (name : String) (missing : α) (decode : Decoder α) : Option α :=
  match fields.tree? name with
  | some tree => decode fields.room tree
  | none => some missing

/-- A field that may be null, or missing from an object. -/
def nullable? (fields : Fields) (name : String) (decode : Decoder α) : Option (Option α) :=
  match fields.tree? name with
  | some tree => decode.nullable fields.room tree
  | none => if fields.positional then none else some none

end Fields

end AsmInspect.Json
