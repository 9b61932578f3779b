/-!
# TOML values

The values of TOML, and how a document builds up its tables. A table may be opened by a header, or
come into being because a header or a dotted key names something inside it; only what came into
being by itself may be entered again.

## Main definitions

* `Toml`: the values
* `Toml.Origin`: how a table came into being
* `Toml.alter?`: a change at the end of a path of keys
* `Toml.define?`: a key defined at the end of a path of dotted keys
-/

namespace AsmInspect

/-- How a table came into being. -/
inductive Toml.Origin where
  /-- By a header of its own, or as one of an array of tables. -/
  | header
  /-- By a header that names a table inside it. -/
  | implied
  /-- By a dotted key. -/
  | dotted
  deriving DecidableEq, Repr

/-- A value of TOML. Of floating-point numbers, dates and times only the kind is kept. -/
inductive Toml where
  | string (s : String)
  | integer (i : Int)
  | float
  | boolean (b : Bool)
  | moment
  | array (items : List Toml)
  | inlineTable (fields : List (String × Toml))
  | table (origin : Toml.Origin) (fields : List (String × Toml))
  /-- The tables that headers with double brackets add one by one, the latest first. -/
  | tables (items : List (List (String × Toml)))

namespace Toml

instance : Inhabited Toml := ⟨.boolean false⟩

/-- The fields of a table. -/
abbrev TableFields := List (String × Toml)

/-- The value of a key. -/
def lookup? (fields : TableFields) (key : String) : Option Toml :=
  (fields.find? (·.1 == key)).map (·.2)

/-- The fields with a new value for a key. -/
def store (fields : TableFields) (key : String) (value : Toml) : TableFields :=
  if fields.any (·.1 == key) then fields.map fun f => if f.1 == key then (key, value) else f
  else fields ++ [(key, value)]

/-- The fields changed at the end of a path of keys. Tables on the way come into being as `origin`
says; a dotted key does not enter a table with a header. The change is told how the table at the
end came into being. -/
def alter? (origin : Origin) (change : Origin → TableFields → Option TableFields) :
    (here : Origin) → List String → TableFields → Option TableFields
  | here, [], fields => change here fields
  | _, key :: path, fields =>
    match lookup? fields key with
    | none => do return store fields key (.table origin (← alter? origin change origin path []))
    | some (.table existing inner) =>
      if origin == .dotted && existing == .header then none
      else do return store fields key (.table existing (← alter? origin change existing path inner))
    | some (.tables (latest :: earlier)) => do
      return store fields key (.tables ((← alter? origin change .header path latest) :: earlier))
    | some _ => none

/-- The fields with a value for a key that has none. -/
def add? (key : String) (value : Toml) (fields : TableFields) : Option TableFields :=
  if fields.any (·.1 == key) then none else some (store fields key value)

/-- The fields with a value at the end of a path of dotted keys. Tables on the way must have come
into being by dotted keys too. -/
def define? (path : List String) (value : Toml) (fields : TableFields) : Option TableFields :=
  match path.reverse with
  | [] => none
  | key :: front =>
    alter? .dotted (fun here fields =>
      if here == .dotted || front.isEmpty then add? key value fields else none)
      .header front.reverse fields

/-- The fields with a table opened by a header. -/
def openTable? (path : List String) (fields : TableFields) : Option TableFields :=
  match path.reverse with
  | [] => none
  | key :: front =>
    alter? .implied (fun _ fields =>
      match lookup? fields key with
      | none => some (store fields key (.table .header []))
      | some (.table .implied inner) => some (store fields key (.table .header inner))
      | some _ => none) .header front.reverse fields

/-- The fields with one more table of an array of tables. -/
def openTables? (path : List String) (fields : TableFields) : Option TableFields :=
  match path.reverse with
  | [] => none
  | key :: front =>
    alter? .implied (fun _ fields =>
      match lookup? fields key with
      | none => some (store fields key (.tables [[]]))
      | some (.tables items) => some (store fields key (.tables ([] :: items)))
      | some _ => none) .header front.reverse fields

/-- The fields with a key defined in the table that a header opened. -/
def defineIn? (header path : List String) (value : Toml) (fields : TableFields) :
    Option TableFields :=
  alter? .implied (fun _ fields => define? path value fields) .header header fields

end Toml

end AsmInspect
