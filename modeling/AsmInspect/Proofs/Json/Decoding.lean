import AsmInspect.Json.Decoder
import AsmInspect.Proofs.Json.Values

/-!
# Decoders that invert an encoding

A decoder inverts an encoding if it makes each value of the tree that the encoded value is printed
as, whatever room for nesting is left, as long as the value fits in it. Decoders for lists and
dictionaries need one level more than those of what is in them, and so does a record: its fields are
found under their names, in whatever order they are printed, and a field that is left out is
missing.

## Main definitions

* `Json.Decoder.Inverts`: a decoder makes each value of its encoding
* `Json.Fields.ofDict`: the fields of a record that are found in a printed object

## Main results

* `Json.Decoder.Inverts.list`, `Json.Decoder.Inverts.dict`: lists and dictionaries
* `Json.Decoder.Inverts.nullable_some`: values that may be missing
* `Json.Fields.ofTree?_ofFields`: the fields of a printed record
-/

namespace AsmInspect.Json

variable {α : Type} {decode : Decoder α} {encode : α → Json} {depth : Nat}

namespace Decoder

/-- **A decoder inverts an encoding** of values that are nested at most `depth` deep. -/
def Inverts (decode : Decoder α) (encode : α → Json) (depth : Nat) : Prop :=
  ∀ room a, depth < room → decode room (encode a).toTree = some a

/-! ### Single values -/

theorem inverts_bool : bool.Inverts .bool 0 := fun _ _ _ => rfl

theorem inverts_string : string.Inverts .string 0 := fun _ s _ => decodeString?_ofChar s

theorem inverts_word64 : word64.Inverts ofNatural 0 := by
  intro room n _
  rw [ofNatural, toTree, word64, Number.ofLiteral?_natural]

theorem inverts_word32 : word32.Inverts ofWord32 0 := by
  intro room n _
  have hword : word64 room (ofWord32 n).toTree = some n.toUInt64 :=
    inverts_word64 room n.toUInt64 ‹_›
  have hle : n.toUInt64.toNat ≤ maxWord32 := Nat.le_of_lt_succ n.toNat_lt
  rw [word32, hword, Option.bind_eq_bind, Option.bind_some, if_pos hle, UInt32.toUInt32_toUInt64]
  rfl

theorem inverts_int32 : int32.Inverts ofInt32 0 := by
  intro room i _
  unfold ofInt32
  split
  case isTrue hsign =>
    have hlt : i.toInt.toNat < 2147483648 := by
      have hhigh := i.toInt_lt
      omega
    have hvalue : i.toInt.toNat.toUInt64.toNat = i.toInt.toNat :=
      UInt64.toNat_ofNat_of_lt' (Nat.lt_trans hlt (by decide))
    have hfits : i.toInt.toNat.toUInt64.toNat < 2147483648 := hvalue.symm ▸ hlt
    rw [toTree, int32, Number.ofLiteral?_natural]
    dsimp only
    rw [if_pos hfits, hvalue, Int.toNat_of_nonneg hsign, Int32.ofInt_toInt]
  case isFalse hsign =>
    have hlow := i.le_toInt
    have hvalue : (Fin.ofNat 9223372036854775808 (-i.toInt - 1).toNat).val = (-i.toInt - 1).toNat :=
      Nat.mod_eq_of_lt (by omega)
    have hfits : (Fin.ofNat 9223372036854775808 (-i.toInt - 1).toNat).val < 2147483648 := by
      rw [hvalue]
      omega
    rw [toTree, int32, Number.ofLiteral?_negative]
    dsimp only
    rw [if_pos hfits, hvalue, show -(((-i.toInt - 1).toNat : Int) + 1) = i.toInt by omega,
      Int32.ofInt_toInt]

/-- **One of several names** is decoded as what it stands for. -/
theorem inverts_oneOf {names : List (String × α)} {name : α → String}
    (h : ∀ a, names.find? (·.1 == name a) = some (name a, a)) :
    (oneOf names).Inverts (fun a => .string (name a)) 0 := by
  intro room a _
  rw [toTree, oneOf, decodeString?_ofChar]
  simp [h]

/-! ### Collections -/

/-- **Lists** are nested one level deeper than their items. -/
theorem Inverts.list (h : decode.Inverts encode depth) :
    (list decode).Inverts (ofList encode) (depth + 1) := by
  intro room items hroom
  have hitems : (itemTrees (items.map encode)).mapM (decode (room - 1)) = some items := by
    induction items with
    | nil => rfl
    | cons item rest ih =>
      rw [List.map_cons, itemTrees, List.mapM_cons, h (room - 1) item (by omega), ih]
      rfl
  rw [ofList, toTree, Decoder.list, if_neg (by omega), hitems]

theorem Inverts.mapM_fieldTrees (h : decode.Inverts encode depth) {room : Nat}
    (hroom : depth < room) (entries : List (String × α)) :
    ((fieldTrees (entries.map fun (key, a) => (key, encode a))).mapM fun (key, tree) => do
      return (← decodeString? key, ← decode room tree)) = some entries := by
  induction entries with
  | nil => rfl
  | cons entry rest ih =>
    rw [List.map_cons, fieldTrees, List.mapM_cons, ih]
    dsimp only
    rw [decodeString?_ofChar, h room entry.2 hroom]
    rfl

/-- **Dictionaries** are nested one level deeper than their values. -/
theorem Inverts.dict (h : decode.Inverts encode depth) :
    (dict decode).Inverts (fun d => .object (d.entries.map fun (key, a) => (key, encode a)))
      (depth + 1) := by
  intro room d hroom
  have hleft : depth < room - 1 := by omega
  rw [toTree, Decoder.dict, if_neg (by omega), h.mapM_fieldTrees hleft]
  exact congrArg some (Dict.ofList_entries d)

end Decoder

/-! ### Records -/

namespace Fields

variable {names : List String} {room : Nat} {name : String} {d : Dict Json}

/-- **The fields of a record** that are found in a printed object. -/
def ofDict (room : Nat) (d : Dict Json) : Fields :=
  { room, positional := false, found := d.entries.map fun (key, value) => (key, value.toTree) }

/-- All fields with known names are found in a printed object. -/
theorem pick?_fieldTrees {fields : List (String × Json)} (h : fields.Pairwise (·.1 < ·.1))
    (hnames : fields.map Prod.fst ⊆ names) :
    pick? names (fieldTrees fields) =
      some (fields.map fun (key, value) => (key, value.toTree)) := by
  induction fields with
  | nil => rfl
  | cons field rest ih =>
    obtain ⟨hfirst, hrest⟩ := List.pairwise_cons.mp h
    obtain ⟨hname, hothers⟩ := List.cons_subset.mp hnames
    rw [fieldTrees, pick?, decodeString?_ofChar, ih hrest hothers]
    have hnew : (rest.map fun (key, value) => (key, value.toTree)).any (·.1 == field.1) = false := by
      rw [List.any_eq_false]
      intro found hfound hsame
      obtain ⟨other, hother, rfl⟩ := List.mem_map.mp hfound
      have hlt := hfirst other hother
      rw [eq_of_beq hsame] at hlt
      exact String.lt_irrefl _ hlt
    simp [hname, hnew]

/-- **The fields of a printed record**, if their names are known. -/
theorem ofTree?_ofFields {fields : List (String × Json)} (hroom : 1 < room)
    (hnames : fields.map Prod.fst ⊆ names) :
    ofTree? names room (ofFields fields).toTree =
      some (ofDict (room - 1) (Dict.ofList fields)) := by
  have hknown : (Dict.ofList fields).entries.map Prod.fst ⊆ names :=
    fun name hname => hnames (List.map_subset _ (fun _ => Dict.mem_of_mem_ofList) hname)
  rw [ofFields, Json.ofDict, toTree, ofTree?, if_neg (by omega),
    pick?_fieldTrees (Dict.ofList fields).increasing hknown]
  rfl

theorem tree?_ofDict : (ofDict room d).tree? name = (d.get? name).map toTree := by
  rw [tree?, ofDict, Dict.get?, List.find?_map, Option.map_map, Option.map_map]
  rfl

/-- A field that must be there is decoded from what is found under its name. -/
@[simp] theorem required?_ofDict : (ofDict room d).required? name decode =
    (d.get? name).bind fun value => decode room value.toTree := by
  rw [required?, tree?_ofDict]
  cases d.get? name <;> rfl

/-- So is a field that may be missing. -/
@[simp] theorem orElse?_ofDict (missing : α) : (ofDict room d).orElse? name missing decode =
    match d.get? name with
    | some value => decode room value.toTree
    | none => some missing := by
  rw [orElse?, tree?_ofDict]
  cases d.get? name <;> rfl

/-- A field that may be null or missing. -/
@[simp] theorem nullable?_ofDict : (ofDict room d).nullable? name decode =
    match d.get? name with
    | some value => decode.nullable room value.toTree
    | none => some none := by
  rw [nullable?, tree?_ofDict]
  cases d.get? name <;> rfl

end Fields

theorem string_ne_null (s : String) : Json.string s ≠ .null := nofun

theorem ofNatural_ne_null (n : UInt64) : ofNatural n ≠ .null := nofun

theorem ofFields_ne_null (fields : List (String × Json)) : ofFields fields ≠ .null := nofun

theorem toTree_ne_null {value : Json} (h : value ≠ .null) : value.toTree ≠ .null := by
  intro htree
  cases value <;> first | exact h rfl | cases htree

/-- **What may be missing** is decoded as something if it is there, since it is never null then. -/
theorem Decoder.Inverts.nullable_some (h : decode.Inverts encode depth)
    (hnull : ∀ a, encode a ≠ .null) {room : Nat} (hroom : depth < room) (a : α) :
    decode.nullable room (encode a).toTree = some (some a) := by
  have hread := h room a hroom
  unfold Decoder.nullable
  split
  case h_1 hnone => exact absurd hnone (toTree_ne_null (hnull a))
  case h_2 => rw [hread, Option.map_some]

end AsmInspect.Json
