import AsmInspect.Proofs.Dict
import AsmInspect.Proofs.Json.Printing

/-!
# Values that are read back

A printed value is read back unless it is nested too deep or a floating-point number in it is not
read from its own digits. Nothing else is lost: fields keep their order because they are kept in the
order of their names, and strings and whole numbers are exact.

## Main definitions

* `Json.parts`, `Json.depth`: what a value consists of, and how deep it is nested
* `Json.Ordered`: the fields of each object stand in order
* `Json.ReadsBack`: each floating-point number is read from its own digits

## Main results

* `Json.Tree.value?_toTree_iff`: exactly these values are read back from their trees
* `Json.ofText?_print_iff`, `Json.ofText?_pretty_iff`: and from what they are printed as
* `Json.Tree.ordered_of_value?`: what is read is in order, and not nested too deep
-/

namespace AsmInspect.Json

mutual

/-- **The parts of a value**, the value itself among them. -/
def parts : Json → List Json
  | .null => [.null]
  | .bool b => [.bool b]
  | .number n => [.number n]
  | .string s => [.string s]
  | .array items => .array items :: itemParts items
  | .object fields => .object fields :: fieldParts fields

/-- The parts of the items of an array. -/
def itemParts : List Json → List Json
  | [] => []
  | item :: rest => parts item ++ itemParts rest

/-- The parts of the values of the fields of an object. -/
def fieldParts : List (String × Json) → List Json
  | [] => []
  | (_, value) :: rest => parts value ++ fieldParts rest

end

mutual

/-- **How deep arrays and objects are nested** in a value. -/
def depth : Json → Nat
  | .null => 0
  | .bool _ => 0
  | .number _ => 0
  | .string _ => 0
  | .array items => itemDepth items + 1
  | .object fields => fieldDepth fields + 1

/-- How deep the deepest item of an array is nested. -/
def itemDepth : List Json → Nat
  | [] => 0
  | item :: rest => max (depth item) (itemDepth rest)

/-- How deep the deepest value of the fields of an object is nested. -/
def fieldDepth : List (String × Json) → Nat
  | [] => 0
  | (_, value) :: rest => max (depth value) (fieldDepth rest)

end

attribute [simp] parts itemParts fieldParts depth itemDepth fieldDepth

/-- **A value as it is kept**: the fields of each object in it stand in the order of their names. -/
def Ordered (value : Json) : Prop :=
  ∀ fields, .object fields ∈ value.parts → fields.Pairwise (·.1 < ·.1)

/-- **Each floating-point number in a value is read from its own digits.** -/
def ReadsBack (value : Json) : Prop := ∀ x, .number (.real x) ∈ value.parts → x.ReadsBack

variable {item value : Json} {items : List Json} {key : String} {fields : List (String × Json)}
  {room : Nat}

@[simp] theorem ordered_array_cons :
    Ordered (.array (item :: items)) ↔ item.Ordered ∧ Ordered (.array items) := by
  simp [Ordered, or_imp, forall_and]

@[simp] theorem ordered_object_cons :
    Ordered (.object ((key, value) :: fields)) ↔
      (∀ field ∈ fields, key < field.1) ∧ value.Ordered ∧ Ordered (.object fields) := by
  simp only [Ordered, parts, fieldParts, List.mem_cons, List.mem_append, or_imp, forall_and,
    object.injEq, forall_eq, List.pairwise_cons]
  tauto

@[simp] theorem readsBack_array_nil : ReadsBack (.array []) := by
  simp [ReadsBack]

@[simp] theorem readsBack_array_cons :
    ReadsBack (.array (item :: items)) ↔ item.ReadsBack ∧ ReadsBack (.array items) := by
  simp [ReadsBack, or_imp, forall_and]

@[simp] theorem readsBack_object_nil : ReadsBack (.object []) := by
  simp [ReadsBack]

@[simp] theorem readsBack_object_cons :
    ReadsBack (.object ((key, value) :: fields)) ↔
      value.ReadsBack ∧ ReadsBack (.object fields) := by
  simp [ReadsBack, or_imp, forall_and]

@[simp] theorem readsBack_number {n : Number} :
    ReadsBack (.number n) ↔ Number.ofLiteral? n.print = some n := by
  cases n with
  | natural n => simp [ReadsBack, Number.ofLiteral?_natural]
  | negative n => simp [ReadsBack, Number.ofLiteral?_negative]
  | real x => simp [ReadsBack, Binary64.ReadsBack]

/-- There is nothing to put in order in a value without arrays and objects. -/
theorem ordered_of_depth_eq_zero (h : value.depth = 0) : value.Ordered := by
  cases value with
  | array | object => rw [depth] at h; omega
  | null | bool | number | string => simp [Ordered]

theorem ordered_array_iff : Ordered (.array items) ↔ ∀ item ∈ items, item.Ordered := by
  induction items with
  | nil => simp [Ordered]
  | cons item rest ih => rw [ordered_array_cons, ih, List.forall_mem_cons]

theorem ordered_object_iff : Ordered (.object fields) ↔
    fields.Pairwise (·.1 < ·.1) ∧ ∀ field ∈ fields, field.2.Ordered := by
  induction fields with
  | nil => simp [Ordered]
  | cons field rest ih =>
    rw [ordered_object_cons, ih, List.pairwise_cons, List.forall_mem_cons]
    tauto

theorem depth_array_le_iff :
    depth (.array items) ≤ room ↔ 0 < room ∧ ∀ item ∈ items, item.depth < room := by
  induction items with
  | nil => simp [Nat.succ_le_iff]
  | cons item rest ih =>
    rw [depth] at ih
    rw [depth, itemDepth, List.forall_mem_cons, and_left_comm, ← ih]
    omega

theorem depth_object_le_iff :
    depth (.object fields) ≤ room ↔ 0 < room ∧ ∀ field ∈ fields, field.2.depth < room := by
  induction fields with
  | nil => simp [Nat.succ_le_iff]
  | cons field rest ih =>
    rw [depth] at ih
    rw [depth, fieldDepth, List.forall_mem_cons, and_left_comm, ← ih]
    omega

theorem Ordered.pairwise (h : Ordered (.object fields)) : fields.Pairwise (·.1 < ·.1) :=
  h fields List.mem_cons_self

/-! ### Reading the tree of a value -/

namespace Tree

theorem fieldValues?_cons_eq_some_iff {found : List (String × Json)} :
    fieldValues? room (fieldTrees ((key, value) :: fields)) = some found ↔
      ∃ read others, value.toTree.value? room = some read ∧
        fieldValues? room (fieldTrees fields) = some others ∧ found = (key, read) :: others := by
  rw [fieldTrees, fieldValues?, decodeString?_ofChar]
  simp [Option.bind_eq_some_iff, @eq_comm _ found]

/-- Keys are read back whatever becomes of the values. -/
theorem map_fst_fieldValues? {found : List (String × Json)}
    (h : fieldValues? room (fieldTrees fields) = some found) :
    found.map Prod.fst = fields.map Prod.fst := by
  induction fields generalizing found with
  | nil =>
    obtain rfl := Option.some.inj h
    rfl
  | cons field rest ih =>
    obtain ⟨read, others, -, hothers, rfl⟩ := fieldValues?_cons_eq_some_iff.mp h
    rw [List.map_cons, List.map_cons, ih hothers]

/-- The fields of an object in order are read back exactly if their values are. -/
theorem map_ofFields_eq_some_iff (h : Ordered (.object fields)) :
    (fieldValues? room (fieldTrees fields)).map ofFields = some (.object fields) ↔
      fieldValues? room (fieldTrees fields) = some fields := by
  constructor
  · intro hread
    obtain ⟨found, hfound, hsame⟩ := Option.map_eq_some_iff.mp hread
    have hkeys := map_fst_fieldValues? hfound
    have hsorted : found.Pairwise (·.1 < ·.1) := by
      have hpairwise := List.pairwise_map.mpr h.pairwise
      rwa [← hkeys, List.pairwise_map] at hpairwise
    have hentries : (Dict.ofList found).entries = fields := by
      injection hsame
    rw [Dict.entries_ofList hsorted] at hentries
    rw [hfound, hentries]
  · intro hread
    rw [hread, Option.map_some, ofFields, ofDict, Dict.entries_ofList h.pairwise]

mutual

/-- **Exactly the values that are not nested too deep and whose floating-point numbers are read back
are read back** from their trees. -/
theorem value?_toTree_iff {room : Nat} (hroom : 0 < room) : (value : Json) → value.Ordered →
    (value.toTree.value? room = some value ↔ value.depth < room ∧ value.ReadsBack)
  | .null, _ => by simp [toTree, value?, ReadsBack, hroom]
  | .bool b, _ => by simp [toTree, value?, ReadsBack, hroom]
  | .number n, _ => by simp [toTree, value?, hroom]
  | .string s, _ => by
    simp [toTree, value?, decodeString?_ofChar, ReadsBack, hroom]
  | .array items, h => by
    rw [toTree, value?]
    split
    case isTrue hfull =>
      have hdepth : ¬ depth (.array items) < room := by
        rw [depth]
        omega
      exact iff_of_false (Option.some_ne_none _).symm fun h => hdepth h.1
    case isFalse =>
      have hleft : 0 < room - 1 := by omega
      have hitems := values?_itemTrees_iff hleft items h
      have hdepth : depth (.array items) ≤ room - 1 ↔ depth (.array items) < room := by omega
      rw [← hdepth, ← hitems]
      simp
  | .object fields, h => by
    rw [toTree, value?]
    split
    case isTrue hfull =>
      have hdepth : ¬ depth (.object fields) < room := by
        rw [depth]
        omega
      exact iff_of_false (Option.some_ne_none _).symm fun h => hdepth h.1
    case isFalse =>
      have hleft : 0 < room - 1 := by omega
      have hfields := fieldValues?_fieldTrees_iff hleft fields h
      have hdepth : depth (.object fields) ≤ room - 1 ↔ depth (.object fields) < room := by omega
      rw [← hdepth, ← hfields]
      exact map_ofFields_eq_some_iff h

theorem values?_itemTrees_iff {room : Nat} (hroom : 0 < room) : (items : List Json) →
    Ordered (.array items) → (values? room (itemTrees items) = some items ↔
      depth (.array items) ≤ room ∧ ReadsBack (.array items))
  | [], _ => by simp [itemTrees, values?]; omega
  | item :: rest, h => by
    have hfirst := value?_toTree_iff hroom item (ordered_array_cons.mp h).1
    have hrest := values?_itemTrees_iff hroom rest (ordered_array_cons.mp h).2
    have hdepth : depth (.array (item :: rest)) ≤ room ↔
        item.depth < room ∧ depth (.array rest) ≤ room := by
      rw [depth, depth, itemDepth]
      omega
    rw [itemTrees, values?, hdepth, readsBack_array_cons, and_and_and_comm, ← hfirst, ← hrest]
    simp [Option.bind_eq_some_iff]

theorem fieldValues?_fieldTrees_iff {room : Nat} (hroom : 0 < room) :
    (fields : List (String × Json)) → Ordered (.object fields) →
    (fieldValues? room (fieldTrees fields) = some fields ↔
      depth (.object fields) ≤ room ∧ ReadsBack (.object fields))
  | [], _ => by simp [fieldTrees, fieldValues?]; omega
  | (key, value) :: rest, h => by
    obtain ⟨-, hordered, hothers⟩ := ordered_object_cons.mp h
    have hfirst := value?_toTree_iff hroom value hordered
    have hrest := fieldValues?_fieldTrees_iff hroom rest hothers
    have hdepth : depth (.object ((key, value) :: rest)) ≤ room ↔
        value.depth < room ∧ depth (.object rest) ≤ room := by
      rw [depth, depth, fieldDepth]
      omega
    rw [fieldValues?_cons_eq_some_iff, hdepth, readsBack_object_cons, and_and_and_comm, ← hfirst,
      ← hrest]
    simp

end

end Tree

/-- **Exactly these values are read back** from a line that they are printed in. -/
theorem ofText?_print_iff (h : value.Ordered) :
    ofText? value.print = some value ↔ value.depth < depthLimit ∧ value.ReadsBack := by
  rw [ofText?, Tree.ofText?_print]
  exact Tree.value?_toTree_iff (by decide) value h

namespace Tree

mutual

/-- **What is read of a tree** is in order, and nested no deeper than there is room for. -/
theorem ordered_of_value? {room : Nat} (hroom : 0 < room) : (tree : Tree) → (value : Json) →
    tree.value? room = some value → value.Ordered ∧ value.depth < room
  | .null, _, rfl => ⟨ordered_of_depth_eq_zero rfl, hroom⟩
  | .bool _, _, rfl => ⟨ordered_of_depth_eq_zero rfl, hroom⟩
  | .number _, _, h => by
    obtain ⟨n, -, rfl⟩ := Option.map_eq_some_iff.mp h
    exact ⟨ordered_of_depth_eq_zero rfl, hroom⟩
  | .string _, _, h => by
    obtain ⟨s, -, rfl⟩ := Option.map_eq_some_iff.mp h
    exact ⟨ordered_of_depth_eq_zero rfl, hroom⟩
  | .array trees, _, h => by
    rw [value?] at h
    split at h
    case isTrue => cases h
    case isFalse =>
      have hleft : 0 < room - 1 := by omega
      obtain ⟨items, hitems, rfl⟩ := Option.map_eq_some_iff.mp h
      have hall := ordered_of_values? hleft trees items hitems
      have hdepth := depth_array_le_iff.mpr ⟨hleft, fun item hitem => (hall item hitem).2⟩
      exact ⟨ordered_array_iff.mpr fun item hitem => (hall item hitem).1, by omega⟩
  | .object trees, _, h => by
    rw [value?] at h
    split at h
    case isTrue => cases h
    case isFalse =>
      have hleft : 0 < room - 1 := by omega
      obtain ⟨found, hfound, rfl⟩ := Option.map_eq_some_iff.mp h
      have hall : ∀ field ∈ (Dict.ofList found).entries,
          field.2.Ordered ∧ field.2.depth < room - 1 := fun field hfield =>
        ordered_of_fieldValues? hleft trees found hfound field (Dict.mem_of_mem_ofList hfield)
      have hdepth := depth_object_le_iff.mpr ⟨hleft, fun field hfield => (hall field hfield).2⟩
      exact ⟨ordered_object_iff.mpr ⟨(Dict.ofList found).increasing,
        fun field hfield => (hall field hfield).1⟩, by rw [ofFields, ofDict]; omega⟩

theorem ordered_of_values? {room : Nat} (hroom : 0 < room) : (trees : List Tree) →
    (items : List Json) → values? room trees = some items →
    ∀ item ∈ items, item.Ordered ∧ item.depth < room
  | [], _, rfl => List.forall_mem_nil _
  | tree :: rest, _, h => by
    obtain ⟨item, hitem, h⟩ := Option.bind_eq_some_iff.mp h
    obtain ⟨others, hothers, h⟩ := Option.bind_eq_some_iff.mp h
    obtain rfl := Option.some.inj h
    exact List.forall_mem_cons.mpr ⟨ordered_of_value? hroom tree item hitem,
      ordered_of_values? hroom rest others hothers⟩

theorem ordered_of_fieldValues? {room : Nat} (hroom : 0 < room) :
    (trees : List (List Piece × Tree)) → (found : List (String × Json)) →
    fieldValues? room trees = some found →
    ∀ field ∈ found, field.2.Ordered ∧ field.2.depth < room
  | [], _, rfl => List.forall_mem_nil _
  | (pieces, tree) :: rest, _, h => by
    obtain ⟨key, -, h⟩ := Option.bind_eq_some_iff.mp h
    obtain ⟨value, hvalue, h⟩ := Option.bind_eq_some_iff.mp h
    obtain ⟨others, hothers, h⟩ := Option.bind_eq_some_iff.mp h
    obtain rfl := Option.some.inj h
    exact List.forall_mem_cons.mpr ⟨ordered_of_value? hroom tree value hvalue,
      ordered_of_fieldValues? hroom rest others hothers⟩

end

end Tree

end AsmInspect.Json
