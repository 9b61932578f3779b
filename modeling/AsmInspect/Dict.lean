/-!
# Dictionaries with sorted keys

A finite map from names to values whose entries stand in increasing order of their names, so that
two dictionaries with the same content are equal.

## Main definitions

* `Dict`: the entries with the proof that their names increase
* `Dict.get?`, `Dict.insert`, `Dict.erase`, `Dict.ofList`: the operations
-/

namespace AsmInspect

/-- A finite map from names to values, in increasing order of the names. -/
structure Dict (α : Type u) where
  /-- The names with their values. -/
  entries : List (String × α)
  /-- The names increase, so none comes twice. -/
  increasing : entries.Pairwise (·.1 < ·.1)

namespace Dict

variable {α : Type u} {β : Type v}

/-- The dictionary without entries. -/
def empty : Dict α := ⟨[], .nil⟩

instance : Inhabited (Dict α) := ⟨empty⟩

instance : EmptyCollection (Dict α) := ⟨empty⟩

@[ext] theorem ext {d e : Dict α} (h : d.entries = e.entries) : d = e := by
  cases d; cases e; cases h; rfl

instance [DecidableEq α] : DecidableEq (Dict α) := fun d e =>
  decidable_of_iff (d.entries = e.entries) ⟨ext, fun h => h ▸ rfl⟩

/-- The entry of `name` put at its place among entries in order, in place of an older one. -/
def insertEntry (name : String) (value : α) : List (String × α) → List (String × α)
  | [] => [(name, value)]
  | e :: rest =>
    if name < e.1 then (name, value) :: e :: rest
    else if name = e.1 then (name, value) :: rest
    else e :: insertEntry name value rest

/-- What is among the entries after an insertion is the new entry or was among them before. -/
theorem mem_insertEntry {name : String} {value : α} {x : String × α} {l : List (String × α)}
    (h : x ∈ insertEntry name value l) : x = (name, value) ∨ x ∈ l := by
  induction l with
  | nil => simpa [insertEntry] using h
  | cons e rest ih =>
    unfold insertEntry at h
    split at h
    · simpa using h
    · split at h
      · rcases List.mem_cons.1 h with h | h
        · exact .inl h
        · exact .inr (List.mem_cons_of_mem _ h)
      · rcases List.mem_cons.1 h with h | h
        · exact .inr (h ▸ List.mem_cons_self)
        · exact (ih h).imp_right (List.mem_cons_of_mem _)

/-- Entries in order are still in order after an insertion. -/
theorem pairwise_insertEntry (name : String) (value : α) {l : List (String × α)}
    (h : l.Pairwise (·.1 < ·.1)) : (insertEntry name value l).Pairwise (·.1 < ·.1) := by
  induction l with
  | nil => simp [insertEntry]
  | cons e rest ih =>
    obtain ⟨he, hr⟩ := List.pairwise_cons.1 h
    unfold insertEntry
    split
    · next hlt =>
      -- the new entry comes first: it is below the head, and so below all that follows
      refine List.pairwise_cons.2 ⟨?_, h⟩
      intro x hx
      rcases List.mem_cons.1 hx with rfl | hx
      · exact hlt
      · exact String.lt_trans hlt (he x hx)
    · next hnlt =>
      split
      · next heq =>
        subst heq
        exact List.pairwise_cons.2 ⟨he, hr⟩
      · next hne =>
        -- the head stays first: it is below the new entry by the order being total
        have hlt : e.1 < name := by
          rcases String.le_total e.1 name with hle | hle
          · by_cases hlt : e.1 < name
            · exact hlt
            · exact absurd (String.le_antisymm hle (String.not_lt.1 hlt)).symm hne
          · exact absurd (String.le_antisymm hle (String.not_lt.1 hnlt)) hne
        refine List.pairwise_cons.2 ⟨?_, ih hr⟩
        intro x hx
        rcases mem_insertEntry hx with rfl | hx
        · exact hlt
        · exact he x hx

/-- The dictionary with `value` under `name`. -/
def insert (d : Dict α) (name : String) (value : α) : Dict α :=
  ⟨insertEntry name value d.entries, pairwise_insertEntry name value d.increasing⟩

/-- The value under `name`. -/
def get? (d : Dict α) (name : String) : Option α := (d.entries.find? (·.1 == name)).map (·.2)

/-- Whether there is a value under `name`. -/
def contains (d : Dict α) (name : String) : Bool := d.entries.any (·.1 == name)

/-- The dictionary without the entry of `name`. -/
def erase (d : Dict α) (name : String) : Dict α :=
  ⟨d.entries.filter (·.1 != name), d.increasing.filter _⟩

/-- The dictionary of a list of entries; of two entries with one name the later one counts. -/
def ofList (entries : List (String × α)) : Dict α :=
  entries.foldl (fun d e => d.insert e.1 e.2) empty

/-- The dictionary with the entries of another one on top. -/
def overlay (d e : Dict α) : Dict α := e.entries.foldl (fun d e => d.insert e.1 e.2) d

/-- The names, in increasing order. -/
def keys (d : Dict α) : List String := d.entries.map (·.1)

/-- The values, in the order of their names. -/
def values (d : Dict α) : List α := d.entries.map (·.2)

/-- The number of entries. -/
def size (d : Dict α) : Nat := d.entries.length

end Dict

end AsmInspect
